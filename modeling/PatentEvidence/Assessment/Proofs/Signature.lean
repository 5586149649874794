/-
What a decision signature binds.

The digested text is six fields, each behind its label, with bars between
them. No field but the last can have a bar in it: ids are the text of UUIDs
or `None`, the number is decimal, the digest hexadecimal, the decision one
of four words. So the text is read back field by field from the left
(`signaturePreimage_inj`), what is left is the time, and every field is
read back in turn from its own text.

The records the service builds have the fields they sign.
-/
import PatentEvidence.Assessment.Proofs.Decisions
import PatentEvidence.Lib.Aware
import PatentEvidence.Lib.Hex

namespace PatentEvidence.Assessment

open AwareDatetime (append_inj_toList)
open Fallible Text

-- ============================================================== the fields

/-- What `generate_decision_signature` is called with. -/
structure SignatureInput where
  versionId : Uuid
  versionNumber : Nat
  payloadSha256 : HexDigest
  decision : Decision
  reviewerIdentityId : Option Uuid
  decidedAt : AwareDatetime

/-- The text it digests. -/
def SignatureInput.preimage (input : SignatureInput) : String :=
  signaturePreimage
    { versionId := input.versionId.str
      versionNumber := input.versionNumber
      payloadSha256 := input.payloadSha256.text }
    input.decision (input.reviewerIdentityId.map Uuid.str)
    input.decidedAt.isoformat

theorem Decision.value_injective : Function.Injective Decision.value := by
  intro d e h
  cases d <;> cases e <;> first | rfl | exact absurd h (by decide)

theorem bar_notMem_value (decision : Decision) :
    '|' ∉ decision.value.toList := by
  cases decision <;> decide

theorem toString_nat_injective {m n : Nat} (h : toString m = toString n) :
    m = n := by
  have hread (k : Nat) : Nat.ofDigitChars 10 (toString k).toList 0 = k := by
    rw [Nat.toString_eq_repr, Nat.toList_repr, Nat.ofDigitChars_ten_toDigits]
  rw [← hread m, h, hread n]

theorem bar_notMem_nat (n : Nat) : '|' ∉ (toString n).toList := by
  intro h
  rw [Nat.toString_eq_repr, Nat.toList_repr] at h
  have hdigit := Nat.isDigit_of_mem_toDigits (by decide) (by decide) h
  exact absurd hdigit (by decide)

theorem bar_notMem_uuid (u : Uuid) : '|' ∉ u.str.toList := by
  intro h
  cases Uuid.mem_str h with
  | inl hdigit => exact absurd hdigit (by decide)
  | inr hdash => exact absurd hdash (by decide)

theorem bar_notMem_digest (digest : HexDigest) : '|' ∉ digest.text.toList := by
  intro h
  exact absurd (digest.hex.2 _ h) (by decide)

/-- The text of a missing reviewer is that of no UUID. -/
theorem reviewer_injective {reviewer reviewer' : Option Uuid}
    (h : (reviewer.map Uuid.str).getD "None"
      = (reviewer'.map Uuid.str).getD "None") : reviewer = reviewer' := by
  have hne (u : Uuid) : u.str ≠ "None" := by
    intro heq
    have hmem : 'N' ∈ u.str.toList := by
      rw [heq]
      decide
    cases Uuid.mem_str hmem with
    | inl hdigit => exact absurd hdigit (by decide)
    | inr hdash => exact absurd hdash (by decide)
  cases reviewer with
  | none =>
      cases reviewer' with
      | none => rfl
      | some u => exact absurd h.symm (hne u)
  | some u =>
      cases reviewer' with
      | none => exact absurd h (hne u)
      | some v => rw [Uuid.str_injective h]

theorem bar_notMem_reviewer (reviewer : Option Uuid) :
    '|' ∉ ((reviewer.map Uuid.str).getD "None").toList := by
  cases reviewer with
  | none => decide
  | some u => exact bar_notMem_uuid u

-- ============================================================ reading back

/-- Where no field but the last has a bar in it, the text has all of them. -/
theorem fields_inj {id id' number number' digest digest' decision decision'
      reviewer reviewer' time time' : String}
    (hid : '|' ∉ id.toList) (hid' : '|' ∉ id'.toList)
    (hnumber : '|' ∉ number.toList) (hnumber' : '|' ∉ number'.toList)
    (hdigest : '|' ∉ digest.toList) (hdigest' : '|' ∉ digest'.toList)
    (hdecision : '|' ∉ decision.toList) (hdecision' : '|' ∉ decision'.toList)
    (hreviewer : '|' ∉ reviewer.toList) (hreviewer' : '|' ∉ reviewer'.toList)
    (h : "assessment_version:" ++ id ++ "|version:" ++ number
        ++ "|payload_sha256:" ++ digest ++ "|decision:" ++ decision
        ++ "|reviewer:" ++ reviewer ++ "|timestamp:" ++ time
      = "assessment_version:" ++ id' ++ "|version:" ++ number'
        ++ "|payload_sha256:" ++ digest' ++ "|decision:" ++ decision'
        ++ "|reviewer:" ++ reviewer' ++ "|timestamp:" ++ time') :
    id = id' ∧ number = number' ∧ digest = digest' ∧ decision = decision'
      ∧ reviewer = reviewer' ∧ time = time' := by
  simp only [String.append_assoc] at h
  obtain ⟨-, h⟩ := append_inj_toList h rfl
  obtain ⟨hid, h⟩ := append_separated_inj rfl h hid hid'
  obtain ⟨hnumber, h⟩ := append_separated_inj rfl h hnumber hnumber'
  obtain ⟨hdigest, h⟩ := append_separated_inj rfl h hdigest hdigest'
  obtain ⟨hdecision, h⟩ := append_separated_inj rfl h hdecision hdecision'
  obtain ⟨hreviewer, htime⟩ := append_separated_inj rfl h hreviewer hreviewer'
  exact ⟨hid, hnumber, hdigest, hdecision, hreviewer, htime⟩

/-- So the text has what it was made of. -/
theorem preimage_injective : Function.Injective SignatureInput.preimage := by
  intro input input' h
  obtain ⟨hid, hnumber, hdigest, hdecision, hreviewer, htime⟩ :=
    fields_inj (bar_notMem_uuid _) (bar_notMem_uuid _) (bar_notMem_nat _)
      (bar_notMem_nat _) (bar_notMem_digest _) (bar_notMem_digest _)
      (bar_notMem_value _) (bar_notMem_value _) (bar_notMem_reviewer _)
      (bar_notMem_reviewer _) h
  obtain ⟨id, number, digest, decision, reviewer, time⟩ := input
  obtain ⟨id', number', digest', decision', reviewer', time'⟩ := input'
  obtain rfl : id = id' := Uuid.str_injective hid
  obtain rfl : number = number' := toString_nat_injective hnumber
  obtain rfl : digest = digest' := HexDigest.text_injective hdigest
  obtain rfl : decision = decision' := Decision.value_injective hdecision
  obtain rfl : reviewer = reviewer' := reviewer_injective hreviewer
  obtain rfl : time = time' := AwareDatetime.isoformat_injective htime
  rfl

-- ============================================================== the records

/-- The text a record of these fields is signed with. -/
def DecisionRecord.preimage (record : DecisionRecord) : String :=
  signaturePreimage
    { versionId := record.versionId
      versionNumber := record.versionNumber
      payloadSha256 := record.payloadSha256 }
    record.decision record.reviewerIdentityId record.decidedAt.isoformat

/-- The columns of a version as the database holds them. -/
structure VersionRecord.Stored (version : VersionRecord) : Prop where
  id : ∃ u : Uuid, version.id = u.str
  payloadSha256 : ∃ digest : HexDigest, version.payloadSha256 = digest.text

/-- `str(actor) if actor else None`. -/
def IsActor (actor : Option String) : Prop :=
  ∃ reviewer : Option Uuid, actor = reviewer.map Uuid.str

/-- A time in UTC, with its offset. -/
def utc (t : Instant) : AwareDatetime where
  date := t.date
  hour := t.hour
  minute := t.minute
  second := t.second
  microsecond := t.microsecond
  offset := 0
  valid := t.valid
  offset_valid := AwareDatetime.utc_offset_valid

theorem isoformat_utc (t : Instant) : (utc t).isoformat = t.isoformat := by
  have hoffset : AwareDatetime.offsetText 0 = "+00:00" := by decide
  have hfraction : AwareDatetime.fractionText (utc t).microsecond
      = if t.microsecond = 0 then "" else "." ++ Date.padded 6 t.microsecond := rfl
  unfold AwareDatetime.isoformat Instant.isoformat
  rw [hfraction]
  simp only [utc, hoffset]

theorem utc_injective : Function.Injective utc := by
  intro t t' h
  cases t
  cases t'
  cases h
  rfl

section Records

variable {sha256 : String → String} {log : ReviewTable} {event : DecisionEvent}
variable {version : VersionRecord} {record : DecisionRecord}

/-- The service builds its records one way. -/
theorem decisionRecord_signed
    (h : decisionRecord sha256 log event version = .ok record) :
    ∃ decision comments blockers accepts,
      record = signedRecord sha256 version.facts decision
        event.request.actorIdentityId comments blockers accepts event.now := by
  unfold decisionRecord at h
  dsimp only at h
  split at h
  · obtain ⟨u, -, h⟩ := bind_eq_ok.mp h
    cases h
    exact ⟨_, _, _, _, rfl⟩
  · split at h
    · rw [liftApproval_eq_ok] at h
      obtain ⟨u, -, h⟩ := bind_eq_ok.mp h
      dsimp only at h
      split at h
      · cases h
      · split at h
        · cases h
        · cases h
          exact ⟨_, _, _, _, rfl⟩
    · split at h
      · rw [liftApproval_eq_ok] at h
        obtain ⟨u, -, h⟩ := bind_eq_ok.mp h
        cases h
        exact ⟨_, _, _, _, rfl⟩
      · split at h
        · rw [liftApproval_eq_ok] at h
          obtain ⟨u, -, h⟩ := bind_eq_ok.mp h
          cases h
          exact ⟨_, _, _, _, rfl⟩
        · cases h

/-- What the service signs is made of the fields of the record. -/
theorem exists_input (hversion : version.Stored)
    (hactor : IsActor event.request.actorIdentityId)
    (h : decisionRecord sha256 log event version = .ok record) :
    ∃ input : SignatureInput, record.preimage = input.preimage
      ∧ record.versionId = input.versionId.str
      ∧ record.versionNumber = input.versionNumber
      ∧ record.payloadSha256 = input.payloadSha256.text
      ∧ record.decision = input.decision
      ∧ record.reviewerIdentityId = input.reviewerIdentityId.map Uuid.str
      ∧ utc record.decidedAt = input.decidedAt := by
  obtain ⟨id, hid⟩ := hversion.id
  obtain ⟨digest, hdigest⟩ := hversion.payloadSha256
  obtain ⟨reviewer, hreviewer⟩ := hactor
  obtain ⟨decision, comments, blockers, accepts, rfl⟩ := decisionRecord_signed h
  refine ⟨⟨id, version.versionNumber, digest, decision, reviewer, utc event.now⟩,
    ?_, hid, rfl, hdigest, rfl, hreviewer, rfl⟩
  unfold DecisionRecord.preimage SignatureInput.preimage
  simp only [signedRecord, VersionRecord.facts, hid, hdigest, hreviewer,
    isoformat_utc]

end Records

/-- The digested text determines every field that went into it; and what the
service signs is that text of the record's own fields, so that records with
one text agree in all of them. -/
theorem signature_determines :
    Function.Injective SignatureInput.preimage
    ∧ ∀ (sha256 : String → String) (log log' : ReviewTable)
        (event event' : DecisionEvent) (version version' : VersionRecord)
        (record record' : DecisionRecord),
      version.Stored → version'.Stored →
      IsActor event.request.actorIdentityId →
      IsActor event'.request.actorIdentityId →
      decisionRecord sha256 log event version = .ok record →
      decisionRecord sha256 log' event' version' = .ok record' →
      record.decisionSignature = sha256 record.preimage
        ∧ (record.preimage = record'.preimage →
          record.versionId = record'.versionId
            ∧ record.versionNumber = record'.versionNumber
            ∧ record.payloadSha256 = record'.payloadSha256
            ∧ record.decision = record'.decision
            ∧ record.reviewerIdentityId = record'.reviewerIdentityId
            ∧ record.decidedAt = record'.decidedAt) := by
  refine ⟨preimage_injective, ?_⟩
  intro sha256 log log' event event' version version' record record' hversion
    hversion' hactor hactor' h h'
  constructor
  · obtain ⟨decision, comments, blockers, accepts, rfl⟩ := decisionRecord_signed h
    rfl
  · intro hsame
    obtain ⟨input, htext, hid, hnumber, hdigest, hdecision, hreviewer, htime⟩ :=
      exists_input hversion hactor h
    obtain ⟨input', htext', hid', hnumber', hdigest', hdecision', hreviewer',
      htime'⟩ := exists_input hversion' hactor' h'
    have heq : input = input' := by
      apply preimage_injective
      rw [← htext, hsame, htext']
    subst heq
    refine ⟨hid.trans hid'.symm, hnumber.trans hnumber'.symm,
      hdigest.trans hdigest'.symm, hdecision.trans hdecision'.symm,
      hreviewer.trans hreviewer'.symm, ?_⟩
    exact utc_injective (htime.trans htime'.symm)

def sampleSigned : VersionRecord where
  id := "00000000-0000-0000-0000-000000000001"
  organizationId := "00000000-0000-0000-0000-00000000000a"
  caseId := "00000000-0000-0000-0000-00000000000b"
  versionNumber := 1
  payloadSha256 :=
    "00000000000000000000000000000000000000000000000000000000000000ff"
  blockers := []

def sampleSubmission (actor : Option String) : DecisionEvent where
  request :=
    { organizationId := sampleSigned.organizationId, caseId := sampleSigned.caseId
      versionNumber := 1, actorIdentityId := actor, op := .submit }
  now := .ofNumbers (.ofNumbers 2026 10 4 (.refl true)) 9 0 0 0 (.refl true)
  createdAt := .ofNumbers (.ofNumbers 2026 10 4 (.refl true)) 9 0 0 0 (.refl true)
  commits := true

/-- Submitted by nobody and by an identity, with the text for its digest. -/
theorem signature_determines_submitter :
    ∃ record record',
      decisionRecord id [] (sampleSubmission none) sampleSigned = .ok record
        ∧ decisionRecord id []
            (sampleSubmission (some "00000000-0000-0000-0000-000000000002"))
            sampleSigned = .ok record'
        ∧ record.preimage ≠ record'.preimage := by
  have hstored : sampleSigned.Stored :=
    ⟨⟨⟨1, by decide⟩, by decide⟩, ⟨⟨sampleSigned.payloadSha256, by decide⟩, rfl⟩⟩
  have hactor : IsActor (some "00000000-0000-0000-0000-000000000002") :=
    ⟨some ⟨2, by decide⟩, by decide⟩
  refine ⟨_, _, rfl, rfl, fun heq => ?_⟩
  have hfields := (signature_determines.2 id [] [] (sampleSubmission none)
    (sampleSubmission (some "00000000-0000-0000-0000-000000000002"))
    sampleSigned sampleSigned _ _ hstored hstored ⟨none, rfl⟩ hactor rfl rfl).2 heq
  exact absurd hfields.2.2.2.2.1 (by simp [generateSubmissionRecord, signedRecord,
    sampleSubmission])

end PatentEvidence.Assessment
