/-
What the frozen input profiles leave out.

A snapshot keeps every priority claim whole, so two inputs with one
snapshot and a listed claim verify alike (`verifyPriority_eq_of_claims`).
It does not keep the single priority date that stands in when no claim is
listed, and of a document not the date it was published, which the date
gate reads. So two inputs with one snapshot are treated alike exactly when
the shorthands are alike (`SubjectsAlike`) and, for the last document of
each id, the publication dates fall on the same side of the document's
earliest reference date (`DocumentsAlike`).

# Sections

- claims that are the same;
- the shorthand;
- documents;
- the snapshot.
-/
import Mathlib.Data.List.Dedup
import PatentEvidence.Assessment.Proofs.Reference
import PatentEvidence.Assessment.Snapshot

namespace PatentEvidence.Assessment

open Grouping Keyed

-- ================================================ claims that are the same

/-- The same claim; what it covers is a set. -/
structure SameClaim (c d : PriorityClaim) : Prop where
  claimId : c.claimId = d.claimId
  priorityDate : c.priorityDate = d.priorityDate
  firstApplication : c.firstApplication = d.firstApplication
  sameSubject : c.sameSubject = d.sameSubject
  proofVerified : c.proofVerified = d.proofVerified
  covers : ∀ code, code ∈ c.covers ↔ code ∈ d.covers

theorem mem_sortedSet {codes : List String} {code : String} :
    code ∈ sortedSet codes ↔ code ∈ codes := by
  rw [sortedSet, List.mem_insertionSort, List.mem_dedup]

theorem iso_injective : Function.Injective iso :=
  Option.map_injective Date.isoformat_injective

/-- A claim is read back from its profile. -/
theorem sameClaim_of_toDict {c d : PriorityClaim}
    (h : priorityClaimToDict c = priorityClaimToDict d) : SameClaim c d where
  claimId := congrArg PriorityClaimProfile.claimId h
  priorityDate :=
    Option.some.inj (iso_injective (congrArg PriorityClaimProfile.priorityDate h))
  firstApplication := congrArg PriorityClaimProfile.firstApplication h
  sameSubject := congrArg PriorityClaimProfile.sameSubject h
  proofVerified := congrArg PriorityClaimProfile.proofVerified h
  covers code := by
    have hcovers : sortedSet c.covers = sortedSet d.covers :=
      congrArg PriorityClaimProfile.covers h
    rw [← mem_sortedSet, hcovers, mem_sortedSet]

theorem claimVerdict_same {c d : PriorityClaim} (h : SameClaim c d)
    (filingDate : Date) (termMonths : Nat) :
    claimVerdict filingDate termMonths c = claimVerdict filingDate termMonths d := by
  rw [claimVerdict, claimVerdict, h.priorityDate, h.firstApplication,
    h.sameSubject]

/-- The same tally; the dates are asked by code only. -/
structure SameTally (t u : PriorityTally) : Prop where
  valid : t.valid = u.valid
  invalid : t.invalid = u.invalid
  flags : t.flags = u.flags
  covered : ∀ code, t.covered.get? code = u.covered.get? code

theorem mem_coveredCodes_same {c d : PriorityClaim} (h : SameClaim c d)
    (featureCodes : List String) (code : String) :
    code ∈ coveredCodes featureCodes c ↔ code ∈ coveredCodes featureCodes d := by
  have hempty : c.covers = [] ↔ d.covers = [] := by
    rw [List.eq_nil_iff_forall_not_mem, List.eq_nil_iff_forall_not_mem]
    exact forall_congr' fun code => not_congr (h.covers code)
  by_cases hc : c.covers = []
  · rw [coveredCodes, coveredCodes, if_neg (not_not.mpr hc),
      if_neg (not_not.mpr (hempty.mp hc))]
  · rw [coveredCodes, coveredCodes, if_pos hc, if_pos fun hd => hc (hempty.mpr hd)]
    exact h.covers code

theorem tallied_same {c d : PriorityClaim} (h : SameClaim c d)
    {t u : PriorityTally} (ht : SameTally t u) (featureCodes : List String)
    (verdict : Option String) :
    SameTally (tallied featureCodes t c verdict)
      (tallied featureCodes u d verdict) := by
  cases verdict with
  | some reason =>
      refine ⟨ht.valid, ?_, ht.flags, ht.covered⟩
      simp only [tallied, rejectClaim, ht.invalid, h.claimId]
  | none =>
      refine ⟨?_, ht.invalid, ?_, fun code => ?_⟩
      · simp only [tallied, acceptClaim, ht.valid, h.claimId]
      · simp only [tallied, acceptClaim, ht.flags, h.claimId, h.proofVerified]
      · simp only [tallied, acceptClaim, get?_foldl_coverCode, h.priorityDate,
          mem_coveredCodes_same h, ht.covered]

/-- One claim after the other, tallies stay the same. -/
theorem foldlM_same {filingDate : Date} {termMonths : Nat}
    {featureCodes : List String} {cs ds : List PriorityClaim}
    (h : List.Forall₂ SameClaim cs ds) {t u : PriorityTally}
    (ht : SameTally t u) :
    Option.Rel SameTally
      (cs.foldlM (verifyClaim filingDate termMonths featureCodes) t)
      (ds.foldlM (verifyClaim filingDate termMonths featureCodes) u) := by
  induction h generalizing t u with
  | nil => exact .some ht
  | @cons c d cs ds hcd _ ih =>
      rw [List.foldlM_cons, List.foldlM_cons, verifyClaim_eq, verifyClaim_eq,
        claimVerdict_same hcd]
      cases claimVerdict filingDate termMonths d with
      | none => exact .none
      | some verdict => exact ih (tallied_same hcd ht featureCodes verdict)

theorem tallyOf_same {cs ds : List PriorityClaim}
    (h : List.Forall₂ SameClaim cs ds) (filingDate : Date) (termMonths : Nat)
    (featureCodes : List String) :
    Option.Rel SameTally (tallyOf filingDate termMonths featureCodes cs)
      (tallyOf filingDate termMonths featureCodes ds) :=
  foldlM_same h ⟨rfl, rfl, rfl, fun _ => rfl⟩

/-- The earliest date of a valid claim does not ask what claims cover. -/
theorem earliestValid_same {valid : List String} {cs ds : List PriorityClaim}
    (h : List.Forall₂ SameClaim cs ds) :
    earliestValid valid cs = earliestValid valid ds := by
  rw [earliestValid, earliestValid]
  generalize (none : Option Date) = earliest
  induction h generalizing earliest with
  | nil => rfl
  | cons hcd _ ih =>
      rw [List.foldl_cons, List.foldl_cons, hcd.claimId, hcd.priorityDate]
      exact ih _

theorem verificationOf_same {t u : PriorityTally} (h : SameTally t u)
    (filingDate : Date) (featureCodes : List String) (earliest : Option Date) :
    verificationOf filingDate featureCodes t earliest
      = verificationOf filingDate featureCodes u earliest := by
  have hdates : featureDate filingDate t.covered
      = featureDate filingDate u.covered := by
    funext code
    rw [featureDate, featureDate, Dict.getD, Dict.getD, h.covered]
  simp only [verificationOf, h.valid, h.invalid, h.flags, h.covered, hdates]

/-- Subjects with the same claims verify alike. -/
theorem verifyPriority_eq_of_claims {s t : SubjectApplication}
    (hfiling : s.filingDate = t.filingDate)
    (htype : s.applicationType = t.applicationType)
    (hclaims : List.Forall₂ SameClaim s.claims t.claims)
    (featureCodes : List String) :
    verifyPriority s featureCodes = verifyPriority t featureCodes := by
  have htallies := tallyOf_same hclaims t.filingDate
    (priorityTermMonths t.applicationType) featureCodes
  rw [verifyPriority_eq, verifyPriority_eq, hfiling, htype]
  generalize tallyOf t.filingDate (priorityTermMonths t.applicationType)
    featureCodes s.claims = a at htallies ⊢
  generalize tallyOf t.filingDate (priorityTermMonths t.applicationType)
    featureCodes t.claims = b at htallies ⊢
  cases htallies with
  | none => rw [Option.map_none, Option.map_none]
  | some hsame =>
      rw [Option.map_some, Option.map_some, earliestValid_same hclaims,
        hsame.valid, verificationOf_same hsame]

-- ========================================================= the shorthand

/-- The claim the single priority date stands for. -/
def shorthandClaim (priorityDate : Date) : PriorityClaim :=
  { claimId := "P1", priorityDate, firstApplication := true
    proofVerified := true }

def lateReason : String := "优先权日晚于本申请申请日"

def termReason (termMonths : Nat) (deadline : Date) : String :=
  s!"超出 {termMonths} 个月优先权期限（届满日 " ++ deadline.isoformat ++ "）"

theorem claimVerdict_shorthand (filingDate : Date) (termMonths : Nat)
    (date : Date) :
    claimVerdict filingDate termMonths (shorthandClaim date)
      = (addMonths date termMonths).map fun deadline =>
        if filingDate < date then some lateReason
        else if deadline < filingDate then some (termReason termMonths deadline)
        else none := by
  rw [claimVerdict, shorthandClaim]
  cases addMonths date termMonths with
  | none => rfl
  | some deadline =>
      by_cases hlate : filingDate < date
      · simp [hlate, lateReason]
      · by_cases hterm : deadline < filingDate
        · simp [hlate, hterm, termReason]
        · simp [hlate, hterm]

theorem termReason_injective (termMonths : Nat) :
    Function.Injective (termReason termMonths) := by
  intro a b h
  have hlists := congrArg String.toList h
  simp only [termReason, String.toList_append] at hlists
  have hdates := List.append_cancel_left (List.append_cancel_right hlists)
  exact Date.isoformat_injective (String.toList_injective hdates)

theorem lateReason_ne_termReason (termMonths : Nat) (deadline : Date) :
    lateReason ≠ termReason termMonths deadline := by
  intro h
  have hprefix : (toString "超出 " : String) = "超出 " := rfl
  have hheads := congrArg (fun text => text.toList.head?) h
  simp [lateReason, termReason, hprefix] at hheads

/-- Neither date gives priority, and for the same reason. -/
def NeitherHolds (filingDate : Date) (termMonths : Nat) (d e : Date) : Prop :=
  (addMonths d termMonths = none ∧ addMonths e termMonths = none)
    ∨ ∃ x y, addMonths d termMonths = some x ∧ addMonths e termMonths = some y
      ∧ ((filingDate < d ∧ filingDate < e)
        ∨ (d ≤ filingDate ∧ e ≤ filingDate ∧ x = y ∧ x < filingDate))

/-- What verification says of a date for which it says nothing good. -/
theorem neitherHolds_iff (filingDate : Date) (termMonths : Nat) (d e : Date) :
    NeitherHolds filingDate termMonths d e
      ↔ claimVerdict filingDate termMonths (shorthandClaim d)
          = claimVerdict filingDate termMonths (shorthandClaim e)
        ∧ claimVerdict filingDate termMonths (shorthandClaim d) ≠ some none := by
  rw [claimVerdict_shorthand, claimVerdict_shorthand, NeitherHolds]
  have hreasons := lateReason_ne_termReason termMonths
  cases addMonths d termMonths with
  | none => cases addMonths e termMonths <;> simp
  | some x =>
      cases addMonths e termMonths with
      | none => simp
      | some y =>
          simp only [reduceCtorEq, and_self, false_or, Option.some.injEq,
            exists_and_left, exists_eq_left', Option.map_some, ne_eq]
          by_cases hd : filingDate < d
          · by_cases he : filingDate < e
            · simp [hd, he]
            · by_cases hy : y < filingDate
              · simp [hd, he, hy, hreasons y, not_le.mpr hd]
              · simp [hd, he, hy, not_le.mpr hd]
          · by_cases hx : x < filingDate
            · by_cases he : filingDate < e
              · simp [hd, hx, he, (hreasons x).symm, not_le.mpr he]
              · by_cases hy : y < filingDate
                · simp [hd, hx, he, hy, not_lt.mp hd, not_lt.mp he,
                    (termReason_injective termMonths).eq_iff]
                · have hne : x ≠ y := fun h => hy (h ▸ hx)
                  simp [hd, hx, he, hy, hne]
            · simp [hd, hx]

/-- Shorthands that verify alike. -/
def SameShorthand (filingDate : Date) (termMonths : Nat)
    (p q : Option Date) : Prop :=
  p = q ∨ ∃ d e, p = some d ∧ q = some e
    ∧ NeitherHolds filingDate termMonths d e

/-- What `verify_priority` answers of a subject with one claim. -/
def singleVerification (filingDate : Date) (featureCodes : List String)
    (claim : PriorityClaim) (verdict : Option String) : PriorityVerification :=
  let tally := tallied featureCodes {} claim verdict
  verificationOf filingDate featureCodes tally (earliestValid tally.valid [claim])

theorem tallyOf_single (filingDate : Date) (termMonths : Nat)
    (featureCodes : List String) (claim : PriorityClaim) :
    tallyOf filingDate termMonths featureCodes [claim]
      = (claimVerdict filingDate termMonths claim).map
        (tallied featureCodes {} claim) := by
  rw [tallyOf, List.foldlM_cons, verifyClaim_eq]
  cases claimVerdict filingDate termMonths claim <;> rfl

/-- The claims the shorthand stands for. -/
theorem claims_of_unlisted {subject : SubjectApplication}
    (h : subject.priorityClaims = []) :
    subject.claims = (subject.priorityDate.map shorthandClaim).toList := by
  rw [SubjectApplication.claims, if_neg (not_not.mpr h)]
  cases subject.priorityDate <;> rfl

/-- Without listed claims, the shorthand decides. -/
theorem verifyPriority_of_unlisted {subject : SubjectApplication}
    (h : subject.priorityClaims = []) (featureCodes : List String) :
    verifyPriority subject featureCodes
      = match subject.priorityDate with
        | none => some (verificationOf subject.filingDate featureCodes {} none)
        | some date =>
            (claimVerdict subject.filingDate
              (priorityTermMonths subject.applicationType)
              (shorthandClaim date)).map
              (singleVerification subject.filingDate featureCodes
                (shorthandClaim date)) := by
  rw [verifyPriority_eq, claims_of_unlisted h]
  cases subject.priorityDate with
  | none => rfl
  | some date =>
      rw [Option.map_some, Option.toList_some, tallyOf_single, Option.map_map]
      rfl

/-- A claim that does not hold leaves its reason, one that holds its id and
its date. -/
theorem singleVerification_reject (filingDate : Date)
    (featureCodes : List String) (date : Date) (reason : String) :
    singleVerification filingDate featureCodes (shorthandClaim date) (some reason)
      = verificationOf filingDate featureCodes
        { invalid := [{ claimId := "P1", reason }] } none := rfl

theorem singleVerification_accept (filingDate : Date)
    (featureCodes : List String) (date : Date) :
    (singleVerification filingDate featureCodes (shorthandClaim date)
        none).validClaims = ["P1"]
      ∧ (singleVerification filingDate featureCodes (shorthandClaim date)
        none).defaultReferenceDate = min date filingDate := by
  refine ⟨rfl, ?_⟩
  simp [singleVerification, verificationOf, tallied, acceptClaim, earliestValid,
    shorthandClaim]

/-- A shorthand that holds is no later than the filing date. -/
theorem le_of_claimVerdict {filingDate : Date} {termMonths : Nat} {date : Date}
    (h : claimVerdict filingDate termMonths (shorthandClaim date) = some none) :
    date ≤ filingDate := by
  rw [claimVerdict_shorthand] at h
  by_contra hlt
  cases hdeadline : addMonths date termMonths with
  | none => simp [hdeadline] at h
  | some deadline => simp [hdeadline, not_le.mp hlt] at h

/-- A claim leaves a trace, whether it holds or not. -/
theorem singleVerification_ne (filingDate : Date) (featureCodes : List String)
    (date : Date) (verdict : Option String) :
    singleVerification filingDate featureCodes (shorthandClaim date) verdict
      ≠ verificationOf filingDate featureCodes {} none := by
  intro h
  cases verdict with
  | some reason =>
      have hinvalid := congrArg PriorityVerification.invalidClaims h
      cases hinvalid
  | none =>
      have hvalid := congrArg PriorityVerification.validClaims h
      cases hvalid

/-- Two single claims verify alike exactly when they are of one date or
neither holds, for one reason. -/
theorem map_singleVerification_eq_iff (filingDate : Date) (termMonths : Nat)
    (featureCodes : List String) (d e : Date) :
    (claimVerdict filingDate termMonths (shorthandClaim d)).map
          (singleVerification filingDate featureCodes (shorthandClaim d))
        = (claimVerdict filingDate termMonths (shorthandClaim e)).map
          (singleVerification filingDate featureCodes (shorthandClaim e))
      ↔ d = e ∨ NeitherHolds filingDate termMonths d e := by
  rw [neitherHolds_iff]
  constructor
  · intro h
    cases hd : claimVerdict filingDate termMonths (shorthandClaim d) with
    | none =>
        rw [hd, Option.map_none, eq_comm, Option.map_eq_none_iff] at h
        exact .inr ⟨h.symm, by simp⟩
    | some verdict =>
        rw [hd, Option.map_some, eq_comm, Option.map_eq_some_iff] at h
        obtain ⟨verdict', he, h⟩ := h
        cases verdict with
        | some reason =>
            cases verdict' with
            | some reason' =>
                have hinvalid := congrArg PriorityVerification.invalidClaims h
                cases hinvalid
                exact .inr ⟨he.symm, by simp⟩
            | none =>
                have hvalid := congrArg PriorityVerification.validClaims h
                cases hvalid
        | none =>
            cases verdict' with
            | some reason' =>
                have hvalid := congrArg PriorityVerification.validClaims h
                cases hvalid
            | none =>
                have hdates :=
                  congrArg PriorityVerification.defaultReferenceDate h
                rw [(singleVerification_accept ..).2,
                  (singleVerification_accept ..).2,
                  min_eq_left (le_of_claimVerdict hd),
                  min_eq_left (le_of_claimVerdict he)] at hdates
                exact .inl hdates.symm
  · rintro (rfl | ⟨hverdicts, hnot⟩)
    · rfl
    · rw [← hverdicts]
      cases hd : claimVerdict filingDate termMonths (shorthandClaim d) with
      | none => rw [Option.map_none, Option.map_none]
      | some verdict =>
          cases verdict with
          | some reason =>
              rw [Option.map_some, Option.map_some, singleVerification_reject,
                singleVerification_reject]
          | none => exact absurd hd hnot

/-- Two subjects without listed claims verify alike exactly when their
shorthands are alike. -/
theorem verifyPriority_eq_iff_sameShorthand {s t : SubjectApplication}
    (hfiling : s.filingDate = t.filingDate)
    (htype : s.applicationType = t.applicationType)
    (hs : s.priorityClaims = []) (ht : t.priorityClaims = [])
    (featureCodes : List String) :
    verifyPriority s featureCodes = verifyPriority t featureCodes
      ↔ SameShorthand s.filingDate (priorityTermMonths s.applicationType)
        s.priorityDate t.priorityDate := by
  rw [verifyPriority_of_unlisted hs, verifyPriority_of_unlisted ht, ← hfiling,
    ← htype]
  have hne (date : Date) :
      (claimVerdict s.filingDate (priorityTermMonths s.applicationType)
          (shorthandClaim date)).map
          (singleVerification s.filingDate featureCodes (shorthandClaim date))
        ≠ some (verificationOf s.filingDate featureCodes {} none) := by
    intro h
    obtain ⟨verdict, -, h⟩ := Option.map_eq_some_iff.mp h
    exact singleVerification_ne _ _ _ _ h
  cases s.priorityDate with
  | none =>
      cases t.priorityDate with
      | none => simp [SameShorthand]
      | some e => simp [SameShorthand, (hne e).symm]
  | some d =>
      cases t.priorityDate with
      | none => simp [SameShorthand, hne d]
      | some e =>
          dsimp only
          rw [map_singleVerification_eq_iff]
          simp [SameShorthand]

-- ============================================================= documents

/-- Documents of one id with the same profile. -/
structure SameProfile (d e : CandidateDocument) : Prop where
  docId : d.docId = e.docId
  filingDate : d.filingDate = e.filingDate
  priorityDate : d.priorityDate = e.priorityDate
  filedInChina : d.filedInChina = e.filedInChina

theorem sameProfile_of_candidateProfile {d e : CandidateDocument}
    (hid : d.docId = e.docId) (h : candidateProfile d = candidateProfile e) :
    SameProfile d e where
  docId := hid
  filingDate := iso_injective (congrArg CandidateProfile.filingDate h)
  priorityDate := iso_injective (congrArg CandidateProfile.priorityDate h)
  filedInChina := congrArg CandidateProfile.filedInChina h

/-- The date gate cannot tell two publication dates apart. -/
def SameGate (d e : CandidateDocument) (referenceDate : Date) : Prop :=
  d.effectiveFilingDate = none
    ∨ (d.publicationDate = none ∧ e.publicationDate = none)
    ∨ ∃ p q, d.publicationDate = some p ∧ e.publicationDate = some q
      ∧ (p < referenceDate ↔ q < referenceDate)

/-- Documents with the same profile have one kind at a date exactly when
the gate cannot tell their publication dates apart. -/
theorem kindAt_eq_iff {d e : CandidateDocument} (h : SameProfile d e)
    (referenceDate : Date) :
    kindAt d referenceDate = kindAt e referenceDate
      ↔ SameGate d e referenceDate := by
  have hfiling : e.effectiveFilingDate = d.effectiveFilingDate := by
    rw [CandidateDocument.effectiveFilingDate,
      CandidateDocument.effectiveFilingDate, h.filingDate, h.priorityDate]
  rw [kindAt, kindAt, SameGate, hfiling, ← h.filedInChina]
  cases d.effectiveFilingDate with
  | none => cases d.publicationDate <;> cases e.publicationDate <;> simp
  | some filed =>
      cases d.publicationDate with
      | none =>
          cases e.publicationDate with
          | none => simp
          | some q =>
              dsimp only
              split
              · simp
              · split <;> simp
      | some p =>
          cases e.publicationDate with
          | none =>
              dsimp only
              split
              · simp
              · split <;> simp
          | some q =>
              dsimp only
              by_cases hp : p < referenceDate
              · by_cases hq : q < referenceDate
                · simp [hp, hq]
                · rw [if_pos hp, if_neg hq]
                  split <;> simp [hp, hq]
              · by_cases hq : q < referenceDate
                · rw [if_neg hp, if_pos hq]
                  split <;> simp [hp, hq]
                · rw [if_neg hp, if_neg hq]
                  exact ⟨fun _ => .inr (.inr ⟨p, q, rfl, rfl, iff_of_false hp hq⟩),
                    fun _ => rfl⟩

-- ========================================================== the snapshot

/-- Priority is verified alike, whatever the features, and the date gate
gives every document the same kind. -/
structure SameOutcome (x y : AssessmentInput) : Prop where
  priority : ∀ codes, verifyPriority x.subject codes = verifyPriority y.subject codes
  kinds : ∀ v w, verifyPriority x.subject (sortedFeatureCodes x.rows) = some v →
    verifyPriority y.subject (sortedFeatureCodes y.rows) = some w → ∀ docId,
    (classifyAllReferences x.documents x.subject (some v) x.rows).get? docId
      = (classifyAllReferences y.documents y.subject (some w) y.rows).get? docId

/-- Claims are listed, or the dates that stand in for them are alike. -/
def SubjectsAlike (s t : SubjectApplication) : Prop :=
  s.priorityClaims ≠ [] ∨ SameShorthand s.filingDate
    (priorityTermMonths s.applicationType) s.priorityDate t.priorityDate

/-- The last documents of each id are published on the same side of their
date, or one of them has no filing date to be held against. -/
def DocumentsAlike (x y : AssessmentInput) : Prop :=
  x.subject.Dated → ∀ docId d e,
    (lastByKey CandidateDocument.docId x.documents).get? docId = some d →
    (lastByKey CandidateDocument.docId y.documents).get? docId = some e →
    SameGate d e (x.subject.gateDate x.rows docId)

section Snapshots

variable {x y : AssessmentInput}

theorem sameClaims_of_snapshot
    (h : inputProfileSnapshot x = inputProfileSnapshot y) :
    List.Forall₂ SameClaim x.subject.priorityClaims y.subject.priorityClaims := by
  have hclaims : x.subject.priorityClaims.map priorityClaimToDict
      = y.subject.priorityClaims.map priorityClaimToDict :=
    congrArg (fun s => s.applicationProfile.priorityClaims) h
  exact (forall₂_of_map_eq hclaims).imp fun _ _ => sameClaim_of_toDict

theorem sameProfiles_of_snapshot
    (hids : x.documents.map CandidateDocument.docId
      = y.documents.map CandidateDocument.docId)
    (h : inputProfileSnapshot x = inputProfileSnapshot y) :
    List.Forall₂ SameProfile x.documents y.documents := by
  have hprofiles : x.documents.map candidateProfile
      = y.documents.map candidateProfile := congrArg InputSnapshot.candidateProfiles h
  obtain ⟨hlength, hids⟩ := List.forall₂_iff_zip.mp (forall₂_of_map_eq hids)
  obtain ⟨-, hprofiles⟩ := List.forall₂_iff_zip.mp (forall₂_of_map_eq hprofiles)
  exact List.forall₂_iff_zip.mpr ⟨hlength, fun hzip =>
    sameProfile_of_candidateProfile (hids hzip) (hprofiles hzip)⟩

/-- What is frozen of the application. -/
theorem sameApplication_of_snapshot
    (h : inputProfileSnapshot x = inputProfileSnapshot y) :
    x.subject.filingDate = y.subject.filingDate
      ∧ x.subject.applicationType = y.subject.applicationType :=
  ⟨Option.some.inj (iso_injective
      (congrArg (fun s => s.applicationProfile.filingDate) h)),
    congrArg (fun s => s.applicationProfile.applicationType) h⟩

/-- Priority is verified alike exactly when the subjects are alike. -/
theorem same_priority_iff (h : inputProfileSnapshot x = inputProfileSnapshot y)
    (codes : List String) :
    verifyPriority x.subject codes = verifyPriority y.subject codes
      ↔ SubjectsAlike x.subject y.subject := by
  obtain ⟨hfiling, htype⟩ := sameApplication_of_snapshot h
  have hclaims := sameClaims_of_snapshot h
  by_cases hx : x.subject.priorityClaims = []
  · have hy : y.subject.priorityClaims = [] := by
      rw [hx] at hclaims
      exact List.forall₂_nil_left_iff.mp hclaims
    rw [verifyPriority_eq_iff_sameShorthand hfiling htype hx hy, SubjectsAlike,
      or_iff_right (not_not.mpr hx)]
  · have hy : y.subject.priorityClaims ≠ [] := by
      intro hy
      rw [hy] at hclaims
      exact hx (List.forall₂_nil_right_iff.mp hclaims)
    refine iff_of_true (verifyPriority_eq_of_claims hfiling htype ?_ codes)
      (.inl hx)
    rw [SubjectApplication.claims, SubjectApplication.claims, if_pos hx,
      if_pos hy]
    exact hclaims

/-- Once priority is verified alike, the kinds are the same exactly when
the documents are alike. -/
theorem same_kinds_iff (hrows : x.rows = y.rows)
    (hids : x.documents.map CandidateDocument.docId
      = y.documents.map CandidateDocument.docId)
    (h : inputProfileSnapshot x = inputProfileSnapshot y)
    {v : PriorityVerification}
    (hx : verifyPriority x.subject (sortedFeatureCodes x.rows) = some v)
    (hy : verifyPriority y.subject (sortedFeatureCodes y.rows) = some v) :
    (∀ docId,
      (classifyAllReferences x.documents x.subject (some v) x.rows).get? docId
        = (classifyAllReferences y.documents y.subject (some v) y.rows).get? docId)
      ↔ DocumentsAlike x y := by
  have hdated : x.subject.Dated :=
    (verifyPriority_ne_none_iff _).mp (Option.ne_none_iff_exists'.mpr ⟨v, hx⟩)
  rw [DocumentsAlike, imp_iff_right hdated]
  refine forall_congr' fun docId => ?_
  have hdate : y.subject.gateDate y.rows docId
      = x.subject.gateDate x.rows docId := by
    rw [← earliestReference_eq hx, ← earliestReference_eq hy, hrows]
  rw [get?_classifyAllReferences hx, get?_classifyAllReferences hy, hdate]
  have hlast := rel_get?_lastByKey CandidateDocument.docId
    (fun _ _ hsame => hsame.docId) (sameProfiles_of_snapshot hids h) docId
  generalize (lastByKey CandidateDocument.docId x.documents).get? docId = a
    at hlast ⊢
  generalize (lastByKey CandidateDocument.docId y.documents).get? docId = b
    at hlast ⊢
  cases hlast with
  | none => simp
  | some hsame =>
      rw [Option.map_some, Option.map_some, Option.some.injEq,
        kindAt_eq_iff hsame]
      simp

/-- Inputs with one snapshot, the same rows and the same documents by id
are treated alike exactly if what the snapshot leaves out is. -/
theorem snapshot_faithful_iff (hrows : x.rows = y.rows)
    (hids : x.documents.map CandidateDocument.docId
      = y.documents.map CandidateDocument.docId)
    (hsnapshot : inputProfileSnapshot x = inputProfileSnapshot y) :
    SameOutcome x y
      ↔ SubjectsAlike x.subject y.subject ∧ DocumentsAlike x y := by
  have hverify := same_priority_iff hsnapshot (sortedFeatureCodes x.rows)
  constructor
  · rintro ⟨hpriority, hkinds⟩
    refine ⟨hverify.mp (hpriority _), fun hdated => ?_⟩
    obtain ⟨v, hx⟩ := Option.ne_none_iff_exists'.mp
      ((verifyPriority_ne_none_iff (sortedFeatureCodes x.rows)).mpr hdated)
    have hy : verifyPriority y.subject (sortedFeatureCodes y.rows) = some v := by
      rw [← hrows, ← hpriority, hx]
    exact (same_kinds_iff hrows hids hsnapshot hx hy).mp (hkinds v v hx hy)
      hdated
  · rintro ⟨hsubjects, hdocuments⟩
    refine ⟨fun codes => (same_priority_iff hsnapshot codes).mpr hsubjects,
      fun v w hx hy => ?_⟩
    obtain rfl : v = w := by
      rw [← hrows, ← hverify.mpr hsubjects, hx] at hy
      exact Option.some.inj hy
    exact (same_kinds_iff hrows hids hsnapshot hx hy).mpr hdocuments

end Snapshots

/-- An application of 2025 and one document, filed a year before it. -/
def publishedInput (publicationDate : Date) : AssessmentInput where
  subject := { filingDate := .ofNumbers 2025 6 1 (.refl true) }
  documents := [{
    docId := "D1", publicationNumber := "CN1A", title := ""
    publicationDate := some publicationDate
    filingDate := some (.ofNumbers 2024 5 1 (.refl true)) }]
  rows := []

theorem snapshot_faithful_on_published :
    SameOutcome (publishedInput ⟨2026, 1, 1, by decide⟩)
        (publishedInput ⟨2026, 2, 1, by decide⟩)
      ↔ SubjectsAlike (publishedInput ⟨2026, 1, 1, by decide⟩).subject
          (publishedInput ⟨2026, 2, 1, by decide⟩).subject
        ∧ DocumentsAlike (publishedInput ⟨2026, 1, 1, by decide⟩)
          (publishedInput ⟨2026, 2, 1, by decide⟩) :=
  snapshot_faithful_iff rfl rfl rfl

/-- A document published before the application, and the same document
published after it, leave one snapshot. -/
theorem not_forall_snapshot_faithful :
    ¬ ∀ x y : AssessmentInput, x.rows = y.rows →
      x.documents.map CandidateDocument.docId
        = y.documents.map CandidateDocument.docId →
      inputProfileSnapshot x = inputProfileSnapshot y → SameOutcome x y := by
  intro h
  have hsame := h (publishedInput ⟨2025, 1, 1, by decide⟩)
    (publishedInput ⟨2025, 10, 1, by decide⟩) rfl rfl rfl
  have hkinds := hsame.kinds _ _ rfl rfl "D1"
  revert hkinds
  decide

end PatentEvidence.Assessment
