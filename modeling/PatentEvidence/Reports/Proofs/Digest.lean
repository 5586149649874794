/-
The digests are taken over canonical text.

Three serializers feed a digest: the payload of an assessment version, the
payload of a sealed snapshot and a legal-status assessment. Each prints
with sorted keys, so each prints two payloads alike exactly when they are
the same JSON value (`Canonical`). What a JSONB column returns is the
payload written to it up to the order of entries, so a stored payload
verifies against its recorded digest, and a payload that is another value
has another preimage.

# Sections

- the three serializers;
- reading back.
-/
import PatentEvidence.Assessment.Records
import PatentEvidence.Lib.Fallible
import PatentEvidence.LegalStatus.Serialize
import PatentEvidence.Reports.Sealer

namespace PatentEvidence.Reports

open Assessment Json LegalStatus

variable {ν : Type _}

-- ================================================ the three serializers

/-- Sorting what is sorted changes nothing. -/
theorem canonical_canonical {v : Json ν} (hv : v.DistinctKeys) :
    v.canonical.canonical = v.canonical :=
  ((sameValue_canonical v).keeps hv).2.symm

variable [JsonNumber ν]

/-- A preimage that tells apart exactly what are different JSON values. -/
def Canonical (preimage : Json ν → String) : Prop :=
  ∀ v w : Json ν, v.DistinctKeys → w.DistinctKeys →
    (preimage v = preimage w ↔ SameValue v w)

theorem ofList_dumps_eq_iff {seps : Separators} {v w : Json ν}
    (hv : v.DistinctKeys) :
    String.ofList (dumps seps v) = String.ofList (dumps seps w)
      ↔ SameValue v w := by
  rw [String.ofList_inj, dumps_eq_iff seps hv]

theorem canonical_sealedJson : Canonical (sealedJson (ν := ν)) :=
  fun _ _ hv _ => ofList_dumps_eq_iff hv

theorem canonical_canonicalJson : Canonical (canonicalJson (ν := ν)) :=
  fun _ _ hv _ => ofList_dumps_eq_iff hv

/-- Canonicalizing before a sorted dump adds nothing to it. -/
theorem canonicalPayloadJson_eq {v : Json ν} (hv : v.DistinctKeys) :
    canonicalPayloadJson v = String.ofList (dumps compact v) := by
  rw [canonicalPayloadJson, canonicalValue, dumps_eq, dumps_eq,
    canonical_canonical hv]

theorem canonical_canonicalPayloadJson :
    Canonical (canonicalPayloadJson (ν := ν)) := by
  intro v w hv hw
  rw [canonicalPayloadJson_eq hv, canonicalPayloadJson_eq hw]
  exact ofList_dumps_eq_iff hv

-- ========================================================= reading back

omit [JsonNumber ν] in
/-- Reordering an object gives an object. -/
theorem sameValue_obj {entries : List (String × Json ν)} {w : Json ν}
    (h : SameValue (.obj entries) w) : ∃ entries', w = .obj entries' := by
  induction h with
  | refl => exact ⟨entries, rfl⟩
  | tail _ hstep ih =>
      obtain ⟨entries', rfl⟩ := ih
      cases hstep with
      | entries h => exact ⟨_, rfl⟩
      | value key before after h => exact ⟨_, rfl⟩

/-- A version read back has the preimage of the payload it was built of. -/
theorem preimage_rowToRecord {record : AssessmentVersionRecord ν}
    {entries : List (String × Json ν)} {stored : Json ν}
    (hdistinct : (Json.obj entries).DistinctKeys)
    (hstored : SameValue (.obj entries) stored) :
    canonicalPayloadJson (rowToRecord { record with payload := stored }).payload
      = canonicalPayloadJson (.obj entries) := by
  obtain ⟨entries', rfl⟩ := sameValue_obj hstored
  have hload : (rowToRecord { record with payload := .obj entries' }).payload
      = .obj entries' := orElse_obj entries'
  rw [hload, canonical_canonicalPayloadJson _ _ (hstored.keeps hdistinct).1
    hdistinct]
  exact hstored.symm

/-- The root a seal returns is the digest of the payload it returns. -/
theorem root_of_sealEvidence [Printable] {sha256 : String → String}
    {request : SealRequest ν} {payload : Json ν} {root : String}
    (h : sealEvidence sha256 request = .ok (payload, root)) :
    root = sha256 (sealedJson payload) := by
  obtain ⟨sealed, -, hpure⟩ := Fallible.bind_eq_ok.mp h
  obtain ⟨rfl, rfl⟩ := Prod.mk.inj (Fallible.pure_eq_ok.mp hpure)
  rfl

/-- A version built of a package, stored and read back, verifies against
its recorded digest. -/
def VersionsReverify (ν : Type _) [JsonNumber ν] : Prop :=
  ∀ (sha256 : String → String) (package : PackageDict ν)
    (context : RecordContext) (stored : Json ν),
    (Json.obj package.entries).DistinctKeys →
      SameValue (.obj package.entries) stored →
        let record := buildAssessmentVersionRecord sha256 package context
        assessmentPayloadSha256 sha256
          (rowToRecord { record with payload := stored }).payload
            = record.payloadSha256

/-- A sealed snapshot, stored and read back, verifies against its root. -/
def SnapshotsReverify (ν : Type _) [JsonNumber ν] [Printable] : Prop :=
  ∀ (sha256 : String → String) (request : SealRequest ν)
    (payload stored : Json ν) (root : String),
    sealEvidence sha256 request = .ok (payload, root) →
      payload.DistinctKeys → SameValue payload stored →
        sha256 (sealedJson stored) = root

/-- The three preimages are canonical, and what is stored verifies. -/
theorem digest_preimages_canonical [Printable] :
    Canonical (canonicalPayloadJson (ν := ν))
      ∧ Canonical (sealedJson (ν := ν))
      ∧ Canonical (canonicalJson (ν := ν))
      ∧ VersionsReverify ν
      ∧ SnapshotsReverify ν := by
  refine ⟨canonical_canonicalPayloadJson, canonical_sealedJson,
    canonical_canonicalJson, ?_, ?_⟩
  · intro sha256 package context stored hdistinct hstored
    exact congrArg sha256 (preimage_rowToRecord hdistinct hstored)
  · intro sha256 request payload stored root hseal hdistinct hstored
    rw [root_of_sealEvidence hseal]
    refine congrArg sha256 ?_
    exact (canonical_sealedJson _ _ (hstored.keeps hdistinct).1 hdistinct).mpr
      hstored.symm

end PatentEvidence.Reports
