/-
The payload of a version: what `AssessmentPackage.to_dict` and the
packages stored before it guarantee of the dictionary the difference of
two versions reads.

A section may be missing. Where it is there, it has the type the package
gives it: texts in lists of texts, records in lists of records, and no
dictionary inside has a key twice. A `VersionSide` carries this as a
proof, so comparing two of them cannot raise (`exists_diffOrdered`).
-/
import PatentEvidence.Assessment.Deliverable
import PatentEvidence.Assessment.Diff

namespace PatentEvidence.Assessment

open Json

variable {ν : Type}

/-- A list of texts, or missing. -/
def IsTexts (value : Json ν) : Prop :=
  value = .null ∨ ∃ texts : List String, value = .arr (texts.map .str)

/-- An object, or missing. -/
def IsSection (value : Json ν) : Prop := value = .null ∨ IsObject value

/-- A list of objects of one kind, or missing. -/
def IsRecordsOf (isRecord : Json ν → Prop) (value : Json ν) : Prop :=
  value = .null
    ∨ ∃ items, value = .arr items ∧ ∀ item ∈ items, isRecord item

/-- An object whose values under some keys are plain. -/
def IsRecord (keys : List String) (value : Json ν) : Prop :=
  IsObject value ∧ ∀ key ∈ keys, (value.field key).hashable = true

def IsBasisItem (value : Json ν) : Prop :=
  IsRecord ["doc_id", "feature_code"] value

def IsFinding (value : Json ν) : Prop :=
  IsRecord ["risk_kind", "level", "reasoning"] value
    ∧ IsRecordsOf IsBasisItem (value.field "basis")

def IsObservation (value : Json ν) : Prop :=
  IsRecord ["feature_code", "doc_id", "effect"] value

/-- A payload a version stores. -/
structure VersionShaped (payload : Json ν) : Prop where
  isObject : IsObject payload
  distinct : payload.DistinctKeys
  blockers : IsTexts (payload.field "blockers")
  flags : IsTexts (payload.field "flags")
  promptVersions : IsSection (payload.field "prompt_versions")
  findings : IsRecordsOf IsFinding (payload.field "findings")
  entityObservations :
    IsRecordsOf IsObservation (payload.field "entity_observations")
  evidence : IsSection (payload.field "evidence")
  evidenceLists : ∀ key ∈ evidenceLists,
    IsTexts ((payload.field "evidence").field key)
  threeStep : IsSection (payload.field "three_step")
  distinguishingFeatures :
    IsTexts ((payload.field "three_step").field "distinguishing_features")

/-- A version to compare. -/
structure VersionSide (ν : Type) extends DiffSide ν where
  shaped : VersionShaped payload

-- ====================================================== reading sections

theorem get_of_isObject {value : Json ν} (h : IsObject value) (key : String) :
    value.get key = .ok (value.field key) := by
  obtain ⟨entries, rfl⟩ := h
  rfl

variable [JsonNumber ν]

/-- A list, or `[]` for a missing one. -/
def itemsOf : Json ν → List (Json ν)
  | .arr items => items
  | _ => []

theorem listOf_arr (items : List (Json ν)) :
    listOf (.arr items) = .ok items := by
  cases items with
  | nil => rfl
  | cons v vs => rfl

theorem listOf_of_isTexts {value : Json ν} (h : IsTexts value) :
    listOf value = .ok (itemsOf value)
      ∧ (itemsOf value).all Json.hashable = true := by
  rcases h with rfl | ⟨texts, rfl⟩
  · exact ⟨rfl, rfl⟩
  · refine ⟨listOf_arr _, List.all_eq_true.mpr fun item hitem => ?_⟩
    obtain ⟨text, -, rfl⟩ := List.mem_map.mp hitem
    rfl

theorem listOf_of_isRecordsOf {isRecord : Json ν → Prop} {value : Json ν}
    (h : IsRecordsOf isRecord value) :
    listOf value = .ok (itemsOf value)
      ∧ ∀ item ∈ itemsOf value, isRecord item := by
  rcases h with rfl | ⟨items, rfl, hitems⟩
  · exact ⟨rfl, fun _ h => nomatch h⟩
  · exact ⟨listOf_arr items, hitems⟩

/-- A section read with `or {}` is an object with the same fields. -/
theorem orElse_of_isSection {value : Json ν} (h : IsSection value) :
    IsObject (value.orElse (.obj []))
      ∧ ∀ key, (value.orElse (.obj [])).field key = value.field key := by
  rcases h with rfl | ⟨entries, rfl⟩
  · exact ⟨⟨[], rfl⟩, fun _ => rfl⟩
  · rw [orElse_obj]
    exact ⟨⟨entries, rfl⟩, fun _ => rfl⟩

end PatentEvidence.Assessment
