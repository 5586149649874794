/-
The deterministic difference of two frozen versions
(modules/assessment/diff.py).

A payload is the dictionary a version stores, so it is a JSON value here,
and reading a part of the wrong shape raises. Findings and observations
have no ids and are matched by a key made of what they contain; blockers
and flags are matched as they are. The input snapshots of the two versions
are compared where both are given.
-/
import Mathlib.Data.Prod.Lex
import PatentEvidence.Assessment.Snapshot
import PatentEvidence.Lib.Keyed
import PatentEvidence.Lib.Python

namespace PatentEvidence.Assessment

open Json Keyed Text

/-- `DIFF_RULES_VERSION`. -/
def diffRulesVersion : String := "assessment-diff-v1"

/-- `{"from": …, "to": …}`. -/
structure Change (α : Type _) where
  fromValue : α
  toValue : α
  deriving DecidableEq

-- ========================================================= input snapshots

/-- A recorded value of a profile. -/
inductive FieldValue
  | text (value : Option String)
  | flag (value : Bool)
  deriving DecidableEq

structure ChangedField where
  field : String
  change : Change FieldValue
  deriving DecidableEq

structure ChangedCandidate where
  publicationNumber : String
  changedFields : List ChangedField
  deriving DecidableEq

/-- What `_diff_inputs` answers. -/
@[ext] structure InputDiff where
  changedFields : List ChangedField
  priorityClaims : Split String
  added : List String
  removed : List String
  changed : List ChangedCandidate
  deriving DecidableEq

/-- The loop over the named fields of two profiles. -/
def changedFields {α : Type _} (fields : List (String × (α → FieldValue)))
    (a b : α) : List ChangedField :=
  fields.filterMap fun (field, read) =>
    if read a ≠ read b then
      some { field, change := { fromValue := read a, toValue := read b } }
    else none

/-- A text or `None`, inside a formatted string. -/
def formatted : Option String → String
  | some value => value
  | none => "None"

/-- `_pc_key`. -/
def pcKey (claim : PriorityClaimProfile) : String :=
  claim.claimId ++ "|" ++ formatted claim.priorityDate ++ "|" ++ claim.country

/-- The `appl_fields` of `_diff_inputs`. -/
def applicationFields : List (String × (ApplicationProfile → FieldValue)) := [
  ("filing_date", fun profile => .text profile.filingDate),
  ("application_type", fun profile => .text (some profile.applicationType))]

/-- The fields `_diff_inputs` compares of a candidate. -/
def candidateFields : List (String × (CandidateProfile → FieldValue)) := [
  ("filing_date", fun profile => .text profile.filingDate),
  ("priority_date", fun profile => .text profile.priorityDate),
  ("filed_in_china", fun profile => .flag profile.filedInChina),
  ("source_verified", fun profile => .flag profile.sourceVerified)]

/-- `{c.get("publication_number"): c for c in …}`. -/
def candidatesByNumber (snapshot : InputSnapshot) :
    Dict String CandidateProfile :=
  lastByKey CandidateProfile.publicationNumber snapshot.candidateProfiles

/-- `_split_lists`, of texts. -/
def splitTexts (older newer : List String) : Split String :=
  splitBy (fun item items => decide (item ∈ items)) older newer

/-- `_diff_inputs`. -/
def diffInputs (a b : InputSnapshot) : InputDiff :=
  let candA := candidatesByNumber a
  let candB := candidatesByNumber b
  { changedFields := changedFields applicationFields a.applicationProfile
      b.applicationProfile
    priorityClaims := splitTexts (a.applicationProfile.priorityClaims.map pcKey)
      (b.applicationProfile.priorityClaims.map pcKey)
    added := candB.keys.filter fun cn => (candA.get? cn).isNone
    removed := candA.keys.filter fun cn => (candB.get? cn).isNone
    changed := candB.entries.filterMap fun (cn, profile) =>
      match candA.get? cn with
      | none => none
      | some old =>
          let deltas := changedFields candidateFields old profile
          if deltas ≠ [] then
            some { publicationNumber := cn, changedFields := deltas }
          else none }

-- ============================================================ payloads

variable {ν : Type} [JsonNumber ν]

/-- `list(value or [])`. -/
def listOf (value : Json ν) : Py (List (Json ν)) :=
  (value.orElse (.arr [])).iter

/-- `set(items)`, which raises on an item that has no hash. -/
def setOf (items : List (Json ν)) : Py (List (Json ν)) :=
  if items.all Json.hashable then .ok items else .error .typeError

/-- `_split_lists`. -/
def splitLists (older newer : List (Json ν)) : Py (Split (Json ν)) := do
  let _ ← setOf older
  let _ ← setOf newer
  return splitBy Json.isIn older newer

/-- `value.get(key) != other.get(key)`. -/
def differsAt (older newer : Json ν) (key : String) :
    Py (Option (Change (Json ν))) := do
  let fromValue ← older.get key
  let toValue ← newer.get key
  return if fromValue.equal toValue then none else some { fromValue, toValue }

structure EvidenceDelta (ν : Type) where
  scalars : List (String × Change (Json ν))
  lists : List (String × Split (Json ν))

/-- The `keys` of `_evidence_delta`. -/
def evidenceScalars : List String :=
  ["source_coverage", "verified_citations", "total_citations", "level",
    "blocks_conclusion"]

/-- The `lists` of `_evidence_delta`. -/
def evidenceLists : List String :=
  ["missing_anchors", "unverified_citations", "abstract_only_citations",
    "failed_sources", "partial_sources", "blocking_gaps"]

/-- `set(a) != set(b)`. -/
def setsDiffer (a b : List (Json ν)) : Bool :=
  !(a.all fun item => item.isIn b) || !(b.all fun item => item.isIn a)

/-- The turn of `_evidence_delta` for one list. -/
def evidenceListDelta (older newer : Json ν) (key : String) :
    Py (Option (String × Split (Json ν))) := do
  let old ← setOf (← listOf (← older.get key))
  let new ← setOf (← listOf (← newer.get key))
  if setsDiffer old new then
    return some (key, ← splitLists old new)
  return none

/-- `_evidence_delta`. -/
def evidenceDelta (older newer : Json ν) : Py (EvidenceDelta ν) := do
  let scalars ← evidenceScalars.mapM fun key => do
    return (← differsAt older newer key).map fun change => (key, change)
  let lists ← evidenceLists.mapM (evidenceListDelta older newer)
  return { scalars := scalars.filterMap id, lists := lists.filterMap id }

structure ThreeStepDelta (ν : Type) where
  closestPriorArt : Option (Change (Json ν))
  actualTechnicalProblem : Option (Change (Json ν))
  distinguishingFeatures : Split (Json ν)
  presentInBoth : Bool

/-- `_three_step_delta`. -/
def threeStepDelta (older newer : Json ν) : Py (ThreeStepDelta ν) := do
  let old := older.orElse (.obj [])
  let new := newer.orElse (.obj [])
  return {
    closestPriorArt := ← differsAt old new "closest_prior_art"
    actualTechnicalProblem := ← differsAt old new "actual_technical_problem"
    distinguishingFeatures := ← splitLists
      (← listOf (← old.get "distinguishing_features"))
      (← listOf (← new.get "distinguishing_features"))
    presentInBoth := older.truthy && newer.truthy }

section Texts

variable [Printable]

/-- `str(value.get(key, ""))`. -/
def textAt (value : Json ν) (key : String) : Py String := do
  return (← value.getD key (.str "")).toStr

/-- `f"{pairs}"`, of a tuple of pairs of texts. -/
def reprPairs (pairs : List (String × String)) : String :=
  let one (pair : String × String) : String :=
    "(" ++ Json.reprStr pair.1 ++ ", " ++ Json.reprStr pair.2 ++ ")"
  match pairs with
  | [pair] => "(" ++ one pair ++ ",)"
  | pairs => "(" ++ join ", " (pairs.map one) ++ ")"

/-- The pair `_finding_key` reads of one basis item. -/
def basisPair (item : Json ν) : Py (String × String) := do
  return (← textAt item "doc_id", ← textAt item "feature_code")

/-- `_finding_key`. -/
def findingKey (finding : Json ν) : Py String := do
  let pairs ← (← listOf (← finding.get "basis")).mapM basisPair
  let basis := pairs.insertionSort fun a b => toLex a ≤ toLex b
  return (← textAt finding "risk_kind") ++ "|" ++ (← textAt finding "level")
    ++ "|" ++ reprPairs basis ++ "|" ++ (← textAt finding "reasoning")

/-- `_observation_key`. -/
def observationKey (observation : Json ν) : Py String := do
  return (← textAt observation "feature_code") ++ "|"
    ++ (← textAt observation "doc_id") ++ "|" ++ (← textAt observation "effect")

/-- `{key(item): item for item in items}`. -/
def dictBy (key : Json ν → Py String) (items : List (Json ν)) :
    Py (Dict String (Json ν)) :=
  items.foldlM (fun d item => do return d.set (← key item) item) .empty

/-- `_split_by_key`. -/
def splitItems (older newer : List (Json ν)) (key : Json ν → Py String) :
    Py (Split (Json ν)) := do
  return splitByKey (← dictBy key older) (← dictBy key newer)

structure PromptChange where
  name : String
  change : Change String
  deriving DecidableEq

/-- `_prompt_changes`, of the entries of the two dictionaries. -/
def promptChanges (older newer : List (String × Json ν)) :
    List PromptChange :=
  let textOf (entries : List (String × Json ν)) (key : String) : String :=
    ((entries.lookup key).getD (.str "")).toStr
  let keys := sortedSet (older.map Prod.fst ++ newer.map Prod.fst)
  keys.filterMap fun name =>
    if textOf older name ≠ textOf newer name then
      some { name, change := {
        fromValue := textOf older name, toValue := textOf newer name } }
    else none

-- ============================================================ the whole

structure AssessmentVersionDiff (ν : Type) where
  fromVersion : Int
  toVersion : Int
  fromPayloadSha256 : String
  toPayloadSha256 : String
  rulesVersion : Change String
  rulesVersionChanged : Bool
  promptChanges : List PromptChange
  blockers : Split (Json ν)
  flags : Split (Json ν)
  findings : Split (Json ν)
  evidence : EvidenceDelta ν
  threeStep : ThreeStepDelta ν
  entityObservations : Split (Json ν)
  priorityChanged : Bool
  requiresHumanConfirmation : Bool
  inputs : Option InputDiff
  diffRulesVersion : String := Assessment.diffRulesVersion
  notes : List String

/-- A version as `diff_payloads` is handed it. -/
structure DiffSide (ν : Type) where
  payload : Json ν
  version : Int
  payloadSha256 : String

/-- `value or '—'`, of a text. -/
def textOrDash (value : String) : String := if value ≠ "" then value else "—"

def rulesNote (rulesFrom rulesTo : String) : String :=
  "两版规则版本不同（" ++ textOrDash rulesFrom ++ " → " ++ textOrDash rulesTo
    ++ "），差异可能来自规则本身，而非案件数据变化"

def inputsComparedNote : String :=
  "两版均已保存输入快照，下列「输入变化」可能与结论变化相关，"
    ++ "但本工具不做自动因果判断，是否由输入变化导致须人工核对"

def inputsMissingNote : String :=
  "输入快照未参与本次对比，不对照、不推断输入档案的变化"
    ++ "（无法做输入→结论的归因）"

def removedBlockersNote : String :=
  "「不再出现」不等于「已解决」：该阻塞项可能因数据变化而不再被触发，"
    ++ "也可能换了表述仍然存在，须人工核对"

/-- The comparison of the snapshots, where both are given. -/
def comparedInputs (inputA inputB : Option InputSnapshot) : Option InputDiff :=
  match inputA, inputB with
  | some a, some b => some (diffInputs a b)
  | _, _ => none

/-- `(value or None)`. -/
def orNone (value : Json ν) : Json ν := value.orElse .null

/-- `diff_payloads` once the sides are in order. -/
def diffOrdered (older newer : DiffSide ν)
    (inputA inputB : Option InputSnapshot) : Py (AssessmentVersionDiff ν) := do
  let rulesFrom ← textAt older.payload "rules_version"
  let rulesTo ← textAt newer.payload "rules_version"
  let inputs := comparedInputs inputA inputB
  let blockers ← splitLists (← listOf (← older.payload.get "blockers"))
    (← listOf (← newer.payload.get "blockers"))
  let findings ← splitItems (← listOf (← older.payload.get "findings"))
    (← listOf (← newer.payload.get "findings")) findingKey
  let observations ← splitItems
    (← listOf (← older.payload.get "entity_observations"))
    (← listOf (← newer.payload.get "entity_observations")) observationKey
  return {
    fromVersion := older.version
    toVersion := newer.version
    fromPayloadSha256 := older.payloadSha256
    toPayloadSha256 := newer.payloadSha256
    rulesVersion := { fromValue := rulesFrom, toValue := rulesTo }
    rulesVersionChanged := rulesFrom ≠ rulesTo
    promptChanges := promptChanges
      (← ((← older.payload.get "prompt_versions").orElse (.obj [])).entries)
      (← ((← newer.payload.get "prompt_versions").orElse (.obj [])).entries)
    blockers
    flags := ← splitLists (← listOf (← older.payload.get "flags"))
      (← listOf (← newer.payload.get "flags"))
    findings
    evidence := ← evidenceDelta
      (.obj (← ((← older.payload.get "evidence").orElse (.obj [])).entries))
      (.obj (← ((← newer.payload.get "evidence").orElse (.obj [])).entries))
    threeStep := ← threeStepDelta (← older.payload.get "three_step")
      (← newer.payload.get "three_step")
    entityObservations := observations
    priorityChanged := !(orNone (← older.payload.get "priority")).equal
      (orNone (← newer.payload.get "priority"))
    requiresHumanConfirmation :=
      (← older.payload.getD "requires_human_confirmation" (.bool true)).truthy
        || (← newer.payload.getD "requires_human_confirmation"
          (.bool true)).truthy
    inputs
    notes := (if rulesFrom ≠ rulesTo then [rulesNote rulesFrom rulesTo] else [])
      ++ [if inputs.isSome then inputsComparedNote else inputsMissingNote]
      ++ (if blockers.removed ≠ [] then [removedBlockersNote] else []) }

/-- `diff_payloads`: the sides are put in the order of their versions, the
snapshots stay where they are. -/
def diffPayloads (older newer : DiffSide ν)
    (inputA inputB : Option InputSnapshot) : Py (AssessmentVersionDiff ν) :=
  if newer.version < older.version then diffOrdered newer older inputA inputB
  else diffOrdered older newer inputA inputB

end Texts

end PatentEvidence.Assessment
