/-
The gate over publishing a candidate reading (modules/reports/conclusion.py).

A reading may be published when a pre-assessment version exists, is
approved and has no open blockers. The report asks with the sealed JSON
block, the assessment service with the facts of a version; both end in
`evaluateConclusionEligibility`.
-/
import PatentEvidence.Lib.Python

namespace PatentEvidence.Reports

open Text

/-- `CONCLUSION_GATE_VERSION`. -/
def conclusionGateVersion : String := "report-conclusion-gate-v1"

/-- `APPROVED_STATUS`. -/
def approvedStatus : String := "approved"

/-- `PUBLICATION_DISCLAIMER`. -/
def publicationDisclaimer : String :=
  "本节为基于当前比对矩阵的候选判断，不构成专利性结论或授权前景意见。"
    ++ "其通过复核仅表示本候选评估包内部一致、未发现阻塞项，不代表该方案具备专利性或可授权。"

/-- `ConclusionEligibility`. -/
structure ConclusionEligibility where
  eligible : Bool
  reasons : List String := []
  versionNumber : Option Int := none
  payloadSha256 : Option String := none
  gateVersion : String := conclusionGateVersion
  deriving DecidableEq

/-- `AssessmentSummary`. -/
structure AssessmentSummary where
  hasVersion : Bool := false
  versionNumber : Option Int := none
  status : Option String := none
  blockers : List String := []
  payloadSha256 : Option String := none
  deriving DecidableEq

/-- `STATUS_LABELS`. -/
def statusLabels : List (String × String) :=
  [("draft", "草稿"), ("submitted", "待复核"), ("approved", "复核通过"),
    ("rejected", "复核未通过"), ("changes_requested", "需修改")]

/-- `STATUS_LABELS.get(status, default)`. -/
def statusLabel (status default : String) : String :=
  (statusLabels.lookup status).getD default

/-- `s or default`, of a string. -/
def textOr (s default : String) : String := if s = "" then default else s

/-- `str(number)`, of a number that may be missing. -/
def numberText (number : Option Int) : String :=
  match number with
  | some n => toString n
  | none => "None"

/-- The reason of an assessment that is not approved. -/
def unapprovedReason (assessment : AssessmentSummary) : String :=
  let status := textOr (assessment.status.getD "") "未知"
  "预评估版本 v" ++ numberText assessment.versionNumber ++ " 尚未通过内部复核"
    ++ "（当前状态：" ++ statusLabel status status ++ "）。"

/-- The reasons of an approved assessment with blockers. -/
def blockedReasons (assessment : AssessmentSummary) : List String :=
  let blockers := assessment.blockers
  let more :=
    if 5 < blockers.length then
      "（另有 " ++ toString (blockers.length - 5) ++ " 项未列出）"
    else ""
  ["预评估版本 v" ++ numberText assessment.versionNumber ++ " 虽已通过复核，"
      ++ "但仍有 " ++ toString blockers.length ++ " 项未解决的阻塞项："
      ++ join "；" (blockers.take 5) ++ more ++ "。",
    "阻塞项未解决意味着该版本本身不能给出结论，报告因此不得输出任何倾向性判断。"]

/-- The reasons of an eligible assessment. -/
def eligibleReasons (assessment : AssessmentSummary) : List String :=
  ["预评估版本 v" ++ numberText assessment.versionNumber
      ++ " 已通过内部复核且无未解决阻塞项，" ++ "允许发布候选判断。",
    "允许发布候选判断不等于具备专利性：无阻塞项仅表示未发现阻塞，不代表结论成立。"]

/-- `evaluate_conclusion_eligibility`, of the facts of a version. -/
def evaluateConclusionEligibility (assessment : AssessmentSummary) :
    ConclusionEligibility :=
  if !assessment.hasVersion then
    { eligible := false
      reasons :=
        ["本案尚无预评估版本，未跑过日期门禁、新颖性与创造性覆盖及证据完备度检查。"] }
  else
    let verdict (eligible : Bool) (reasons : List String) :
        ConclusionEligibility :=
      { eligible, reasons
        versionNumber := assessment.versionNumber
        payloadSha256 := assessment.payloadSha256 }
    if assessment.status ≠ some approvedStatus then
      verdict false [unapprovedReason assessment]
    else if assessment.blockers ≠ [] then
      verdict false (blockedReasons assessment)
    else
      verdict true (eligibleReasons assessment)

/-- The gate passes exactly on an approved version without blockers. -/
theorem eligible_iff {assessment : AssessmentSummary} :
    (evaluateConclusionEligibility assessment).eligible = true
      ↔ assessment.hasVersion = true
        ∧ assessment.status = some approvedStatus
        ∧ assessment.blockers = [] := by
  unfold evaluateConclusionEligibility
  split
  · next h => simp_all
  · next h =>
      split
      · next hstatus => simp [hstatus]
      · split
        · next hblockers => simp [hblockers]
        · simp_all

section Mappings

variable {ν : Type _} [JsonNumber ν] [Printable] [Text.Digits]

/-- `None` stays, anything else is converted. -/
def unlessNone {α : Type} (value : Json ν) (convert : Json ν → Py α) :
    Py (Option α) :=
  match value with
  | .null => .ok none
  | value => do return some (← convert value)

/-- `str`, as a conversion. -/
def strOf (value : Json ν) : Py String := .ok value.toStr

/-- The `blockers` of a mapping: what is no list counts as none. -/
def blockersOf (value : Json ν) : List String :=
  match value.orElse (.arr []) with
  | .arr items => items.map Json.toStr
  | _ => []

/-- `AssessmentSummary.from_mapping`. -/
def AssessmentSummary.fromMapping (data : Json ν) : Py AssessmentSummary := do
  if !data.truthy then
    return {}
  let blockers ← data.get "blockers"
  let versionNumber ← data.get "version_number"
  let status ← data.get "status"
  let sha ← data.get "payload_sha256"
  let hasVersion ← data.getD "has_version"
    (.bool (match versionNumber with | .null => false | _ => true))
  return {
    hasVersion := hasVersion.truthy
    versionNumber := ← unlessNone versionNumber Json.toInt
    status := ← unlessNone status strOf
    blockers := blockersOf blockers
    payloadSha256 := ← unlessNone sha strOf }

/-- `evaluate_conclusion_eligibility`, of a mapping or `None`. -/
def evaluateMapping (assessment : Json ν) : Py ConclusionEligibility :=
  let verdict : Py ConclusionEligibility := do
    return evaluateConclusionEligibility
      (← AssessmentSummary.fromMapping assessment)
  match assessment with
  | .null => verdict
  | .obj _ => verdict
  | _ => .error .attributeError

end Mappings

end PatentEvidence.Reports
