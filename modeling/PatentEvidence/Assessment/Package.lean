/-
The orchestration of the pre-assessment stage
(modules/assessment/package.py): every gate once, and the blockers that
must be resolved before any conclusion exists.
-/
import PatentEvidence.Assessment.Completeness

namespace PatentEvidence.Assessment

open Text

/-- The `total_features` the gates run with. -/
def AssessmentInput.effectiveTotal (payload : AssessmentInput) : Int :=
  payload.totalFeatures.getD
    (payload.rows.map FeatureComparisonRow.featureCode).dedup.length

/-- The blockers `assess_case` adds to the evidence gaps for step 3. -/
def motivationBlockers (motivation : Option MotivationState) : List String :=
  match motivation with
  | none => ["三步法第 3 步结合启示清单未填写，缺 5 项必答项"]
  | some state =>
      if state.blocksConclusion then
        ["结合启示清单存在未回答项：" ++ join "、" state.unanswered]
      else []

/-- The blocker `assess_case` adds when no prior art is left. -/
def scaffoldBlockers (scaffold : Option ThreeStepScaffold) : List String :=
  match scaffold with
  | none =>
      ["无可用现有技术（文献均为抵触申请/不可用/日期未知），无法确定最接近的现有技术"]
  | some _ => []

/-- `assess_case`. -/
def assessCase (payload : AssessmentInput) : Option AssessmentPackage := do
  let totalFeatures := payload.effectiveTotal
  let codes := sortedFeatureCodes payload.rows
  let priority ← verifyPriority payload.subject codes
  let kinds := classifyAllReferences payload.documents payload.subject
    (some priority) payload.rows
  let priorityFindings ← priorityVerificationFindings payload.subject codes
  let findings := priorityFindings
    ++ referenceEligibilityFindings payload.documents payload.subject
        (some priority) kinds
    ++ noveltyFindings payload.rows totalFeatures kinds
    ++ combinationFindings payload.rows totalFeatures kinds
  let scaffold := threeStepScaffold payload.rows kinds
  let motivation := payload.motivationChecklist.map motivationChecklistState
  let auxiliary := evaluateAuxiliaryFactors payload.auxiliaryFactors
  let hindsight :=
    if Blank payload.actualTechnicalProblem then none
    else
      let statements :=
        if payload.distinguishingFeatureStatements ≠ [] then
          payload.distinguishingFeatureStatements
        else
          match scaffold with
          | some scaffold => scaffold.distinguishingFeatures
          | none => []
      some (hindsightRisk payload.actualTechnicalProblem statements)
  let observations := entityLevelObservations payload.numericRanges
    payload.conceptRelations payload.knownSubstitutes
  let evidence := assessEvidenceCompleteness payload.rows totalFeatures
    payload.documents payload.citations payload.sourceRuns
    payload.legalStatusAsOf
  let blockers := evidence.blockingGaps ++ motivationBlockers motivation
    ++ scaffoldBlockers scaffold
  let referenceDates := priority.perFeatureReferenceDates.entries.map Prod.snd
  let flags := evidence.flags ++ priority.flags
    ++ (if priority.invalidClaims ≠ [] then
      ["存在不成立的优先权主张，相关特征的基准日已回落到申请日"
        ++ " " ++ payload.subject.filingDate.isoformat] else [])
    ++ (if 1 < referenceDates.dedup.length then
      ["部分优先权导致不同技术特征的时间基准日不同，日期门禁按特征逐项判断"] else [])
    ++ (if hindsight.any HindsightReport.hindsightRisk then
      ["实际解决的技术问题疑似复述区别特征，存在事后诸葛亮风险"] else [])
    ++ (if findings.any fun f => f.riskKind = .inventiveCombination then
      ["存在系统建议的文献组合，结合动机必须由代理师人工确认"] else [])
    ++ (if observations.any fun o => o.effect = .mayDefeat then
      ["存在实体级候选观察项提示可能破坏新颖性（数值范围重叠 / 下位公开 / 惯用手段置换），"
        ++ "仅作候选信号，不改变比对判定，须代理师逐项确认"] else [])
    ++ (if observations.any fun o => o.effect = .undetermined then
      ["存在实体级观察项因证据不足无法给出倾向，须补充证据后重新判断"] else [])
  return {
    rulesVersion := assessmentRulesVersion
    referenceKinds := kinds
    priority := priority
    entityObservations := observations
    findings := findings
    threeStep := scaffold
    motivation := motivation
    auxiliary := auxiliary
    hindsight := hindsight
    evidence := evidence
    blockers := blockers
    flags := flags
    requiresHumanConfirmation :=
      (findings.any AssessmentFinding.requiresHumanConfirmation)
        || decide (blockers ≠ []) || decide (flags ≠ []) }

end PatentEvidence.Assessment
