/-
Evidence completeness, the step-3 checklist and the candidate signals
(modules/assessment/rules.py).

A cell and a citation are matched through one string, `doc_id`, a slash
and `feature_code`; nothing keeps a slash out of either part, so two
cells can share the string. Proofs/Completeness.lean is about that.
-/
import PatentEvidence.Assessment.Gates

namespace PatentEvidence.Assessment

open Text

-- ============================================================= evidence

/-- `ABSTRACT_ONLY_LOCATIONS`, in lower case. -/
def abstractOnlyLocations : List String :=
  ["摘要", "abstract", "abstract_only", "书目信息"]

/-- `EvidenceCitation.anchor`. -/
def EvidenceCitation.anchor (c : EvidenceCitation) : String :=
  c.docId ++ "/" ++ c.featureCode

/-- The anchor string of a matrix cell. -/
def FeatureComparisonRow.anchor (row : FeatureComparisonRow) : String :=
  row.docId ++ "/" ++ row.featureCode

/-- A citation with a position and a quotation. -/
def EvidenceCitation.located (c : EvidenceCitation) : Bool :=
  decide (¬ Blank c.location) && decide (¬ Blank c.quote)

/-- The cells no citation is anchored at. -/
def uncitedAnchors (rows : List FeatureComparisonRow)
    (citations : List EvidenceCitation) : List String :=
  let citedCells := citations.map EvidenceCitation.anchor
  (rows.map FeatureComparisonRow.anchor).filter fun anchor =>
    anchor ∉ citedCells

/-- `max(total_features - len({row.feature_code for row in rows}), 0)`. -/
def missingCells (rows : List FeatureComparisonRow) (totalFeatures : Int) :
    Int :=
  max (totalFeatures
    - ((rows.map FeatureComparisonRow.featureCode).dedup.length : Int)) 0

/-- `assess_evidence_completeness`. -/
def assessEvidenceCompleteness (rows : List FeatureComparisonRow)
    (totalFeatures : Int) (documents : List CandidateDocument)
    (citations : List EvidenceCitation) (sourceRuns : List DataSourceRun)
    (legalStatusAsOf : Dict String Date) : EvidenceCompleteness :=
  let verified := citations.filter fun c => c.verified && c.located
  let missingAnchors :=
    ((citations.filter fun c => !c.located).map EvidenceCitation.anchor)
      ++ (uncitedAnchors rows citations).insertionSort (· ≤ ·)
  let unverified := (citations.filter fun c => !c.verified && c.located).map
    EvidenceCitation.anchor
  let abstractOnly := (citations.filter fun c =>
    lower (strip c.location) ∈ abstractOnlyLocations).map
      EvidenceCitation.anchor
  let declaredCells :=
    (rows.map fun row => (row.docId, row.featureCode)).dedup.length
  let denominator : Int :=
    if declaredCells ≠ 0 then declaredCells
    else if citations.length ≠ 0 then citations.length
    else max (totalFeatures * documents.length) 1
  let failed := (sourceRuns.filter fun run => run.status = "failed").map
    DataSourceRun.name
  let partialRuns := (sourceRuns.filter fun run => run.status = "partial").map
    DataSourceRun.name
  let noTimepoint := (documents.filter fun doc =>
    (legalStatusAsOf.get? doc.docId).isNone).map CandidateDocument.docId
  let missing := missingCells rows totalFeatures
  let unverifiedDocuments := (documents.filter fun doc =>
    !doc.sourceVerified).map CandidateDocument.docId
  let blockingGaps :=
    (if missingAnchors ≠ [] then
      ["引证未定位（缺页码/段落/权利要求位置或原文引文）"
        ++ s!"{missingAnchors.length} 处"] else [])
    ++ (if unverified ≠ [] then
      [s!"引用未逐字核验 {unverified.length} 处"] else [])
    ++ (if failed ≠ [] then
      ["数据源失败 " ++ join "、" failed
        ++ "（任务为 partial_success，不得丢弃成功结果）"] else [])
    ++ (if missing ≠ 0 then [s!"缺失比对单元格 {missing} 项"] else [])
  let flags :=
    (if partialRuns ≠ [] then ["数据源部分成功 " ++ join "、" partialRuns] else [])
    ++ (if abstractOnly ≠ [] then
      [s!"仅摘要级引用 {abstractOnly.length} 处，摘要不能替代说明书原文"] else [])
    ++ (if noTimepoint ≠ [] then ["缺失法律状态时点 " ++ join "、" noTimepoint]
      else [])
    ++ (if unverifiedDocuments ≠ [] then
      ["来源未核验 " ++ join "、" unverifiedDocuments] else [])
  { sourceCoverage := (verified.length : Rat) / denominator
    verifiedCitations := verified.length
    totalCitations := citations.length
    missingAnchors := missingAnchors
    unverifiedCitations := unverified
    abstractOnlyCitations := abstractOnly
    failedSources := failed
    partialSources := partialRuns
    documentsWithoutLegalStatusTimepoint := noTimepoint
    blockingGaps := blockingGaps
    flags := flags
    blocksConclusion := decide (blockingGaps ≠ [])
    level := if blockingGaps ≠ [] ∨ flags ≠ [] then "needs_confirmation"
      else "low" }

-- ============================================================ checklist

/-- `MotivationChecklist.answers`, in the order of
`MOTIVATION_CHECKLIST_ITEMS`. -/
def MotivationChecklist.answers (checklist : MotivationChecklist) :
    List (String × Option String) :=
  [("common_knowledge", checklist.commonKnowledge),
    ("explicit_teaching", checklist.explicitTeaching),
    ("prejudice_or_teaching_away", checklist.prejudiceOrTeachingAway),
    ("combination_obstacle", checklist.combinationObstacle),
    ("effect_predictability", checklist.effectPredictability)]

/-- An item counts as answered when its text is not blank. -/
def answered (answer : Option String) : Bool :=
  match answer with
  | none => false
  | some text => decide (¬ Blank text)

/-- `motivation_checklist_state`. -/
def motivationChecklistState (checklist : MotivationChecklist) :
    MotivationState :=
  let unanswered := (checklist.answers.filter fun item =>
    !answered item.2).map Prod.fst
  let favouring := (checklist.answers.filter fun item =>
    item.1 ∈ ["prejudice_or_teaching_away", "combination_obstacle"]
      ∧ lower (strip (item.2.getD "")) = "yes").map Prod.fst
  { complete := decide (unanswered = [])
    unanswered := unanswered
    favouringInventiveness := favouring
    blocksConclusion := decide (unanswered ≠ []) }

-- ============================================================== signals

/-- The status `evaluate_auxiliary_factors` gives a claimed factor. -/
def auxiliaryStatus (factor : AuxiliaryFactor) : String :=
  if factor.kind = "commercial_success"
      ∧ !(factor.evidenceCited && factor.causalLinkToFeatures) then
    "unsubstantiated"
  else if !factor.evidenceCited then "unsubstantiated"
  else "counted"

/-- `evaluate_auxiliary_factors`. -/
def evaluateAuxiliaryFactors (factors : List AuxiliaryFactor) :
    AuxiliaryReport :=
  let counted := (factors.filter AuxiliaryFactor.claimed).map fun factor =>
    (factor, auxiliaryStatus factor)
  { counted := counted
    unsubstantiated := (counted.filter fun entry =>
      entry.2 = "unsubstantiated").map fun entry => entry.1.kind
    note := "辅助性审查基准仅为参考，不得单独作为具备创造性的依据。" }

/-- `hindsight_risk`. -/
def hindsightRisk (actualTechnicalProblem : String)
    (distinguishingFeatureStatements : List String) : HindsightReport :=
  let problem := strip actualTechnicalProblem
  let hits := distinguishingFeatureStatements.filter fun statement =>
    decide (¬ Blank statement) && occursIn (strip statement) problem
  { hindsightRisk := decide (hits ≠ [])
    matchedStatements := hits
    guidance := "实际解决的技术问题必须基于区别特征所达到的技术效果重新确定，"
      ++ "不得把区别特征本身或本申请方案直接写成技术问题。" }

/-- `_overlaps`; with an end missing there is no answer. -/
def overlaps (claimedLower claimedUpper disclosedLower disclosedUpper :
    Option Rat) : Option Bool := do
  let claimedLower ← claimedLower
  let claimedUpper ← claimedUpper
  let disclosedLower ← disclosedLower
  let disclosedUpper ← disclosedUpper
  return decide (claimedLower ≤ disclosedUpper)
    && decide (disclosedLower ≤ claimedUpper)

/-- One turn of `observe_numeric_ranges`. -/
def observeNumericRange (item : NumericRange) : EntityLevelObservation :=
  let observation (effect : EntityObservationEffect) (reasoning : String) :
      EntityLevelObservation :=
    { kind := "numeric_range", featureCode := item.featureCode
      docId := item.docId, effect, reasoning }
  match overlaps item.claimedLower item.claimedUpper item.disclosedLower
      item.disclosedUpper with
  | none => observation .undetermined <|
      s!"特征 {item.featureCode} 的权利要求数值范围或对比文件 {item.docId} "
        ++ "的公开范围不完整，无法判断区间关系，证据不足。"
  | some false => observation .doesNotDefeat <|
      s!"对比文件 {item.docId} 公开的数值范围与特征 {item.featureCode} "
        ++ "的权利要求范围不相交，通常不破坏新颖性；"
        ++ "是否构成选择发明须人工确认。"
  | some true =>
      let exampleNote :=
        if item.disclosedIsExample then
          "对比文件公开的为实施例点值而非连续范围，可能不构成范围公开；"
        else ""
      observation .mayDefeat <|
        s!"对比文件 {item.docId} 公开的数值范围与特征 {item.featureCode} "
          ++ s!"的权利要求范围重叠，存在破坏新颖性的候选风险；{exampleNote}"
          ++ "是否属于选择发明或端点例外须人工确认，系统不作认定。"

/-- One turn of `observe_concept_relations`. -/
def observeConceptRelation (item : ConceptRelation) : EntityLevelObservation :=
  let observation (effect : EntityObservationEffect) (reasoning : String) :
      EntityLevelObservation :=
    { kind := "concept_generality", featureCode := item.featureCode
      docId := item.docId, effect, reasoning }
  if item.relation = "generic_disclosed" then
    observation .doesNotDefeat <|
      s!"对比文件 {item.docId} 公开的是上位概念「{item.disclosedConcept}」，"
        ++ s!"权利要求为下位概念「{item.claimedConcept}」；"
        ++ "上位概念的公开通常不破坏下位概念特征的新颖性（须人工确认）。"
  else if item.relation = "specific_disclosed" then
    observation .mayDefeat <|
      s!"对比文件 {item.docId} 公开的是下位概念「{item.disclosedConcept}」，"
        ++ s!"权利要求为上位概括「{item.claimedConcept}」；"
        ++ "下位公开通常破坏上位概括的新颖性，但须人工确认该下位是否确实落入上位范围。"
  else
    observation .undetermined <|
      s!"特征 {item.featureCode} 与对比文件 {item.docId} 的概念关系未定"
        ++ s!"「{item.claimedConcept}」vs「{item.disclosedConcept}」，"
        ++ "无法判断上下位，须人工确认。"

/-- One turn of `observe_known_substitutes`. -/
def observeKnownSubstitute (item : KnownSubstitute) : EntityLevelObservation :=
  let observation (effect : EntityObservationEffect) (reasoning : String) :
      EntityLevelObservation :=
    { kind := "known_substitute", featureCode := item.featureCode
      docId := item.docId, effect, reasoning }
  if item.substitutabilityDocumented then
    observation .mayDefeat <|
      s!"对比文件 {item.docId} 公开「{item.disclosedMeans}」，"
        ++ s!"权利要求为「{item.claimedMeans}」，已有证据证明属惯用手段的直接置换；"
        ++ "依审查指南该类替换可能破坏新颖性，但须人工确认证据是否充分。"
  else
    observation .undetermined <|
      s!"对比文件 {item.docId} 公开「{item.disclosedMeans}」，"
        ++ s!"权利要求为「{item.claimedMeans}」，但无教科书/手册/标准等证据证明"
        ++ "二者属惯用手段的直接置换；不得推定为惯用手段，须人工补充证据。"

/-- `entity_level_observations`. -/
def entityLevelObservations (ranges : List NumericRange)
    (relations : List ConceptRelation) (substitutes : List KnownSubstitute) :
    List EntityLevelObservation :=
  ranges.map observeNumericRange ++ relations.map observeConceptRelation
    ++ substitutes.map observeKnownSubstitute

end PatentEvidence.Assessment
