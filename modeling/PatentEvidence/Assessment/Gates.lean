/-
The coverage gates (modules/assessment/rules.py): novelty, combination
screening, and the first two steps of the inventive-step scaffold.

Every gate groups the rows by document and looks the document up in the
kinds the date gate assigned. They do not treat a document the date gate
never saw alike: `novelty_findings` skips only documents classified
unusable or unknown, the other two read a missing kind as prior art.
-/
import Mathlib.Data.Prod.Lex
import Mathlib.Data.String.Basic
import PatentEvidence.Assessment.Priority

namespace PatentEvidence.Assessment

open Grouping Text

-- ============================================================ judgments

/-- `COVERING_JUDGMENTS`. -/
def coveringJudgments : List String := ["identical", "equivalent"]

/-- `SINGLE_REFERENCE_JUDGMENTS`. -/
def singleReferenceJudgments : List String := ["identical"]

/-- `_judgment_precedence`. -/
def judgmentPrecedence (judgment : String) : Int :=
  if judgment = "identical" then 3
  else if judgment = "equivalent" then 2
  else if judgment = "different" then 1
  else if judgment = "insufficient_evidence" then 0
  else -1

/-- `{row.feature_code for row in rows if row.judgment in judgments}`. -/
def codesJudged (judgments : List String) (rows : List FeatureComparisonRow) :
    List String :=
  ((rows.filter fun row => row.judgment ∈ judgments).map
    FeatureComparisonRow.featureCode).dedup

/-- `_feature_codes`: the codes in order of first appearance. -/
def featureCodes (rows : List FeatureComparisonRow) : List String :=
  rows.foldl (fun seen row =>
    if row.featureCode ∈ seen then seen else seen ++ [row.featureCode]) []

-- ============================================================== novelty

/-- The turn of `novelty_findings` for one document. -/
def noveltyFinding (totalFeatures : Int) (kinds : Dict String ReferenceKind)
    (docId : String) (docRows : List FeatureComparisonRow) :
    Option AssessmentFinding :=
  let kind := kinds.get? docId
  if kind = some .notUsable ∨ kind = some .unknown then none
  else
    let scopeNote :=
      if kind = some .conflictingApplication then
        "（抵触申请，仅可用于评价新颖性，不得用于创造性）"
      else ""
    let basis := (docRows.insertionSort fun a b =>
      a.featureCode ≤ b.featureCode).map BasisItem.row
    let identical := codesJudged singleReferenceJudgments docRows
    let covering := codesJudged coveringJudgments docRows
    if (identical.length : Int) = totalFeatures then
      some {
        riskKind := .novelty
        level := .highNoveltyRisk
        basis := basis
        requiresHumanConfirmation := false
        reasoning := s!"单篇对比文件 {docId}{scopeNote} 对全部 {totalFeatures} 项必要技术特征均为相同公开，"
          ++ "触发新颖性单篇全覆盖门禁；结论仍需代理师与复核人确认。" }
    else if (covering.length : Int) = totalFeatures then
      some {
        riskKind := .novelty
        level := .needsConfirmation
        basis := basis
        requiresHumanConfirmation := true
        reasoning := s!"对比文件 {docId}{scopeNote} 覆盖全部特征但含等同替代判断，不触发新颖性门禁；"
          ++ "等同认定必须人工复核。" }
    else none

/-- `novelty_findings`: a single reference covering all features. -/
def noveltyFindings (rows : List FeatureComparisonRow) (totalFeatures : Int)
    (kinds : Dict String ReferenceKind) : List AssessmentFinding :=
  if totalFeatures ≤ 0 then []
  else
    ((rowsByDoc rows).entries.insertionSort fun a b => a.1 ≤ b.1).filterMap
      fun entry => noveltyFinding totalFeatures kinds entry.1 entry.2

-- ========================================================== combination

/-- The inner loop of `combination_findings`: for each feature the best
judgment either document gives it. -/
def bestCells (rows : List FeatureComparisonRow) : Dict String String :=
  rows.foldl (fun cells row =>
    match cells.get? row.featureCode with
    | none => cells.set row.featureCode row.judgment
    | some judgment =>
        if judgmentPrecedence judgment < judgmentPrecedence row.judgment then
          cells.set row.featureCode row.judgment
        else cells) .empty

/-- `{code for code, judgment in cells.items() if judgment in COVERING}`. -/
def coveredTogether (rows : List FeatureComparisonRow) : List String :=
  ((bestCells rows).entries.filter fun cell => cell.2 ∈ coveringJudgments).map
    Prod.fst

/-- The documents that enter the inventive-step gates. -/
def inventiveDocs (rows : List FeatureComparisonRow)
    (kinds : Dict String ReferenceKind) : List String :=
  (rowsByDoc rows).keys.filter fun docId =>
    kinds.getD docId .priorArt = .priorArt

/-- The turn of `combination_findings` for one pair of documents. -/
def combinationFinding (totalFeatures : Int) (rows : List FeatureComparisonRow)
    (first second : String) : Option AssessmentFinding :=
  let grouped := rowsByDoc rows
  let pairRows := grouped.getD first [] ++ grouped.getD second []
  if ((coveredTogether pairRows).length : Int) = totalFeatures then
    some {
      riskKind := .inventiveCombination
      level := .needsConfirmation
      basis := pairRows.map BasisItem.row
      requiresHumanConfirmation := true
      reasoning := s!"文献组合 {first}+{second} 联合覆盖全部 {totalFeatures} 项特征，"
        ++ "构成创造性组合风险候选；结合动机必须由代理师人工确认，系统不给结论。" }
  else none

/-- `combination_findings`: coverage screening for document pairs. -/
def combinationFindings (rows : List FeatureComparisonRow)
    (totalFeatures : Int) (kinds : Dict String ReferenceKind) :
    List AssessmentFinding :=
  if totalFeatures ≤ 0 then []
  else
    let docIds := (inventiveDocs rows kinds).insertionSort (· ≤ ·)
    (pairs docIds).filterMap fun pair =>
      combinationFinding totalFeatures rows pair.1 pair.2

-- =========================================================== three-step

/-- `score`: fewer is better, so the identical cells count negatively. -/
def score (rows : List FeatureComparisonRow) (docId : String) :
    Int ×ₗ Nat ×ₗ String :=
  let docRows := (rowsByDoc rows).getD docId []
  toLex (-(docRows.countP fun r => r.judgment = "identical" : Int),
    toLex (docRows.countP fun r => r.judgment = "insufficient_evidence", docId))

/-- `three_step_scaffold`. -/
def threeStepScaffold (rows : List FeatureComparisonRow)
    (kinds : Dict String ReferenceKind) : Option ThreeStepScaffold :=
  match inventiveDocs rows kinds with
  | [] => none
  | docId :: docIds =>
      let closest := firstBy (score rows) docId docIds
      let identicalFeatures :=
        codesJudged ["identical"] ((rowsByDoc rows).getD closest [])
      some {
        closestPriorArt := closest
        closestPriorArtIdentical := identicalFeatures.length
        distinguishingFeatures :=
          (featureCodes rows).filter fun code => code ∉ identicalFeatures
        actualTechnicalProblem := "（占位）实际解决的技术问题必须由代理师基于区别特征与技术效果确定，"
          ++ "不得直接写成区别特征本身。" }

end PatentEvidence.Assessment
