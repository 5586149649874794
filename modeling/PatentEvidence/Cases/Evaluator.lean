/-
The matrix evaluator (modules/comparison/evaluator.py): counting over the
cells of a comparison matrix, and the texts made of the counts.

The evaluator reads of a cell its candidate and its judgment, and of a
candidate its id and publication number. A candidate's counts put it in
one of four classes (`Coverage`); the summary names the candidates that
cover every feature or, when there is none, the first three that cover
some. `summaryText_decisive` says so: the summary is a function of these.
-/
import PatentEvidence.Cases.Store
import PatentEvidence.Lib.Fallible
import PatentEvidence.Lib.Grouping
import PatentEvidence.Lib.Text

namespace PatentEvidence.Cases

open Fallible Grouping Text

-- ============================================================= the input

/-- A judged cell, as far as the evaluator reads it. -/
structure ComparisonRecord where
  matrixId : String
  claimFeatureId : String
  candidateId : String
  judgment : String
  deriving DecidableEq

def FeatureComparison.record (c : FeatureComparison) : ComparisonRecord :=
  { matrixId := c.matrixId
    claimFeatureId := c.claimFeatureId
    candidateId := c.candidateId
    judgment := c.judgment }

inductive RiskLevel
  | unknown
  | highNoveltyRisk
  | inventivenessRisk
  | clearDifference
  deriving DecidableEq

/-- The evaluator's answer; the optional entries are the ones that only
one of its two shapes has. -/
structure MatrixEvaluation where
  riskLevel : RiskLevel
  summary : String
  candidateNature : Bool
  disclaimer : String
  highRiskCandidates : Option (List String)
  partialRiskCandidates : Option (List String)
  coveredFeaturesCount : Option Nat
  totalFeaturesCount : Nat
  totalCandidatesCount : Option Nat
  deriving DecidableEq

/-- `CANDIDATE_DISCLAIMER`. -/
def candidateDisclaimer : String :=
  "本判断仅基于当前比对矩阵的公开/等同计数，未经过日期门禁、优先权核验与引文核验，"
    ++ "不构成专利性结论或授权前景意见。"

-- =============================================================== counting

/-- What the counts of a candidate say: every feature disclosed
identically, every feature covered, some covered, none. -/
inductive Coverage
  | identical
  | covering
  | some (covered : Nat)
  | none
  deriving DecidableEq

def coverage (totalFeatures : Nat) (judgments : List String) : Coverage :=
  let identicalCount := judgments.count "identical"
  let equivCount := judgments.count "equivalent"
  if identicalCount = totalFeatures then .identical
  else if identicalCount + equivCount = totalFeatures then .covering
  else if 0 < identicalCount + equivCount then
    .some (identicalCount + equivCount)
  else .none

/-- A publication and its coverage. -/
abbrev Standing := String × Coverage

/-- The standing of each candidate, in candidate order. -/
def standings (totalFeatures : Nat) (candidates : List SearchCandidate)
    (comparisons : List ComparisonRecord) : List Standing :=
  let candMap := groupBy ComparisonRecord.candidateId comparisons
  candidates.map fun cand =>
    (cand.publicationNumber, coverage totalFeatures
      ((candMap.getD cand.id []).map ComparisonRecord.judgment))

/-- The entry in `high_risk_candidates`. -/
def highRiskEntry (s : Standing) : Option String :=
  match s.2 with
  | .identical => some (s.1 ++ " (全部特征完全公开)")
  | .covering => some (s.1 ++ " (等同覆盖全部特征)")
  | _ => none

/-- The entry in `partial_risk_candidates`. -/
def partialRiskEntry (totalFeatures : Nat) (s : Standing) : Option String :=
  match s.2 with
  | .some covered => some (s.1 ++ " (公开 " ++ toString covered ++ "/"
      ++ toString totalFeatures ++ " 项特征)")
  | _ => none

-- ================================================================ reading

def riskLevel (high part : List String) : RiskLevel :=
  if high ≠ [] then .highNoveltyRisk
  else if part ≠ [] then .inventivenessRisk
  else .clearDifference

def summaryOfEntries (high part : List String) : String :=
  if high ≠ [] then
    "【候选提示·新颖性需重点核查】：按当前矩阵计数，对比文件 " ++ join ", " high
      ++ "覆盖了本申请权利要求的全部技术特征。是否真正破坏新颖性，取决于这些文件是否构成现有技术"
      ++ "（日期门禁）及其引文是否经核验——本环节尚未判定，不得据此认定新颖性丧失。"
  else if part ≠ [] then
    "【候选提示·创造性需重点论证】：按当前矩阵计数，对比文件 " ++ join ", " (part.take 3)
      ++ "分别公开了部分技术特征。多篇结合是否存在技术启示、是否产生预料不到的技术效果，"
      ++ "须按三步法另行论证；本环节仅完成计数，不构成创造性判断。"
  else
    "【候选提示·未发现全覆盖的对比文件】：按当前矩阵计数，检索到的对比文件与本申请各项特征均存在差异。"
      ++ "这**不表示**具备专利性或授权前景——检索范围、日期门禁与优先权核验均可能改变这一计数结果。"

/-- The summary of a list of standings. -/
def summaryText (totalFeatures : Nat) (l : List Standing) : String :=
  summaryOfEntries (l.filterMap highRiskEntry)
    (l.filterMap (partialRiskEntry totalFeatures))

/-- `evaluate_matrix`. -/
def evaluateMatrix (features : List ClaimFeature)
    (candidates : List SearchCandidate)
    (comparisons : List ComparisonRecord) : MatrixEvaluation :=
  if features = [] ∨ candidates = [] ∨ comparisons = [] then
    { riskLevel := .unknown
      summary := "尚未生成完整的对比数据，无法给出任何候选判断。"
      candidateNature := true
      disclaimer := candidateDisclaimer
      highRiskCandidates := none
      partialRiskCandidates := none
      coveredFeaturesCount := some 0
      totalFeaturesCount := features.length
      totalCandidatesCount := none }
  else
    let l := standings features.length candidates comparisons
    let high := l.filterMap highRiskEntry
    let part := l.filterMap (partialRiskEntry features.length)
    { riskLevel := riskLevel high part
      summary := summaryText features.length l
      candidateNature := true
      disclaimer := candidateDisclaimer
      highRiskCandidates := some high
      partialRiskCandidates := some part
      coveredFeaturesCount := none
      totalFeaturesCount := features.length
      totalCandidatesCount := some candidates.length }

-- ======================================================== what they depend on

/-- Which of the two counts a judgment goes to, if any. -/
def countedAs (judgment : String) : Option Bool :=
  if judgment = "identical" then some true
  else if judgment = "equivalent" then some false
  else none

theorem count_identical (l : List String) :
    l.count "identical" = (l.map countedAs).count (some true) := by
  rw [List.count_eq_countP, List.count_eq_countP, List.countP_map]
  refine List.countP_congr fun judgment _ => ?_
  unfold countedAs
  grind

theorem count_equivalent (l : List String) :
    l.count "equivalent" = (l.map countedAs).count (some false) := by
  rw [List.count_eq_countP, List.count_eq_countP, List.countP_map]
  refine List.countP_congr fun judgment _ => ?_
  unfold countedAs
  grind

/-- Coverage counts judgments, in any order. -/
theorem coverage_perm {totalFeatures : Nat} {l l' : List String}
    (h : (l.map countedAs).Perm (l'.map countedAs)) :
    coverage totalFeatures l = coverage totalFeatures l' := by
  unfold coverage
  rw [count_identical, count_equivalent, h.count_eq, h.count_eq,
    ← count_identical, ← count_equivalent]

theorem standings_eq (totalFeatures : Nat) (candidates : List SearchCandidate)
    (comparisons : List ComparisonRecord) :
    standings totalFeatures candidates comparisons
      = candidates.map fun cand =>
          (cand.publicationNumber, coverage totalFeatures
            ((comparisons.filter fun c => c.candidateId = cand.id).map
              ComparisonRecord.judgment)) := by
  unfold standings
  apply List.map_congr_left
  intro cand _
  have hgroup : (groupBy ComparisonRecord.candidateId comparisons).getD
      cand.id [] = comparisons.filter fun c => c.candidateId = cand.id := by
    rw [Dict.getD, get?_groupBy]
    split
    · rfl
    · next hnone =>
        symm
        apply List.filter_eq_nil_iff.mpr
        intro c hc heq
        rw [decide_eq_true_eq] at heq
        exact hnone (List.mem_map.mpr ⟨c, hc, heq⟩)
  rw [hgroup]

/-- Every feature is covered. -/
def Coverage.full : Coverage → Bool
  | .identical => true
  | .covering => true
  | _ => false

/-- Some features are covered, not all. -/
def Coverage.part : Coverage → Bool
  | .some _ => true
  | _ => false

/-- A judgment that counts. -/
def Covering (judgment : String) : Prop :=
  judgment = "identical" ∨ judgment = "equivalent"

instance (judgment : String) : Decidable (Covering judgment) :=
  inferInstanceAs (Decidable (_ ∨ _))

theorem countP_covering (l : List String) :
    l.countP (fun judgment => decide (Covering judgment))
      = l.count "identical" + l.count "equivalent" := by
  induction l with
  | nil => rfl
  | cons judgment l ih =>
      rw [List.countP_cons, ih, List.count_cons, List.count_cons]
      by_cases hidentical : judgment = "identical"
      · subst hidentical
        simp [Covering]
        omega
      · by_cases hequivalent : judgment = "equivalent"
        · subst hequivalent
          simp [Covering]
          omega
        · simp [Covering, hidentical, hequivalent]

/-- Of one judgment for each feature: every feature is covered. -/
theorem full_coverage_iff {totalFeatures : Nat} {l : List String}
    (h : l.length = totalFeatures) :
    (coverage totalFeatures l).full = true ↔ ∀ judgment ∈ l, Covering judgment := by
  have hcount := List.countP_eq_length
    (p := fun judgment => decide (Covering judgment)) (l := l)
  simp only [decide_eq_true_eq] at hcount
  rw [← hcount, countP_covering, h, coverage]
  have hle : l.count "identical" + l.count "equivalent" ≤ totalFeatures := by
    rw [← countP_covering, ← h]
    exact List.countP_le_length
  split
  · exact iff_of_true rfl (by omega)
  split
  · next hsum => exact iff_of_true rfl hsum
  · next hsum => split <;> exact iff_of_false Bool.noConfusion hsum

/-- And some are, not all. -/
theorem part_coverage_iff {totalFeatures : Nat} {l : List String}
    (h : l.length = totalFeatures) :
    (coverage totalFeatures l).part = true
      ↔ (∃ judgment ∈ l, Covering judgment)
        ∧ ¬ ∀ judgment ∈ l, Covering judgment := by
  have hcount := List.countP_pos_iff
    (p := fun judgment => decide (Covering judgment)) (l := l)
  simp only [decide_eq_true_eq] at hcount
  rw [← hcount, countP_covering, ← full_coverage_iff h, coverage]
  split
  · exact iff_of_false Bool.noConfusion fun hpart => hpart.2 rfl
  split
  · exact iff_of_false Bool.noConfusion fun hpart => hpart.2 rfl
  split
  · next hsome => exact iff_of_true rfl ⟨hsome, Bool.noConfusion⟩
  · next hnone => exact iff_of_false Bool.noConfusion fun hpart => hnone hpart.1

/-- The standings a summary is made of: those that cover every feature
or, when there is none, the first three that cover some. -/
def decisive (l : List Standing) : List Standing :=
  if l.filter (fun s => s.2.full) ≠ [] then l.filter fun s => s.2.full
  else (l.filter fun s => s.2.part).take 3

theorem isSome_highRiskEntry (s : Standing) :
    (highRiskEntry s).isSome = s.2.full := by
  obtain ⟨pub, c⟩ := s
  cases c <;> rfl

theorem isSome_partialRiskEntry (totalFeatures : Nat) (s : Standing) :
    (partialRiskEntry totalFeatures s).isSome = s.2.part := by
  obtain ⟨pub, c⟩ := s
  cases c <;> rfl

/-- Of the partly covering candidates the summary names three. -/
theorem summaryOfEntries_take (part : List String) :
    summaryOfEntries [] (part.take 3) = summaryOfEntries [] part := by
  cases part with
  | nil => rfl
  | cons entry rest =>
      have htake : ((entry :: rest).take 3).take 3 = (entry :: rest).take 3 := by
        rw [List.take_take]
        rfl
      unfold summaryOfEntries
      rw [htake]
      rfl

/-- The summary depends on the decisive standings alone. -/
theorem summaryText_decisive (totalFeatures : Nat) (l : List Standing) :
    summaryText totalFeatures (decisive l) = summaryText totalFeatures l := by
  have hhigh := filterMap_filter_of_kept
    (fun s hs => (isSome_highRiskEntry s).symm.trans hs) l
  unfold decisive
  by_cases hfull : l.filter (fun s => s.2.full) = []
  · -- nobody covers everything: both summaries read the first three entries
    have hnone : ∀ l' : List Standing, l' ⊆ l →
        l'.filterMap highRiskEntry = [] := by
      intro l' hsub
      apply List.filterMap_eq_nil_iff.mpr
      intro s hs
      have hnot := List.filter_eq_nil_iff.mp hfull s (hsub hs)
      rw [← isSome_highRiskEntry] at hnot
      simpa using hnot
    have hpart : (((l.filter fun s => s.2.part).take 3).filterMap
        (partialRiskEntry totalFeatures))
          = (l.filterMap (partialRiskEntry totalFeatures)).take 3 := by
      have hsome : ∀ s ∈ l.filter fun s => s.2.part,
          (partialRiskEntry totalFeatures s).isSome = true := fun s hs =>
        (isSome_partialRiskEntry totalFeatures s).trans (List.mem_filter.mp hs).2
      rw [← take_filterMap_of_isSome hsome, filterMap_filter_of_kept fun s hs =>
        (isSome_partialRiskEntry totalFeatures s).symm.trans hs]
    rw [if_neg (by simpa using hfull)]
    unfold summaryText
    rw [hnone l (List.Subset.refl l), hnone _ fun s hs =>
      (List.mem_filter.mp (List.mem_of_mem_take hs)).1, hpart]
    exact summaryOfEntries_take _
  · have hne : l.filterMap highRiskEntry ≠ [] := by
      rw [← hhigh]
      obtain ⟨s, hs⟩ := List.exists_mem_of_ne_nil _ hfull
      have hsome := (List.mem_filter.mp hs).2
      rw [← isSome_highRiskEntry] at hsome
      obtain ⟨entry, hentry⟩ := Option.isSome_iff_exists.mp hsome
      exact List.ne_nil_of_mem (List.mem_filterMap.mpr ⟨s, hs, hentry⟩)
    rw [if_pos hfull]
    unfold summaryText summaryOfEntries
    rw [hhigh, if_pos hne, if_pos hne]

/-- What the evaluator makes of a cell. -/
def ComparisonRecord.counted (r : ComparisonRecord) : String × Option Bool :=
  (r.candidateId, countedAs r.judgment)

/-- Cells that count alike evaluate alike. -/
theorem evaluateMatrix_congr (features : List ClaimFeature)
    (candidates : List SearchCandidate)
    {comparisons comparisons' : List ComparisonRecord}
    (h : comparisons.map ComparisonRecord.counted
      = comparisons'.map ComparisonRecord.counted) :
    evaluateMatrix features candidates comparisons
      = evaluateMatrix features candidates comparisons' := by
  have hcounts (id : String) (comparisons : List ComparisonRecord) :
      (((comparisons.filter fun c => c.candidateId = id).map
          ComparisonRecord.judgment).map countedAs)
        = ((comparisons.map ComparisonRecord.counted).filter fun c =>
          c.1 = id).map Prod.snd := by
    rw [List.filter_map, List.map_map, List.map_map]
    rfl
  have hstandings : standings features.length candidates comparisons
      = standings features.length candidates comparisons' := by
    rw [standings_eq, standings_eq]
    refine List.map_congr_left fun d _ => ?_
    refine congrArg (Prod.mk d.publicationNumber) (coverage_perm ?_)
    rw [hcounts, hcounts, h]
  have hnil : comparisons = [] ↔ comparisons' = [] := by
    rw [← List.map_eq_nil_iff, h, List.map_eq_nil_iff]
  unfold evaluateMatrix
  simp only [hnil, hstandings]

/-- Two inputs with the same number of features and the same decisive
standings have one summary. -/
theorem summary_eq_of_decisive {features : List ClaimFeature}
    {candidates candidates' : List SearchCandidate}
    {comparisons comparisons' : List ComparisonRecord}
    (hc : candidates ≠ []) (hc' : candidates' ≠ [])
    (hr : comparisons ≠ []) (hr' : comparisons' ≠ [])
    (h : decisive (standings features.length candidates comparisons)
      = decisive (standings features.length candidates' comparisons')) :
    (evaluateMatrix features candidates comparisons).summary
      = (evaluateMatrix features candidates' comparisons').summary := by
  unfold evaluateMatrix
  by_cases hf : features = []
  · rw [if_pos (.inl hf), if_pos (.inl hf)]
  · rw [if_neg (by simp [hf, hc, hr]), if_neg (by simp [hf, hc', hr'])]
    show summaryText _ _ = summaryText _ _
    rw [← summaryText_decisive, h, summaryText_decisive]

end PatentEvidence.Cases
