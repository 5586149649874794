/-
When the source coverage is a coverage.

`assess_evidence_completeness` divides a number of citations by a number of
cells. Cells are distinct and citations are not: a second citation of a
cell counts again, and so does one of a cell that has no row. These surplus
citations fill in for cells without any: the quotient is a ratio that
reaches 1 only when every cell is cited iff there are none of them, or
fewer than there are uncited cells (`coverage_is_ratio_iff`). Without rows
the denominator counts the citations, and nothing can go wrong.
-/
import Mathlib.Algebra.Order.Field.Basic
import Mathlib.Algebra.Order.Field.Rat
import Mathlib.Data.List.Dedup
import PatentEvidence.Assessment.Proofs.Completeness

namespace PatentEvidence.Assessment

-- ======================================================== cells and counts

def FeatureComparisonRow.cell (row : FeatureComparisonRow) : String × String :=
  (row.docId, row.featureCode)

def EvidenceCitation.cell (c : EvidenceCitation) : String × String :=
  (c.docId, c.featureCode)

/-- The declared cells. -/
def declaredCells (rows : List FeatureComparisonRow) : List (String × String) :=
  (rows.map FeatureComparisonRow.cell).dedup

/-- The cells of the verified citations with a position and a quotation. -/
def verifiedCells (citations : List EvidenceCitation) :
    List (String × String) :=
  (citations.filter fun c => c.verified && c.located).map EvidenceCitation.cell

/-- The declared cells that have one. -/
def supportedCells (rows : List FeatureComparisonRow)
    (citations : List EvidenceCitation) : List (String × String) :=
  (declaredCells rows).filter fun cell => cell ∈ verifiedCells citations

/-- The declared cells that have none. -/
def uncited (rows : List FeatureComparisonRow)
    (citations : List EvidenceCitation) : Nat :=
  ((declaredCells rows).filter fun cell =>
    cell ∉ verifiedCells citations).length

/-- The verified citations that repeat a cell or name one without a row. -/
def surplus (rows : List FeatureComparisonRow)
    (citations : List EvidenceCitation) : Nat :=
  (verifiedCells citations).length - (supportedCells rows citations).length

section Counts

variable {rows : List FeatureComparisonRow} {citations : List EvidenceCitation}

theorem mem_verifiedCells {cell : String × String} :
    cell ∈ verifiedCells citations
      ↔ ∃ c ∈ citations, c.Sound ∧ c.cell = cell := by
  simp only [verifiedCells, List.mem_map, List.mem_filter, Bool.and_eq_true,
    located_iff, EvidenceCitation.Sound, and_assoc]

/-- Each supported cell has a citation of its own. -/
theorem length_supportedCells_le :
    (supportedCells rows citations).length
      ≤ (verifiedCells citations).length := by
  have hnodup : (supportedCells rows citations).Nodup :=
    (List.nodup_dedup _).filter _
  refine (List.subperm_of_subset hnodup fun cell hcell => ?_).length_le
  exact of_decide_eq_true (List.mem_filter.mp hcell).2

theorem length_declaredCells :
    (declaredCells rows).length
      = (supportedCells rows citations).length + uncited rows citations := by
  have h := List.length_eq_countP_add_countP
    (fun cell => decide (cell ∈ verifiedCells citations)) (l := declaredCells rows)
  rw [List.countP_eq_length_filter, List.countP_eq_length_filter] at h
  rw [h, supportedCells, uncited]
  simp

/-- No cell is without a citation iff every row has one. -/
theorem uncited_eq_zero_iff :
    uncited rows citations = 0
      ↔ ∀ row ∈ rows, ∃ c ∈ citations, c.Sound ∧ c.Cites row := by
  rw [uncited, List.length_eq_zero_iff, List.filter_eq_nil_iff]
  simp only [declaredCells, List.mem_dedup, List.forall_mem_map,
    decide_not, Bool.not_eq_true', decide_eq_false_iff_not, not_not,
    mem_verifiedCells, EvidenceCitation.cell, FeatureComparisonRow.cell,
    Prod.mk.injEq, EvidenceCitation.Cites]

end Counts

-- =========================================================== the quotient

/-- A ratio, and 1 only where every declared cell has a verified citation. -/
structure CoverageIsRatio (rows : List FeatureComparisonRow)
    (citations : List EvidenceCitation) (coverage : Rat) : Prop where
  nonneg : 0 ≤ coverage
  le_one : coverage ≤ 1
  full : coverage = 1 → ∀ row ∈ rows, ∃ c ∈ citations, c.Sound ∧ c.Cites row

section Coverage

variable {rows : List FeatureComparisonRow} {totalFeatures : Int}
  {documents : List CandidateDocument} {citations : List EvidenceCitation}
  {runs : List DataSourceRun} {status : Dict String Date}

/-- The denominator, with its two fallbacks. -/
def coverageDenominator (rows : List FeatureComparisonRow)
    (totalFeatures : Int) (documents : List CandidateDocument)
    (citations : List EvidenceCitation) : Int :=
  if (declaredCells rows).length ≠ 0 then (declaredCells rows).length
  else if citations.length ≠ 0 then citations.length
  else max (totalFeatures * documents.length) 1

theorem coverageDenominator_pos :
    0 < coverageDenominator rows totalFeatures documents citations := by
  unfold coverageDenominator
  split
  · omega
  · split
    · omega
    · exact lt_of_lt_of_le one_pos (le_max_right _ _)

theorem sourceCoverage_eq :
    (assessEvidenceCompleteness rows totalFeatures documents citations runs
        status).sourceCoverage
      = ((verifiedCells citations).length : Rat)
        / coverageDenominator rows totalFeatures documents citations := by
  rw [verifiedCells, List.length_map]
  rfl

/-- Without rows the citations are counted by themselves. -/
theorem length_verifiedCells_le (hrows : rows = []) :
    ((verifiedCells citations).length : Int)
      ≤ coverageDenominator rows totalFeatures documents citations := by
  have hle : (verifiedCells citations).length ≤ citations.length := by
    rw [verifiedCells, List.length_map]
    exact List.length_filter_le ..
  have hone : 0 < coverageDenominator rows totalFeatures documents citations :=
    coverageDenominator_pos
  rw [hrows] at hone ⊢
  unfold coverageDenominator at hone ⊢
  have hnone : ¬ (declaredCells []).length ≠ 0 := by decide
  rw [if_neg hnone] at hone ⊢
  split at hone
  · next hcitations =>
      rw [if_pos hcitations]
      omega
  · next hcitations => omega

/-- The quotient is a coverage iff it has no surplus citations to fill in
for uncited cells. -/
theorem coverage_is_ratio_iff (rows : List FeatureComparisonRow)
    (totalFeatures : Int) (documents : List CandidateDocument)
    (citations : List EvidenceCitation) (runs : List DataSourceRun)
    (status : Dict String Date) :
    CoverageIsRatio rows citations
        (assessEvidenceCompleteness rows totalFeatures documents citations runs
          status).sourceCoverage
      ↔ rows = [] ∨ surplus rows citations = 0
        ∨ surplus rows citations < uncited rows citations := by
  have hpos : (0 : Rat)
      < coverageDenominator rows totalFeatures documents citations :=
    Int.cast_pos.mpr coverageDenominator_pos
  have hle : ((verifiedCells citations).length : Rat)
        / coverageDenominator rows totalFeatures documents citations ≤ 1
      ↔ ((verifiedCells citations).length : Int)
        ≤ coverageDenominator rows totalFeatures documents citations := by
    rw [div_le_one hpos]
    exact_mod_cast Iff.rfl
  have heq : ((verifiedCells citations).length : Rat)
        / coverageDenominator rows totalFeatures documents citations = 1
      ↔ ((verifiedCells citations).length : Int)
        = coverageDenominator rows totalFeatures documents citations := by
    rw [div_eq_one_iff_eq hpos.ne']
    exact_mod_cast Iff.rfl
  have hnonneg : (0 : Rat) ≤ (verifiedCells citations).length
      / coverageDenominator rows totalFeatures documents citations :=
    div_nonneg (Nat.cast_nonneg _) hpos.le
  rw [sourceCoverage_eq]
  by_cases hrows : rows = []
  · refine iff_of_true ⟨hnonneg, hle.mpr (length_verifiedCells_le hrows), ?_⟩
      (Or.inl hrows)
    rw [hrows]
    exact fun _ row hrow => nomatch hrow
  · have hcells : (declaredCells rows).length ≠ 0 := by
      obtain ⟨row, hrow⟩ := List.exists_mem_of_ne_nil rows hrows
      exact (List.length_pos_of_mem
        (List.mem_dedup.mpr (List.mem_map_of_mem hrow))).ne'
    have hdenominator : coverageDenominator rows totalFeatures documents
        citations = (declaredCells rows).length := if_pos hcells
    have hsupported : (supportedCells rows citations).length
        ≤ (verifiedCells citations).length := length_supportedCells_le
    have hdeclared : (declaredCells rows).length
        = (supportedCells rows citations).length + uncited rows citations :=
      length_declaredCells
    rw [hdenominator] at hle heq hnonneg ⊢
    constructor
    · rintro ⟨-, hone, hfull⟩
      have hbound := hle.mp hone
      rw [surplus]
      refine Or.inr ?_
      by_cases hall : (verifiedCells citations).length
          = (declaredCells rows).length
      · have huncited := uncited_eq_zero_iff.mpr
          (hfull (heq.mpr (by rw [hall])))
        omega
      · omega
    · rintro (hnil | hsurplus)
      · exact absurd hnil hrows
      · rw [surplus] at hsurplus
        refine ⟨hnonneg, hle.mpr (by omega), fun hone => ?_⟩
        have hall := heq.mp hone
        exact uncited_eq_zero_iff.mp (by omega)

end Coverage

/-- One cell of two is cited, twice. -/
theorem twice_cited_cell :
    ¬ CoverageIsRatio
      [{ featureCode := "F1", docId := "D1", judgment := "identical" },
        { featureCode := "F2", docId := "D1", judgment := "identical" }]
      (List.replicate 2
        { docId := "D1", featureCode := "F1", location := "[0012]"
          quote := "a quotation", verified := true })
      (assessEvidenceCompleteness
        [{ featureCode := "F1", docId := "D1", judgment := "identical" },
          { featureCode := "F2", docId := "D1", judgment := "identical" }]
        2 [] (List.replicate 2
          { docId := "D1", featureCode := "F1", location := "[0012]"
            quote := "a quotation", verified := true }) [] .empty).sourceCoverage := by
  intro h
  obtain ⟨c, hc, -, -, hcode⟩ := h.full (by decide +kernel)
    { featureCode := "F2", docId := "D1", judgment := "identical" } (by simp)
  rw [List.eq_of_mem_replicate hc] at hcode
  exact absurd hcode (by decide)

end PatentEvidence.Assessment
