/-
The coverage gates against what they are for: a finding for each document,
or pair of documents, that discloses every feature.

The gates count distinct codes. The codes a document discloses are some of
the features, so as many of them as there are features are all of them
(`length_eq_iff_subset`). A combination keeps one judgment for each
feature, the best of the two documents' (`best_of_bestCells`); the two
covering judgments are the two best, so a feature is covered by the pair
iff a row of either covers it.

What a finding says about which documents (`outcome`) is then a function of
the set of the rows, and the documents are visited in ascending order, so
the order of the rows does not come into it.

# Sections

- disclosure;
- what a finding says;
- novelty;
- combination;
- the findings and the coverage.
-/
import Mathlib.Data.Finset.Insert
import PatentEvidence.Assessment.Proofs.Gate

namespace PatentEvidence.Assessment

open Grouping

-- =========================================================== disclosure

/-- A row of the document judges the feature so. -/
def Discloses (judgments : List String) (rows : List FeatureComparisonRow)
    (docId code : String) : Prop :=
  ∃ row ∈ rows, row.docId = docId ∧ row.featureCode = code
    ∧ row.judgment ∈ judgments

/-- The document discloses every feature of the rows. -/
def DisclosesAll (judgments : List String) (rows : List FeatureComparisonRow)
    (docId : String) : Prop :=
  ∀ row ∈ rows, Discloses judgments rows docId row.featureCode

/-- One of the documents covers every feature of the rows, feature by
feature. -/
def CoverAll (rows : List FeatureComparisonRow) (first second : String) :
    Prop :=
  ∀ row ∈ rows, Discloses coveringJudgments rows first row.featureCode
    ∨ Discloses coveringJudgments rows second row.featureCode

instance (judgments : List String) (rows : List FeatureComparisonRow)
    (docId code : String) : Decidable (Discloses judgments rows docId code) :=
  inferInstanceAs (Decidable (∃ row ∈ rows, _))

instance (judgments : List String) (rows : List FeatureComparisonRow)
    (docId : String) : Decidable (DisclosesAll judgments rows docId) :=
  inferInstanceAs (Decidable (∀ row ∈ rows, _))

instance (rows : List FeatureComparisonRow) (first second : String) :
    Decidable (CoverAll rows first second) :=
  inferInstanceAs (Decidable (∀ row ∈ rows, _))

/-- The number of features of the rows. -/
def featureCount (rows : List FeatureComparisonRow) : Nat :=
  (rows.map FeatureComparisonRow.featureCode).dedup.length

/-- Distinct items of a list are as many as its distinct items iff they are
all of them. -/
theorem length_eq_iff_subset {a b : List String} (ha : a.Nodup)
    (hsub : a ⊆ b) : a.length = b.dedup.length ↔ b ⊆ a := by
  have hsubperm : a.Subperm b.dedup :=
    List.subperm_of_subset ha fun c hc => List.mem_dedup.mpr (hsub hc)
  constructor
  · intro h c hc
    exact (hsubperm.perm_of_length_le h.ge).mem_iff.mpr (List.mem_dedup.mpr hc)
  · intro h
    refine Nat.le_antisymm hsubperm.length_le ?_
    refine (List.subperm_of_subset b.nodup_dedup fun c hc => ?_).length_le
    exact h (List.mem_dedup.mp hc)

section Disclosure

variable {rows : List FeatureComparisonRow} {judgments : List String}
  {docId code : String}

theorem discloses_iff_rowsOf :
    Discloses judgments rows docId code ↔ ∃ row ∈ rowsOf rows docId,
      row.featureCode = code ∧ row.judgment ∈ judgments := by
  simp only [Discloses, List.mem_filter, decide_eq_true_eq, and_assoc]

theorem mem_codesJudged :
    code ∈ codesJudged judgments (rowsOf rows docId)
      ↔ Discloses judgments rows docId code := by
  rw [discloses_iff_rowsOf, codesJudged, List.mem_dedup, List.mem_map]
  constructor
  · rintro ⟨row, hrow, hcode⟩
    obtain ⟨hrow, hjudgment⟩ := List.mem_filter.mp hrow
    exact ⟨row, hrow, hcode, of_decide_eq_true hjudgment⟩
  · rintro ⟨row, hrow, hcode, hjudgment⟩
    exact ⟨row, List.mem_filter.mpr ⟨hrow, decide_eq_true hjudgment⟩, hcode⟩

/-- Counting the codes a document discloses. -/
theorem length_codesJudged_eq_iff :
    (codesJudged judgments (rowsOf rows docId)).length = featureCount rows
      ↔ DisclosesAll judgments rows docId := by
  have hnodup : (codesJudged judgments (rowsOf rows docId)).Nodup :=
    List.nodup_dedup _
  rw [featureCount, length_eq_iff_subset hnodup ?_]
  · constructor
    · intro h row hrow
      exact mem_codesJudged.mp (h (List.mem_map_of_mem hrow))
    · intro h c hc
      obtain ⟨row, hrow, rfl⟩ := List.mem_map.mp hc
      exact mem_codesJudged.mpr (h row hrow)
  · intro c hc
    obtain ⟨row, hrow, -, rfl, -⟩ := mem_codesJudged.mp hc
    exact List.mem_map_of_mem hrow

theorem mem_covering_iff {judgment : String} :
    judgment ∈ coveringJudgments ↔ 2 ≤ judgmentPrecedence judgment := by
  rw [coveringJudgments, judgmentPrecedence, List.mem_cons, List.mem_singleton]
  split_ifs with h h' <;> simp [*]

/-- The better of a judgment and the one of a cell. -/
def better (judgment : String) : Option String → String
  | none => judgment
  | some previous =>
      if judgmentPrecedence previous < judgmentPrecedence judgment then judgment
      else previous

/-- One row touches the cell of its feature only. -/
theorem get?_bestCells_concat (pairRows : List FeatureComparisonRow)
    (last : FeatureComparisonRow) (code : String) :
    (bestCells (pairRows ++ [last])).get? code
      = if code = last.featureCode then
          some (better last.judgment ((bestCells pairRows).get? code))
        else (bestCells pairRows).get? code := by
  rw [bestCells, List.foldl_append, List.foldl_cons, List.foldl_nil,
    ← bestCells]
  cases hcell : (bestCells pairRows).get? last.featureCode with
  | none =>
      dsimp only
      rw [Dict.get?_set]
      split
      · next h => rw [h, hcell, better]
      · rfl
  | some previous =>
      dsimp only
      by_cases hlt : judgmentPrecedence previous
          < judgmentPrecedence last.judgment
      · rw [if_pos hlt, Dict.get?_set]
        split
        · next h => rw [h, hcell, better, if_pos hlt]
        · rfl
      · rw [if_neg hlt]
        split
        · next h => rw [h, hcell, better, if_neg hlt]
        · rfl

/-- A cell holds a judgment of its feature, and no row has a better one. -/
def IsBest (pairRows : List FeatureComparisonRow) (code : String) :
    Option String → Prop
  | none => ∀ row ∈ pairRows, row.featureCode ≠ code
  | some judgment =>
      (∃ row ∈ pairRows, row.featureCode = code ∧ row.judgment = judgment)
        ∧ ∀ row ∈ pairRows, row.featureCode = code →
          judgmentPrecedence row.judgment ≤ judgmentPrecedence judgment

theorem IsBest.concat_of_ne {pairRows : List FeatureComparisonRow}
    {last : FeatureComparisonRow} {cell : Option String}
    (h : IsBest pairRows code cell) (hne : last.featureCode ≠ code) :
    IsBest (pairRows ++ [last]) code cell := by
  cases cell with
  | none =>
      intro row hrow
      rcases List.mem_append.mp hrow with hrow | hrow
      · exact h row hrow
      · rw [List.mem_singleton.mp hrow]
        exact hne
  | some judgment =>
      obtain ⟨⟨row, hrow, hcode, hjudgment⟩, hbest⟩ := h
      refine ⟨⟨row, List.mem_append_left _ hrow, hcode, hjudgment⟩,
        fun row' hrow' hcode' => ?_⟩
      rcases List.mem_append.mp hrow' with hrow' | hrow'
      · exact hbest row' hrow' hcode'
      · rw [List.mem_singleton.mp hrow'] at hcode'
        exact absurd hcode' hne

theorem IsBest.concat {pairRows : List FeatureComparisonRow}
    {last : FeatureComparisonRow} {cell : Option String}
    (h : IsBest pairRows last.featureCode cell) :
    IsBest (pairRows ++ [last]) last.featureCode
      (some (better last.judgment cell)) := by
  have hlast : last ∈ pairRows ++ [last] :=
    List.mem_append_right _ (List.mem_singleton_self _)
  cases cell with
  | none =>
      refine ⟨⟨last, hlast, rfl, rfl⟩, fun row hrow hcode => ?_⟩
      rcases List.mem_append.mp hrow with hrow | hrow
      · exact absurd hcode (h row hrow)
      · rw [List.mem_singleton.mp hrow, better]
  | some previous =>
      obtain ⟨⟨row, hrow, hcode, hjudgment⟩, hbest⟩ := h
      rw [better]
      split
      · next hlt =>
          refine ⟨⟨last, hlast, rfl, rfl⟩, fun row' hrow' hcode' => ?_⟩
          rcases List.mem_append.mp hrow' with hrow' | hrow'
          · exact (hbest row' hrow' hcode').trans hlt.le
          · rw [List.mem_singleton.mp hrow']
      · next hnot =>
          refine ⟨⟨row, List.mem_append_left _ hrow, hcode, hjudgment⟩,
            fun row' hrow' hcode' => ?_⟩
          rcases List.mem_append.mp hrow' with hrow' | hrow'
          · exact hbest row' hrow' hcode'
          · rw [List.mem_singleton.mp hrow']
            exact not_lt.mp hnot

theorem best_of_bestCells (pairRows : List FeatureComparisonRow)
    (code : String) :
    IsBest pairRows code ((bestCells pairRows).get? code) := by
  induction pairRows using List.reverseRecOn with
  | nil => exact fun _ h => nomatch h
  | append_singleton pairRows last ih =>
      rw [get?_bestCells_concat]
      by_cases hcode : code = last.featureCode
      · rw [if_pos hcode, hcode]
        exact IsBest.concat (hcode ▸ ih)
      · rw [if_neg hcode]
        exact ih.concat_of_ne fun h => hcode h.symm

/-- The best judgment covers iff some judgment does. -/
theorem mem_coveredTogether {pairRows : List FeatureComparisonRow} :
    code ∈ coveredTogether pairRows ↔ ∃ row ∈ pairRows,
      row.featureCode = code ∧ row.judgment ∈ coveringJudgments := by
  have hbest := best_of_bestCells pairRows code
  rw [coveredTogether, List.mem_map]
  constructor
  · rintro ⟨⟨code', judgment⟩, hcell, rfl⟩
    obtain ⟨hin, hcovers⟩ := List.mem_filter.mp hcell
    rw [Dict.get?_of_mem_entries hin] at hbest
    obtain ⟨⟨row, hrow, hcode, hjudgment⟩, -⟩ := hbest
    exact ⟨row, hrow, hcode, hjudgment ▸ of_decide_eq_true hcovers⟩
  · rintro ⟨row, hrow, hcode, hcovers⟩
    cases hcell : (bestCells pairRows).get? code with
    | none =>
        rw [hcell] at hbest
        exact absurd hcode (hbest row hrow)
    | some judgment =>
        rw [hcell] at hbest
        have hle := hbest.2 row hrow hcode
        refine ⟨(code, judgment), List.mem_filter.mpr
          ⟨Dict.mem_entries_of_get? hcell, decide_eq_true ?_⟩, rfl⟩
        exact mem_covering_iff.mpr ((mem_covering_iff.mp hcovers).trans hle)

/-- Counting the features a pair covers. -/
theorem coverTogether_iff {first second : String} :
    CoverTogether (featureCount rows) rows first second
      ↔ CoverAll rows first second := by
  have hmem (c : String) :
      c ∈ coveredTogether (rowsOf rows first ++ rowsOf rows second)
        ↔ Discloses coveringJudgments rows first c
          ∨ Discloses coveringJudgments rows second c := by
    rw [mem_coveredTogether, discloses_iff_rowsOf, discloses_iff_rowsOf]
    simp only [List.mem_append, or_and_right, exists_or]
  have hnodup : (coveredTogether (rowsOf rows first
      ++ rowsOf rows second)).Nodup :=
    (bestCells _).nodup.sublist (List.filter_sublist.map Prod.fst)
  rw [CoverTogether, Int.ofNat_inj, featureCount,
    length_eq_iff_subset hnodup ?_]
  · constructor
    · intro h row hrow
      exact (hmem _).mp (h (List.mem_map_of_mem hrow))
    · intro h c hc
      obtain ⟨row, hrow, rfl⟩ := List.mem_map.mp hc
      exact (hmem _).mpr (h row hrow)
  · intro c hc
    rcases (hmem c).mp hc with ⟨row, hrow, -, rfl, -⟩ | ⟨row, hrow, -, rfl, -⟩
    · exact List.mem_map_of_mem hrow
    · exact List.mem_map_of_mem hrow

end Disclosure

-- ==================================================== what a finding says

/-- The documents of the rows a finding rests on. -/
def AssessmentFinding.documents (f : AssessmentFinding) : Finset String :=
  (f.basis.filterMap fun
    | .row row => some row.docId
    | _ => none).toFinset

/-- Risk, level and documents. -/
def AssessmentFinding.outcome (f : AssessmentFinding) :
    RiskKind × RiskLevel × Finset String :=
  (f.riskKind, f.level, f.documents)

theorem mem_documents {f : AssessmentFinding} {docId : String} :
    docId ∈ f.documents ↔ ∃ row, .row row ∈ f.basis ∧ row.docId = docId := by
  rw [AssessmentFinding.documents, List.mem_toFinset, List.mem_filterMap]
  constructor
  · rintro ⟨item, hitem, hdoc⟩
    cases item with
    | row row => exact ⟨row, hitem, Option.some.inj hdoc⟩
    | reference | validClaims | invalidClaims | defaultReferenceDate =>
        cases hdoc
  · rintro ⟨row, hrow, rfl⟩
    exact ⟨.row row, hrow, rfl⟩

/-- The documents of the rows, each once, in ascending order. -/
def docIds (rows : List FeatureComparisonRow) : List String :=
  (rowsByDoc rows).keys.insertionSort (· ≤ ·)

section Outcomes

variable {rows rows' : List FeatureComparisonRow}
  {kinds : Dict String ReferenceKind} {docId : String}

theorem mem_docIds :
    docId ∈ docIds rows ↔ docId ∈ rows.map FeatureComparisonRow.docId := by
  rw [docIds, List.mem_insertionSort, rowsByDoc, mem_keys_groupBy]

theorem pairwise_docIds : (docIds rows).Pairwise (· < ·) :=
  pairwise_lt_insertionSort (rowsByDoc rows).nodup

theorem docIds_of_perm (h : rows'.Perm rows) : docIds rows' = docIds rows := by
  refine pairwise_docIds.eq_of_mem_iff pairwise_docIds fun docId => ?_
  rw [mem_docIds, mem_docIds, (h.map _).mem_iff]

-- ============================================================== novelty

/-- The document may be held against novelty. -/
def Comparable (kinds : Dict String ReferenceKind) (docId : String) : Prop :=
  kinds.get? docId = some .priorArt
    ∨ kinds.get? docId = some .conflictingApplication

instance : Decidable (Comparable kinds docId) :=
  inferInstanceAs (Decidable (_ ∨ _))

/-- What novelty has to say about a document. -/
def noveltyOutcome (rows : List FeatureComparisonRow)
    (kinds : Dict String ReferenceKind) (docId : String) :
    Option (RiskKind × RiskLevel × Finset String) :=
  if ¬ Comparable kinds docId then none
  else if DisclosesAll singleReferenceJudgments rows docId then
    some (.novelty, .highNoveltyRisk, {docId})
  else if DisclosesAll coveringJudgments rows docId then
    some (.novelty, .needsConfirmation, {docId})
  else none

/-- A document with a kind is barred or comparable. -/
theorem barred_iff_not_comparable (h : kinds.get? docId ≠ none) :
    Barred kinds docId ↔ ¬ Comparable kinds docId := by
  obtain ⟨kind, hkind⟩ := Option.ne_none_iff_exists'.mp h
  rw [Barred, Comparable, hkind]
  cases kind <;> simp

/-- The rows of a finding about one document are the document's. -/
theorem documents_of_rowsOf {f : AssessmentFinding}
    (hbasis : ∀ row, .row row ∈ f.basis ↔ row ∈ rowsOf rows docId)
    (hin : docId ∈ rows.map FeatureComparisonRow.docId) :
    f.documents = {docId} := by
  ext other
  rw [mem_documents, Finset.mem_singleton]
  constructor
  · rintro ⟨row, hrow, rfl⟩
    exact of_decide_eq_true (List.mem_filter.mp ((hbasis row).mp hrow)).2
  · rintro rfl
    obtain ⟨row, hrow, hdoc⟩ := List.mem_map.mp hin
    exact ⟨row, (hbasis row).mpr
      (List.mem_filter.mpr ⟨hrow, decide_eq_true hdoc⟩), hdoc⟩

theorem map_noveltyFinding (hkind : kinds.get? docId ≠ none)
    (hin : docId ∈ rows.map FeatureComparisonRow.docId) :
    (noveltyFinding (featureCount rows) kinds docId (rowsOf rows docId)).map
        AssessmentFinding.outcome = noveltyOutcome rows kinds docId := by
  have hdocuments (f : AssessmentFinding)
      (h : noveltyFinding (featureCount rows) kinds docId (rowsOf rows docId)
        = some f) : f.documents = {docId} :=
    documents_of_rowsOf (noveltyFinding_eq_some h).2.1 hin
  have hbarred : (kinds.get? docId = some .notUsable
      ∨ kinds.get? docId = some .unknown) ↔ ¬ Comparable kinds docId :=
    barred_iff_not_comparable hkind
  rw [noveltyOutcome]
  simp only [noveltyFinding, Int.ofNat_inj, length_codesJudged_eq_iff] at *
  by_cases hcomparable : Comparable kinds docId
  · have hnot := hbarred.not.mpr (not_not.mpr hcomparable)
    rw [if_neg hnot] at hdocuments ⊢
    rw [if_neg (not_not.mpr hcomparable)]
    by_cases hsingle : DisclosesAll singleReferenceJudgments rows docId
    · rw [if_pos hsingle] at hdocuments ⊢
      rw [if_pos hsingle, Option.map_some, AssessmentFinding.outcome,
        hdocuments _ rfl]
    · rw [if_neg hsingle] at hdocuments ⊢
      rw [if_neg hsingle]
      by_cases hcovering : DisclosesAll coveringJudgments rows docId
      · rw [if_pos hcovering] at hdocuments ⊢
        rw [if_pos hcovering, Option.map_some, AssessmentFinding.outcome,
          hdocuments _ rfl]
      · rw [if_neg hcovering, if_neg hcovering, Option.map_none]
  · rw [if_pos (hbarred.mpr hcomparable), if_pos hcomparable, Option.map_none]

/-- The documents are visited in ascending order. -/
theorem noveltyFindings_eq {totalFeatures : Int} (h : 0 < totalFeatures) :
    noveltyFindings rows totalFeatures kinds = (docIds rows).filterMap
      fun docId =>
        noveltyFinding totalFeatures kinds docId (rowsOf rows docId) := by
  have hkeys : docIds rows
      = ((rowsByDoc rows).entries.insertionSort fun a b => a.1 ≤ b.1).map
        Prod.fst :=
    (List.map_insertionSort
      (fun a b : String × List FeatureComparisonRow => a.1 ≤ b.1) (· ≤ ·)
      Prod.fst _ fun _ _ _ _ => Iff.rfl).symm
  rw [noveltyFindings, if_neg (not_le.mpr h), hkeys, List.filterMap_map]
  refine List.filterMap_congr fun entry hentry => ?_
  rw [List.mem_insertionSort, rowsByDoc, mem_entries_groupBy] at hentry
  rw [hentry.2]
  rfl

-- ========================================================== combination

/-- What the screening has to say about two documents. -/
def combinationOutcome (rows : List FeatureComparisonRow)
    (pair : String × String) :
    Option (RiskKind × RiskLevel × Finset String) :=
  if CoverAll rows pair.1 pair.2 then
    some (.inventiveCombination, .needsConfirmation, {pair.1, pair.2})
  else none

theorem map_combinationFinding {first second : String}
    (hfirst : first ∈ rows.map FeatureComparisonRow.docId)
    (hsecond : second ∈ rows.map FeatureComparisonRow.docId) :
    (combinationFinding (featureCount rows) rows first second).map
        AssessmentFinding.outcome = combinationOutcome rows (first, second) := by
  have hdocuments (f : AssessmentFinding)
      (h : combinationFinding (featureCount rows) rows first second = some f) :
      f.documents = {first, second} := by
    obtain ⟨-, hbasis, -⟩ := combinationFinding_eq_some h
    ext docId
    rw [mem_documents, Finset.mem_insert, Finset.mem_singleton]
    constructor
    · rintro ⟨row, hrow, rfl⟩
      rcases List.mem_append.mp ((hbasis row).mp hrow) with hrow | hrow
      · exact Or.inl (of_decide_eq_true (List.mem_filter.mp hrow).2)
      · exact Or.inr (of_decide_eq_true (List.mem_filter.mp hrow).2)
    · rintro (rfl | rfl)
      · obtain ⟨row, hrow, hdoc⟩ := List.mem_map.mp hfirst
        exact ⟨row, (hbasis row).mpr (List.mem_append_left _
          (List.mem_filter.mpr ⟨hrow, decide_eq_true hdoc⟩)), hdoc⟩
      · obtain ⟨row, hrow, hdoc⟩ := List.mem_map.mp hsecond
        exact ⟨row, (hbasis row).mpr (List.mem_append_right _
          (List.mem_filter.mpr ⟨hrow, decide_eq_true hdoc⟩)), hdoc⟩
  have hcover : ((coveredTogether (rowsOf rows first ++ rowsOf rows
      second)).length : Int) = featureCount rows ↔ CoverAll rows first second :=
    coverTogether_iff
  simp only [combinationFinding, rowsByDoc_getD, hcover] at hdocuments ⊢
  rw [combinationOutcome]
  by_cases hall : CoverAll rows first second
  · rw [if_pos hall] at hdocuments ⊢
    rw [if_pos hall, Option.map_some, AssessmentFinding.outcome,
      hdocuments _ rfl]
  · rw [if_neg hall, if_neg hall, Option.map_none]

theorem nodup_inventiveDocs : (inventiveDocs rows kinds).Nodup :=
  (rowsByDoc rows).nodup.filter _

theorem inventiveDocs_of_perm (h : rows'.Perm rows) :
    (inventiveDocs rows' kinds).insertionSort (· ≤ ·)
      = (inventiveDocs rows kinds).insertionSort (· ≤ ·) := by
  refine (pairwise_lt_insertionSort nodup_inventiveDocs).eq_of_mem_iff
    (pairwise_lt_insertionSort nodup_inventiveDocs) fun docId => ?_
  rw [List.mem_insertionSort, List.mem_insertionSort, mem_inventiveDocs,
    mem_inventiveDocs, (h.map _).mem_iff]

end Outcomes

-- ============================================ the findings and the coverage

/-- One finding for each document that discloses every feature, and for
each two of the prior art that cover every feature, and no other. -/
structure CoverageExact (rows : List FeatureComparisonRow)
    (kinds : Dict String ReferenceKind)
    (novelty combination : List (RiskKind × RiskLevel × Finset String)) :
    Prop where
  novelty_once : novelty.Nodup
  novelty_iff : ∀ outcome, outcome ∈ novelty ↔
    ∃ docId ∈ rows.map FeatureComparisonRow.docId, Comparable kinds docId
      ∧ ((DisclosesAll singleReferenceJudgments rows docId
          ∧ outcome = (.novelty, .highNoveltyRisk, {docId}))
        ∨ (¬ DisclosesAll singleReferenceJudgments rows docId
          ∧ DisclosesAll coveringJudgments rows docId
          ∧ outcome = (.novelty, .needsConfirmation, {docId})))
  combination_once : combination.Nodup
  combination_iff : ∀ outcome, outcome ∈ combination ↔
    ∃ first ∈ rows.map FeatureComparisonRow.docId,
      ∃ second ∈ rows.map FeatureComparisonRow.docId,
        first ≠ second ∧ kinds.get? first = some .priorArt
          ∧ kinds.get? second = some .priorArt ∧ CoverAll rows first second
          ∧ outcome
            = (.inventiveCombination, .needsConfirmation, {first, second})

section Exact

variable {rows rows' : List FeatureComparisonRow}
  {kinds : Dict String ReferenceKind}

theorem featureCount_pos {row : FeatureComparisonRow} (h : row ∈ rows) :
    0 < featureCount rows := by
  refine List.length_pos_of_mem (a := row.featureCode) ?_
  exact List.mem_dedup.mpr (List.mem_map_of_mem h)

theorem featureCount_of_perm (h : rows'.Perm rows) :
    featureCount rows' = featureCount rows :=
  (h.map FeatureComparisonRow.featureCode).dedup.length_eq

/-- The findings about novelty, as a function of the set of the rows. -/
theorem map_noveltyFindings
    (hkinds : ∀ row ∈ rows, kinds.get? row.docId ≠ none) :
    (noveltyFindings rows (featureCount rows) kinds).map
        AssessmentFinding.outcome
      = (docIds rows).filterMap (noveltyOutcome rows kinds) := by
  cases hrows : rows with
  | nil => rfl
  | cons row rest =>
      have hpos : 0 < featureCount rows :=
        featureCount_pos (hrows ▸ List.mem_cons_self)
      rw [← hrows, noveltyFindings_eq (by omega), List.map_filterMap]
      refine List.filterMap_congr fun docId hdocId => ?_
      rw [mem_docIds] at hdocId
      obtain ⟨row', hrow', rfl⟩ := List.mem_map.mp hdocId
      exact map_noveltyFinding (hkinds row' hrow') hdocId

theorem map_combinationFindings :
    (combinationFindings rows (featureCount rows) kinds).map
        AssessmentFinding.outcome
      = (pairs ((inventiveDocs rows kinds).insertionSort (· ≤ ·))).filterMap
        (combinationOutcome rows) := by
  cases hrows : rows with
  | nil => rfl
  | cons row rest =>
      have hpos : 0 < featureCount rows :=
        featureCount_pos (hrows ▸ List.mem_cons_self)
      rw [← hrows, combinationFindings, if_neg (by omega), List.map_filterMap]
      refine List.filterMap_congr fun pair hpair => ?_
      obtain ⟨hfirst, hsecond, -⟩ := mem_docPairs.mp hpair
      exact map_combinationFinding (mem_inventiveDocs.mp hfirst).1
        (mem_inventiveDocs.mp hsecond).1

/-- Two documents are the pair of one of their orders. -/
theorem exists_mem_pairs {first second : String}
    (hfirst : first ∈ inventiveDocs rows kinds)
    (hsecond : second ∈ inventiveDocs rows kinds) (hne : first ≠ second) :
    (first, second) ∈ pairs ((inventiveDocs rows kinds).insertionSort (· ≤ ·))
      ∨ (second, first)
        ∈ pairs ((inventiveDocs rows kinds).insertionSort (· ≤ ·)) := by
  rcases lt_or_gt_of_ne hne with hlt | hlt
  · exact Or.inl (mem_docPairs.mpr ⟨hfirst, hsecond, hlt⟩)
  · exact Or.inr (mem_docPairs.mpr ⟨hsecond, hfirst, hlt⟩)

theorem coverAll_comm {first second : String} :
    CoverAll rows first second ↔ CoverAll rows second first := by
  simp only [CoverAll, or_comm]

/-- A document that is compared has a kind, so it is in the screening iff it
is prior art. -/
theorem mem_inventiveDocs_iff
    (hkinds : ∀ row ∈ rows, kinds.get? row.docId ≠ none) {docId : String} :
    docId ∈ inventiveDocs rows kinds
      ↔ docId ∈ rows.map FeatureComparisonRow.docId
        ∧ kinds.get? docId = some .priorArt := by
  rw [mem_inventiveDocs]
  refine and_congr_right fun hin => ?_
  obtain ⟨row, hrow, rfl⟩ := List.mem_map.mp hin
  obtain ⟨kind, hkind⟩ := Option.ne_none_iff_exists'.mp (hkinds row hrow)
  rw [Dict.getD, hkind, Option.getD_some, Option.some.injEq]

theorem noveltyOutcome_eq_some {docId : String}
    {outcome : RiskKind × RiskLevel × Finset String} :
    noveltyOutcome rows kinds docId = some outcome ↔ Comparable kinds docId
      ∧ ((DisclosesAll singleReferenceJudgments rows docId
          ∧ outcome = (.novelty, .highNoveltyRisk, {docId}))
        ∨ (¬ DisclosesAll singleReferenceJudgments rows docId
          ∧ DisclosesAll coveringJudgments rows docId
          ∧ outcome = (.novelty, .needsConfirmation, {docId}))) := by
  rw [noveltyOutcome]
  split_ifs with hcomparable hsingle hcovering
  · simp [hcomparable, hsingle, eq_comm]
  · simp [hcomparable, hsingle, hcovering, eq_comm]
  · simp [hsingle, hcovering]
  · simp [hcomparable]

theorem combinationOutcome_eq_some {pair : String × String}
    {outcome : RiskKind × RiskLevel × Finset String} :
    combinationOutcome rows pair = some outcome ↔ CoverAll rows pair.1 pair.2
      ∧ outcome
        = (.inventiveCombination, .needsConfirmation, {pair.1, pair.2}) := by
  rw [combinationOutcome]
  split_ifs with hcover
  · simp [hcover, eq_comm]
  · simp [hcover]

theorem discloses_of_perm (h : rows'.Perm rows) (judgments : List String)
    (docId code : String) :
    Discloses judgments rows' docId code ↔ Discloses judgments rows docId code := by
  simp only [Discloses, h.mem_iff]

theorem noveltyOutcome_of_perm (h : rows'.Perm rows) :
    noveltyOutcome rows' kinds = noveltyOutcome rows kinds := by
  funext docId
  refine Option.ext fun outcome => ?_
  rw [noveltyOutcome_eq_some, noveltyOutcome_eq_some]
  simp only [DisclosesAll, discloses_of_perm h, h.mem_iff]

theorem combinationOutcome_of_perm (h : rows'.Perm rows) :
    combinationOutcome rows' = combinationOutcome rows := by
  funext pair
  refine Option.ext fun outcome => ?_
  rw [combinationOutcome_eq_some, combinationOutcome_eq_some]
  simp only [CoverAll, discloses_of_perm h, h.mem_iff]

/-- The documents of a pair give the pair back. -/
theorem pair_injective {a b c d : String} (hab : a < b) (hcd : c < d)
    (h : ({a, b} : Finset String) = {c, d}) : (a, b) = (c, d) := by
  have ha : a ∈ ({c, d} : Finset String) := h ▸ by simp
  have hb : b ∈ ({c, d} : Finset String) := h ▸ by simp
  rw [Finset.mem_insert, Finset.mem_singleton] at ha hb
  rcases ha with rfl | rfl
  · rcases hb with rfl | rfl
    · exact absurd hab (lt_irrefl _)
    · rfl
  · rcases hb with rfl | rfl
    · exact absurd (hab.trans hcd) (lt_irrefl _)
    · exact absurd hab (lt_irrefl _)

theorem nodup_noveltyOutcomes :
    ((docIds rows).filterMap (noveltyOutcome rows kinds)).Nodup := by
  refine List.Nodup.filterMap (fun d d' outcome h h' => ?_)
    (pairwise_docIds.imp fun h => ne_of_lt h)
  obtain ⟨-, h⟩ := noveltyOutcome_eq_some.mp h
  obtain ⟨-, h'⟩ := noveltyOutcome_eq_some.mp h'
  have hdocuments (d : String)
      (h : (DisclosesAll singleReferenceJudgments rows d
            ∧ outcome = (.novelty, .highNoveltyRisk, {d}))
          ∨ (¬ DisclosesAll singleReferenceJudgments rows d
            ∧ DisclosesAll coveringJudgments rows d
            ∧ outcome = (.novelty, .needsConfirmation, {d}))) :
      outcome.2.2 = {d} := by
    rcases h with ⟨-, rfl⟩ | ⟨-, -, rfl⟩ <;> rfl
  exact Finset.singleton_injective ((hdocuments d h).symm.trans (hdocuments d' h'))

theorem nodup_combinationOutcomes :
    ((pairs ((inventiveDocs rows kinds).insertionSort (· ≤ ·))).filterMap
      (combinationOutcome rows)).Nodup := by
  have hnodup : (inventiveDocs rows kinds).Nodup := nodup_inventiveDocs
  have hsorted := pairwise_lt_insertionSort hnodup
  rw [List.Nodup, List.pairwise_filterMap]
  refine List.Pairwise.imp_of_mem ?_ (nodup_pairs hsorted)
  rintro ⟨a, b⟩ ⟨c, d⟩ hab hcd hne outcome h outcome' h' heq
  obtain ⟨-, rfl⟩ := combinationOutcome_eq_some.mp h
  obtain ⟨-, rfl⟩ := combinationOutcome_eq_some.mp h'
  exact hne (pair_injective (mem_docPairs.mp hab).2.2
    (mem_docPairs.mp hcd).2.2 (congrArg (fun o => o.2.2) heq))

/-- Where the number of features is that of the rows and every compared
document has a kind, the gates find exactly the coverage there is, in
whatever order the rows are. -/
theorem coverage_findings_exact (rows : List FeatureComparisonRow)
    (totalFeatures : Int) (kinds : Dict String ReferenceKind)
    (htotal : totalFeatures = featureCount rows)
    (hkinds : ∀ row ∈ rows, kinds.get? row.docId ≠ none) :
    CoverageExact rows kinds
        ((noveltyFindings rows totalFeatures kinds).map
          AssessmentFinding.outcome)
        ((combinationFindings rows totalFeatures kinds).map
          AssessmentFinding.outcome)
      ∧ ∀ rows' : List FeatureComparisonRow, rows'.Perm rows →
        (noveltyFindings rows' totalFeatures kinds).map
            AssessmentFinding.outcome
          = (noveltyFindings rows totalFeatures kinds).map
            AssessmentFinding.outcome
        ∧ (combinationFindings rows' totalFeatures kinds).map
            AssessmentFinding.outcome
          = (combinationFindings rows totalFeatures kinds).map
            AssessmentFinding.outcome := by
  subst htotal
  rw [map_noveltyFindings hkinds, map_combinationFindings]
  refine ⟨⟨nodup_noveltyOutcomes, fun outcome => ?_, nodup_combinationOutcomes,
    fun outcome => ?_⟩, fun rows' hperm => ?_⟩
  · simp only [List.mem_filterMap, noveltyOutcome_eq_some, mem_docIds]
  · simp only [List.mem_filterMap, combinationOutcome_eq_some]
    constructor
    · rintro ⟨⟨first, second⟩, hpair, hcover, rfl⟩
      obtain ⟨hfirst, hsecond, hlt⟩ := mem_docPairs.mp hpair
      obtain ⟨hfirstIn, hfirstKind⟩ := (mem_inventiveDocs_iff hkinds).mp hfirst
      obtain ⟨hsecondIn, hsecondKind⟩ :=
        (mem_inventiveDocs_iff hkinds).mp hsecond
      exact ⟨first, hfirstIn, second, hsecondIn, ne_of_lt hlt, hfirstKind,
        hsecondKind, hcover, rfl⟩
    · rintro ⟨first, hfirst, second, hsecond, hne, hfirstKind, hsecondKind,
        hcover, rfl⟩
      have hfirst := (mem_inventiveDocs_iff hkinds).mpr ⟨hfirst, hfirstKind⟩
      have hsecond := (mem_inventiveDocs_iff hkinds).mpr ⟨hsecond, hsecondKind⟩
      rcases exists_mem_pairs hfirst hsecond hne with hpair | hpair
      · exact ⟨(first, second), hpair, hcover, rfl⟩
      · refine ⟨(second, first), hpair, coverAll_comm.mp hcover, ?_⟩
        rw [Finset.pair_comm]
  · have hkinds' : ∀ row ∈ rows', kinds.get? row.docId ≠ none :=
      fun row hrow => hkinds row (hperm.mem_iff.mp hrow)
    rw [← featureCount_of_perm hperm, map_noveltyFindings hkinds',
      map_combinationFindings, docIds_of_perm hperm,
      noveltyOutcome_of_perm hperm, inventiveDocs_of_perm hperm,
      combinationOutcome_of_perm hperm]
    exact ⟨rfl, rfl⟩

end Exact

/-- Two documents that cover the features together only. -/
def jointRows : List FeatureComparisonRow :=
  [{ featureCode := "F1", docId := "D1", judgment := "identical" },
   { featureCode := "F2", docId := "D1", judgment := "different" },
   { featureCode := "F1", docId := "D2", judgment := "different" },
   { featureCode := "F2", docId := "D2", judgment := "identical" }]

theorem coverage_findings_exact_joint :
    CoverageExact jointRows (⟨[("D1", .priorArt), ("D2", .priorArt)], by decide⟩)
      [] [(.inventiveCombination, .needsConfirmation, {"D1", "D2"})] := by
  have h := (coverage_findings_exact jointRows 2
    ⟨[("D1", .priorArt), ("D2", .priorArt)], by decide⟩ (by decide)
    (by decide)).1
  have hnovelty : (noveltyFindings jointRows 2
      ⟨[("D1", .priorArt), ("D2", .priorArt)], by decide⟩).map
        AssessmentFinding.outcome = [] := by decide
  have hcombination : (combinationFindings jointRows 2
      ⟨[("D1", .priorArt), ("D2", .priorArt)], by decide⟩).map
        AssessmentFinding.outcome
      = [(.inventiveCombination, .needsConfirmation, {"D1", "D2"})] := by
    decide
  rw [hnovelty, hcombination] at h
  exact h

end PatentEvidence.Assessment
