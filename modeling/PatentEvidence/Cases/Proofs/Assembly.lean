/-
When an assembly counts the features of the version.

`total_features` is the number of distinct codes among the rows, so a
feature without a cell is not missing: it is not counted. The number is
right where every matrix that has cells has one for each feature of its
version, under distinct codes (`Drawn`). A rebuild draws a matrix so, and
deletions take the cells along; what breaks it are features and codes
that arrive in a version whose matrix has cells already
(`feature_added_after_matrix`).

The second half of the property follows from the first in any state: with
the number of features as total, a feature without a cell leaves too few
codes for the completeness gate and for the novelty gate
(`uncovered_blocks`).

# Sections

- what an assembly counts;
- what too few codes do to the gates;
- how requests keep matrices drawn;
- every run.
-/
import Mathlib.Data.List.Dedup
import PatentEvidence.Assessment.Proofs.Completeness
import PatentEvidence.Assessment.Proofs.Gate
import PatentEvidence.Cases.Assembly
import PatentEvidence.Cases.Proofs.Codes
import PatentEvidence.Cases.Proofs.Summary

namespace PatentEvidence.Cases

open Assessment Fallible Grouping Runs Text

variable {store store' : CaseStore} {env : Env}

-- ================================================ what an assembly counts

/-- An assembly tells the gates the number of features of the version its
matrix belongs to. -/
def CountsFeatures (store : CaseStore) : Prop :=
  ∀ now a, assemble store now = .ok a → ∃ m, assemblyMatrix store = some m
    ∧ a.payload.totalFeatures
      = some ((store.featuresOf m.featureSetVersionId).length : Int)

/-- A feature without a cell blocks the assessment, and no single
reference passes the novelty gate. -/
def UncoveredBlocks (store : CaseStore) : Prop :=
  ∀ now a, assemble store now = .ok a →
    ∀ m, assemblyMatrix store = some m →
      ∀ f ∈ store.featuresOf m.featureSetVersionId,
        (∀ c ∈ store.cellsOf m.id, c.claimFeatureId ≠ f.id) →
          ∀ pkg, assessCase a.payload = some pkg →
            (∃ n : Int, 0 < n ∧ s!"缺失比对单元格 {n} 项" ∈ pkg.blockers)
              ∧ ∀ finding ∈ pkg.findings, finding.riskKind ≠ .novelty

theorem filterMap_map_of_forall {α β γ : Type _} {g : α → Option β}
    {value : β → γ} {value' : α → γ} {l : List α}
    (h : ∀ a ∈ l, ∃ b, g a = some b ∧ value b = value' a) :
    (l.filterMap g).map value = l.map value' := by
  induction l with
  | nil => rfl
  | cons a l ih =>
      obtain ⟨b, hb, hvalue⟩ := h a (List.mem_cons_self ..)
      rw [List.filterMap_cons_some hb, List.map_cons, List.map_cons, hvalue,
        ih fun a' ha' => h a' (List.mem_cons_of_mem _ ha')]

/-- The loop over the candidates gives each its document id. -/
theorem isSome_foldl_addDocument {profiles : List CandidateProfile}
    {l : List SearchCandidate} {bundle : DocumentBundle} {id : String}
    (h : (bundle.cellDocIds.get? id).isSome ∨ id ∈ l.map SearchCandidate.id) :
    ((l.foldl (addDocument profiles) bundle).cellDocIds.get? id).isSome := by
  induction l generalizing bundle with
  | nil => simpa using h
  | cons c l ih =>
      have hset : (addDocument profiles bundle c).cellDocIds
          = bundle.cellDocIds.set c.id (nextDocId bundle.used c).1 := rfl
      rw [List.foldl_cons]
      apply ih
      rw [hset, Dict.get?_set]
      by_cases hid : id = c.id
      · left
        rw [if_pos hid]
        rfl
      · rw [if_neg hid]
        rcases h with h | h
        · exact .inl h
        · rw [List.map_cons, List.mem_cons] at h
          exact .inr (h.resolve_left hid)

/-- Every candidate the cells name has a document. -/
theorem isSome_cellDocIds {candidateIds : List String} {d : SearchCandidate}
    (hd : d ∈ store.candidates.rows) (hid : d.id ∈ candidateIds) :
    ((assemblyDocuments store candidateIds).cellDocIds.get? d.id).isSome := by
  apply isSome_foldl_addDocument
  right
  refine List.mem_map_of_mem (List.mem_filter.mpr ⟨?_, decide_eq_true hid⟩)
  exact (perm_sortedBy ..).mem_iff.mpr hd

/-- A joined cell: a cell of the matrix and the feature it is about. -/
theorem mem_assemblyCells {matrixId : String} {cell : AssemblyCell} :
    cell ∈ assemblyCells store matrixId ↔ ∃ c ∈ store.cellsOf matrixId,
      ∃ f ∈ store.features.rows, f.id = c.claimFeatureId
        ∧ cell = { candidateId := c.candidateId, featureCode := f.featureCode
                   judgment := c.judgment
                   citationLocation := c.citationLocation
                   citationQuote := c.citationQuote } := by
  unfold assemblyCells
  simp only [List.mem_map, (perm_sortedBy ..).mem_iff, List.mem_filterMap,
    Option.map_eq_some_iff]
  constructor
  · rintro ⟨p, ⟨c, hc, f, hfind, rfl⟩, rfl⟩
    obtain ⟨hf, hid⟩ := Table.find?_eq_some hfind
    exact ⟨c, hc, f, hf, hid, rfl⟩
  · rintro ⟨c, hc, f, hf, hid, rfl⟩
    exact ⟨(f, c), ⟨c, hc, f, hid ▸ Table.find?_of_mem hf, rfl⟩, rfl⟩

/-- The rows of an assembly carry the codes of the joined cells. -/
theorem featureCodes_assembled (hp : Placed store)
    {profile : ApplicationProfile} {matrixId : String}
    {runs : List DataSourceRun} {now : Instant} :
    (assembled profile matrixId (assemblyCells store matrixId)
        (assemblyDocuments store ((assemblyCells store matrixId).map
          AssemblyCell.candidateId)) runs now).payload.rows.map
        FeatureComparisonRow.featureCode
      = (assemblyCells store matrixId).map AssemblyCell.featureCode := by
  show List.map _ (List.map Prod.fst (List.filterMap _ _)) = _
  rw [List.map_map]
  apply filterMap_map_of_forall
  intro cell hcell
  obtain ⟨c, hc, f, -, -, hcell'⟩ := mem_assemblyCells.mp hcell
  obtain ⟨d, hd, hid⟩ := hp.candidate c (List.mem_filter.mp hc).1
  have hcandidate : d.id = cell.candidateId := by rw [hid, hcell']
  obtain ⟨docId, hdoc⟩ := Option.isSome_iff_exists.mp
    (isSome_cellDocIds hd
      (hcandidate ▸ List.mem_map_of_mem (f := AssemblyCell.candidateId) hcell))
  rw [hcandidate] at hdoc
  exact ⟨_, by rw [rowAndCitation, hdoc]; rfl, rfl⟩

/-- The codes an assembly counts are those of the features with a cell. -/
theorem mem_assembled_codes (hp : Placed store) {m : ComparisonMatrix}
    (hm : m ∈ store.matrices.rows) {code : String} :
    code ∈ (assemblyCells store m.id).map AssemblyCell.featureCode
      ↔ ∃ f ∈ store.featuresOf m.featureSetVersionId,
        f.featureCode = code
          ∧ ∃ c ∈ store.cellsOf m.id, c.claimFeatureId = f.id := by
  rw [List.mem_map]
  constructor
  · rintro ⟨cell, hcell, rfl⟩
    obtain ⟨c, hc, f, hf, hid, rfl⟩ := mem_assemblyCells.mp hcell
    obtain ⟨hrow, hmatrix⟩ := List.mem_filter.mp hc
    rw [decide_eq_true_eq] at hmatrix
    obtain ⟨m', hm', hid', f', hf', hfid⟩ := hp.feature c hrow
    obtain rfl : m' = m :=
      store.matrices.eq_of_key_eq hm' hm (hid'.trans hmatrix)
    obtain ⟨hf'row, hversion⟩ := mem_orderedFeatures.mp hf'
    obtain rfl : f' = f := eq_of_id_eq hf'row hf (hfid.trans hid.symm)
    exact ⟨f', mem_featuresOf.mpr ⟨hf, hversion⟩, rfl, c, hc, hid.symm⟩
  · rintro ⟨f, hf, rfl, c, hc, hid⟩
    exact ⟨_, mem_assemblyCells.mpr ⟨c, hc, f, (mem_featuresOf.mp hf).1,
      hid.symm, rfl⟩, rfl⟩

/-- What an assembly that goes through has read. -/
theorem assembled_of_ok {now : Instant} {a : AssembledAssessment}
    (hp : Placed store) (h : assemble store now = .ok a) :
    ∃ m, assemblyMatrix store = some m ∧ m ∈ store.matrices.rows
      ∧ store.cellsOf m.id ≠ []
      ∧ a.payload.rows.map FeatureComparisonRow.featureCode
        = (assemblyCells store m.id).map AssemblyCell.featureCode
      ∧ a.payload.totalFeatures = some ((a.payload.rows.map
          FeatureComparisonRow.featureCode).dedup.length : Int) := by
  unfold assemble at h
  cases hprofile : store.applicationProfile with
  | none =>
      rw [hprofile] at h
      cases h
  | some profile =>
      rw [hprofile] at h
      cases hmatrix : assemblyMatrix store with
      | none =>
          rw [hmatrix] at h
          cases h
      | some m =>
          rw [hmatrix] at h
          dsimp only at h
          split at h
          · cases h
          · next hcells =>
              cases Except.ok.inj h
              refine ⟨m, rfl, ?_, ?_, featureCodes_assembled hp, rfl⟩
              · unfold assemblyMatrix at hmatrix
                split at hmatrix
                · cases hmatrix
                · next m' ms hrows =>
                    rw [hrows, ← Option.some.inj hmatrix]
                    exact firstBy_mem ..
              · intro hnil
                apply hcells
                rw [List.isEmpty_iff]
                apply List.eq_nil_iff_forall_not_mem.mpr
                intro cell hcell
                obtain ⟨c, hc, -⟩ := mem_assemblyCells.mp hcell
                rw [hnil] at hc
                cases hc

-- ============================================ what too few codes do to the gates

/-- Fewer codes than features is a blocker. -/
theorem missing_cell_blocks {payload : AssessmentInput}
    {pkg : AssessmentPackage} (h : assessCase payload = some pkg)
    (hfew : ((payload.rows.map FeatureComparisonRow.featureCode).dedup.length
      : Int) < payload.effectiveTotal) :
    ∃ n : Int, 0 < n ∧ s!"缺失比对单元格 {n} 项" ∈ pkg.blockers := by
  have hpos : 0 < missingCells payload.rows payload.effectiveTotal := by
    unfold missingCells
    omega
  refine ⟨_, hpos, ?_⟩
  obtain ⟨priority, -, h⟩ := Option.bind_eq_some_iff.mp h
  obtain ⟨early, -, h⟩ := Option.bind_eq_some_iff.mp h
  cases h
  refine List.mem_append_left _ (List.mem_append_left _ ?_)
  refine List.mem_append_right _ ?_
  rw [if_pos hpos.ne']
  exact List.mem_singleton_self _

/-- Fewer codes than features leaves no document that covers alone. -/
theorem no_novelty_of_few_codes {payload : AssessmentInput}
    {pkg : AssessmentPackage} (h : assessCase payload = some pkg)
    (hfew : ((payload.rows.map FeatureComparisonRow.featureCode).dedup.length
      : Int) < payload.effectiveTotal) :
    ∀ finding ∈ pkg.findings, finding.riskKind ≠ .novelty := by
  intro finding hmem hkind
  obtain ⟨-, docId, -, hsome⟩ := mem_noveltyFindings.mp
    (((assessCase_gates h).2.1 finding hkind).mp hmem)
  obtain ⟨-, -, -, hcovers⟩ := noveltyFinding_eq_some hsome
  have hle : ∀ judgments, ((codesJudged judgments
      (rowsOf payload.rows docId)).length : Int)
        ≤ (payload.rows.map FeatureComparisonRow.featureCode).dedup.length := by
    intro judgments
    have hsub : codesJudged judgments (rowsOf payload.rows docId)
        ⊆ (payload.rows.map FeatureComparisonRow.featureCode).dedup := by
      intro code hcode
      obtain ⟨row, hrow, rfl⟩ := List.mem_map.mp (List.mem_dedup.mp hcode)
      apply List.mem_dedup.mpr
      exact List.mem_map_of_mem
        (List.mem_filter.mp (List.mem_filter.mp hrow).1).1
    exact_mod_cast (List.subperm_of_subset (List.nodup_dedup _) hsub).length_le
  rcases hcovers with hcovers | hcovers
  · have := hle singleReferenceJudgments
    omega
  · have := hle coveringJudgments
    omega

/-- With the number of features as total, a feature without a cell blocks
the assessment and closes the novelty gate. -/
theorem uncovered_blocks (hp : Placed store) (hcount : CountsFeatures store) :
    UncoveredBlocks store := by
  intro now a ha m hm f hf hnone pkg hpkg
  obtain ⟨m', hm', hrow, -, hcodes, -⟩ := assembled_of_ok hp ha
  obtain rfl : m' = m := Option.some.inj (hm'.symm.trans hm)
  obtain ⟨m'', hm'', htotal⟩ := hcount now a ha
  obtain rfl : m'' = m' := Option.some.inj (hm''.symm.trans hm)
  have hfew : ((a.payload.rows.map FeatureComparisonRow.featureCode).dedup.length
      : Int) < a.payload.effectiveTotal := by
    rw [AssessmentInput.effectiveTotal, htotal, Option.getD_some]
    -- the codes counted are those of the other features
    have hsub : (a.payload.rows.map FeatureComparisonRow.featureCode).dedup
        ⊆ ((store.featuresOf m''.featureSetVersionId).filter fun g =>
          g ≠ f).map ClaimFeature.featureCode := by
      intro code hcode
      rw [List.mem_dedup, hcodes] at hcode
      obtain ⟨g, hg, rfl, c, hc, hid⟩ := (mem_assembled_codes hp hrow).mp hcode
      refine List.mem_map_of_mem (List.mem_filter.mpr ⟨hg, ?_⟩)
      refine decide_eq_true fun heq => hnone c hc ?_
      rw [hid, heq]
    have hle := (List.subperm_of_subset (List.nodup_dedup _) hsub).length_le
    have hlt : ((store.featuresOf m''.featureSetVersionId).filter fun g =>
        g ≠ f).length < (store.featuresOf m''.featureSetVersionId).length :=
      List.length_filter_lt_length_iff_exists.mpr ⟨f, hf, by simp⟩
    rw [List.length_map] at hle
    exact_mod_cast lt_of_le_of_lt hle hlt
  exact ⟨missing_cell_blocks hpkg hfew, no_novelty_of_few_codes hpkg hfew⟩

-- =============================================== how matrices stay drawn

/-- The matrix has no cells, or one at least for each feature of its
version, and the codes there are distinct. -/
def Drawn (store : CaseStore) (m : ComparisonMatrix) : Prop :=
  (∀ c ∈ store.cells.rows, c.matrixId ≠ m.id)
    ∨ ((store.codesOf m.featureSetVersionId).Nodup
      ∧ ∀ f ∈ store.featuresOf m.featureSetVersionId,
        ∃ c ∈ store.cells.rows, c.matrixId = m.id ∧ c.claimFeatureId = f.id)

/-- Cells are in place, versions of matrices exist, matrices are drawn. -/
structure Charted (store : CaseStore) : Prop where
  placed : Placed store
  versions : ∀ m ∈ store.matrices.rows,
    m.featureSetVersionId ∈ store.versionIds
  drawn : ∀ m ∈ store.matrices.rows, Drawn store m

/-- No matrix of the version has cells. -/
def NoCells (store : CaseStore) (versionId : String) : Prop :=
  ∀ m ∈ store.matrices.rows, m.featureSetVersionId = versionId →
    ∀ c ∈ store.cells.rows, c.matrixId ≠ m.id

/-- On drawn matrices an assembly counts the features. -/
theorem countsFeatures_of_charted (hs : Charted store) :
    CountsFeatures store := by
  intro now a ha
  obtain ⟨m, hm, hrow, hcells, hcodes, htotal⟩ := assembled_of_ok hs.placed ha
  refine ⟨m, hm, ?_⟩
  rw [htotal, hcodes]
  rcases hs.drawn m hrow with hnone | ⟨hnodup, hcovered⟩
  · obtain ⟨c, hc⟩ := List.exists_mem_of_ne_nil _ hcells
    obtain ⟨hc, hmatrix⟩ := List.mem_filter.mp hc
    exact absurd (of_decide_eq_true hmatrix) (hnone c hc)
  · have hperm : ((assemblyCells store m.id).map
        AssemblyCell.featureCode).dedup.Perm
          (store.codesOf m.featureSetVersionId) := by
      refine (List.perm_ext_iff_of_nodup (List.nodup_dedup _) hnodup).mpr
        fun code => ?_
      rw [List.mem_dedup, mem_assembled_codes hs.placed hrow]
      constructor
      · rintro ⟨f, hf, rfl, -⟩
        exact List.mem_map_of_mem hf
      · intro hcode
        obtain ⟨f, hf, rfl⟩ := List.mem_map.mp hcode
        obtain ⟨c, hc, hmatrix, hid⟩ := hcovered f hf
        exact ⟨f, hf, rfl, c,
          List.mem_filter.mpr ⟨hc, decide_eq_true hmatrix⟩, hid⟩
    rw [hperm.length_eq, CaseStore.codesOf, List.length_map]

-- ------------------------------------------------ feature requests

theorem placed_of_frame (hframe : Frame store store') (hp : Placed store)
    (hcells : store'.cells.rows.Sublist store.cells.rows)
    (hfeatures : ∀ c ∈ store'.cells.rows, ∀ f ∈ store.features.rows,
      f.id = c.claimFeatureId → ∃ f' ∈ store'.features.rows, f'.id = f.id
        ∧ f'.featureSetVersionId = f.featureSetVersionId) :
    Placed store' := by
  refine ⟨hp.places.sublist (hcells.map _), ?_, ?_⟩
  · intro c hc
    obtain ⟨m, hm, hid, f, hf, hfid⟩ := hp.feature c (hcells.subset hc)
    obtain ⟨hf, hversion⟩ := mem_orderedFeatures.mp hf
    obtain ⟨f', hf', hid', hversion'⟩ := hfeatures c hc f hf hfid
    refine ⟨m, hframe.matrices ▸ hm, hid, f', ?_, hid'.trans hfid⟩
    exact mem_orderedFeatures.mpr ⟨hf', hversion'.trans hversion⟩
  · intro c hc
    obtain ⟨d, hd, hid⟩ := hp.candidate c (hcells.subset hc)
    exact ⟨d, hframe.candidates ▸ hd, hid⟩

theorem codesOf_eq_labels (versionId : String) :
    store.codesOf versionId
      = (store.labels.filter fun l => l.1 = versionId).map Prod.snd := by
  unfold CaseStore.codesOf CaseStore.featuresOf CaseStore.labels
  rw [List.filter_map, List.map_map]
  rfl

/-- New features in a version whose matrices have no cells, or none. -/
theorem charted_extends {versionId : String} {codes : List String}
    (h : Extends store store' versionId codes) (hs : Charted store)
    (hno : codes ≠ [] → NoCells store versionId) : Charted store' := by
  obtain ⟨edit, new, hrows, hedit, hnew⟩ := h.features
  have hkept : ∀ f ∈ store.features.rows, edit f ∈ store'.features.rows :=
    fun f hf => hrows ▸ List.mem_append_left _ (List.mem_map_of_mem hf)
  refine ⟨placed_of_frame h.toFrame hs.placed ?_ ?_, ?_, ?_⟩
  · rw [h.cells]
  · intro c _ f hf _
    exact ⟨edit f, hkept f hf, (hedit f).1, congrArg Prod.fst (hedit f).2⟩
  · intro m hm
    exact h.versions (hs.versions m (h.matrices ▸ hm))
  · intro m hm
    rw [h.matrices] at hm
    unfold Drawn
    rw [h.cells]
    by_cases hin : codes ≠ [] ∧ m.featureSetVersionId = versionId
    · exact .inl (hno hin.1 m hm hin.2)
    · -- no new feature is of the matrix's version
      have hother : ∀ f ∈ new, f.featureSetVersionId
          ≠ m.featureSetVersionId := by
        intro f hf heq
        have hlabel := List.mem_map_of_mem (f := ClaimFeature.label) hf
        rw [hnew] at hlabel
        obtain ⟨code, hcode, hl⟩ := List.mem_map.mp hlabel
        have hversion : versionId = f.featureSetVersionId :=
          congrArg Prod.fst hl
        exact hin ⟨List.ne_nil_of_mem hcode, heq.symm.trans hversion.symm⟩
      rcases hs.drawn m hm with hnone | ⟨hnodup, hcovered⟩
      · exact .inl hnone
      · right
        constructor
        · have hnil : (codes.map fun code => (versionId, code)).filter
              (fun l => l.1 = m.featureSetVersionId) = [] := by
            apply List.filter_eq_nil_iff.mpr
            intro l hl heq
            rw [decide_eq_true_eq] at heq
            obtain ⟨code, hcode, rfl⟩ := List.mem_map.mp hl
            exact hin ⟨List.ne_nil_of_mem hcode, heq.symm⟩
          rw [codesOf_eq_labels, h.labels, List.filter_append, hnil,
            List.append_nil, ← codesOf_eq_labels]
          exact hnodup
        · intro f' hf'
          obtain ⟨hf', hversion⟩ := mem_featuresOf.mp hf'
          rw [hrows, List.mem_append] at hf'
          rcases hf' with hf' | hf'
          · obtain ⟨f, hf, rfl⟩ := List.mem_map.mp hf'
            have hfv : f.featureSetVersionId = m.featureSetVersionId :=
              (congrArg Prod.fst (hedit f).2).symm.trans hversion
            obtain ⟨c, hc, hmatrix, hid⟩ :=
              hcovered f (mem_featuresOf.mpr ⟨hf, hfv⟩)
            exact ⟨c, hc, hmatrix, hid.trans (hedit f).1.symm⟩
          · exact absurd hversion (hother f' hf')

/-- The cells a deletion of features leaves. -/
theorem mem_cells_deleteFeatures {p : ClaimFeature → Bool}
    {c : FeatureComparison} :
    c ∈ (store.deleteFeatures p).cells.rows ↔ c ∈ store.cells.rows
      ∧ ∀ f ∈ store.features.rows, p f → f.id ≠ c.claimFeatureId := by
  show c ∈ (store.cells.delete _).rows ↔ _
  rw [Table.rows_delete, List.mem_filter]
  simp

theorem mem_features_deleteFeatures {p : ClaimFeature → Bool}
    {f : ClaimFeature} :
    f ∈ (store.deleteFeatures p).features.rows
      ↔ f ∈ store.features.rows ∧ p f = false := by
  show f ∈ (store.features.delete _).rows ↔ _
  rw [Table.rows_delete, List.mem_filter]
  simp

/-- A deletion takes the cells of the deleted features along. -/
theorem charted_deleteFeatures (p : ClaimFeature → Bool)
    (hs : Charted store) : Charted (store.deleteFeatures p) := by
  refine ⟨placed_of_frame (frame_deleteFeatures p) hs.placed ?_ ?_,
    hs.versions, ?_⟩
  · exact List.filter_sublist
  · intro c hc f hf hid
    refine ⟨f, mem_features_deleteFeatures.mpr ⟨hf, ?_⟩, rfl, rfl⟩
    rw [Bool.eq_false_iff]
    exact fun hpf => (mem_cells_deleteFeatures.mp hc).2 f hf hpf hid
  · intro m hm
    rcases hs.drawn m hm with hnone | ⟨hnodup, hcovered⟩
    · exact .inl fun c hc => hnone c (mem_cells_deleteFeatures.mp hc).1
    · right
      constructor
      · refine hnodup.sublist ?_
        rw [codesOf_eq_labels, codesOf_eq_labels]
        exact ((labels_deleteFeatures p).filter _).map _
      · intro f hf
        obtain ⟨hf, hversion⟩ := mem_featuresOf.mp hf
        obtain ⟨hrow, hpf⟩ := mem_features_deleteFeatures.mp hf
        obtain ⟨c, hc, hmatrix, hid⟩ :=
          hcovered f (mem_featuresOf.mpr ⟨hrow, hversion⟩)
        refine ⟨c, mem_cells_deleteFeatures.mpr ⟨hc, ?_⟩, hmatrix, hid⟩
        intro g hg hpg hgid
        have hgf : g = f := eq_of_id_eq hg hrow (hgid.trans hid)
        rw [hgf, hpf] at hpg
        cases hpg

/-- Clearing a version empties its matrices. -/
theorem noCells_clear (hp : Placed store) (versionId : String) :
    NoCells (store.clear versionId) versionId := by
  intro m hm hversion c hc hmatrix
  obtain ⟨hc, hkept⟩ := mem_cells_deleteFeatures.mp hc
  obtain ⟨m', hm', hid, f, hf, hfid⟩ := hp.feature c hc
  obtain rfl : m' = m :=
    store.matrices.eq_of_key_eq hm' hm (hid.trans hmatrix)
  obtain ⟨hf, hfv⟩ := mem_orderedFeatures.mp hf
  exact hkept f hf (decide_eq_true (hfv.trans hversion)) hfid

/-- A version without matrix. -/
theorem noCells_of_fresh (hs : Charted store) {versionId : String}
    (hfresh : versionId ∉ store.versionIds) : NoCells store versionId :=
  fun m hm hversion => absurd (hversion ▸ hs.versions m hm) hfresh

/-- The features of a version after an update, one by one. -/
theorem featuresOf_recoded {edit : ClaimFeature → ClaimFeature}
    {p : ClaimFeature → Prop} [DecidablePred p] {code : Option String}
    (hrows : store'.features.rows = store.features.rows.map edit)
    (hversion : ∀ f, (edit f).featureSetVersionId = f.featureSetVersionId)
    (hcode : ∀ f, (edit f).featureCode
      = if p f then code.getD f.featureCode else f.featureCode)
    (versionId : String) :
    store'.featuresOf versionId = (store.featuresOf versionId).map edit
      ∧ store'.codesOf versionId = (store.featuresOf versionId).map fun f =>
        if p f then code.getD f.featureCode else f.featureCode := by
  have hfeatures : store'.featuresOf versionId
      = (store.featuresOf versionId).map edit := by
    unfold CaseStore.featuresOf
    rw [hrows, List.filter_map]
    congr 1
    apply List.filter_congr
    intro f _
    simp only [Function.comp_apply, hversion]
  refine ⟨hfeatures, ?_⟩
  rw [CaseStore.codesOf, hfeatures, List.map_map]
  exact List.map_congr_left fun f _ => hcode f

/-- A new code for a feature: its version has no cells, or the code is
new there. -/
theorem charted_recodes {versionId featureId : String}
    {code : Option String}
    (h : Recodes store store' versionId featureId code) (hs : Charted store)
    (hok : NoCells store versionId ∨ ∀ new, code = some new →
      ∀ target ∈ store.featuresOf versionId, target.id = featureId →
        ∀ other ∈ store.featuresOf versionId, other ≠ target →
          other.featureCode ≠ new) : Charted store' := by
  obtain ⟨edit, hrows, hedit⟩ := h.features
  have hversion : ∀ f, (edit f).featureSetVersionId
      = f.featureSetVersionId := by
    intro f
    have hlabel := congrArg Prod.fst (hedit f).2
    by_cases hp : f.id = featureId ∧ f.featureSetVersionId = versionId
    · rw [if_pos hp] at hlabel
      exact hlabel.trans hp.2.symm
    · rw [if_neg hp] at hlabel
      exact hlabel
  have hcode : ∀ f, (edit f).featureCode
      = if f.id = featureId ∧ f.featureSetVersionId = versionId then
          code.getD f.featureCode else f.featureCode := by
    intro f
    have hlabel := congrArg Prod.snd (hedit f).2
    by_cases hp : f.id = featureId ∧ f.featureSetVersionId = versionId
    · rw [if_pos hp] at hlabel ⊢
      exact hlabel
    · rw [if_neg hp] at hlabel ⊢
      exact hlabel
  have hkept : ∀ f ∈ store.features.rows, edit f ∈ store'.features.rows :=
    fun f hf => hrows ▸ List.mem_map_of_mem hf
  refine ⟨placed_of_frame h.toFrame hs.placed ?_ ?_, ?_, ?_⟩
  · rw [h.cells]
  · intro c _ f hf _
    exact ⟨edit f, hkept f hf, (hedit f).1, hversion f⟩
  · intro m hm
    exact h.versions (hs.versions m (h.matrices ▸ hm))
  · intro m hm
    rw [h.matrices] at hm
    obtain ⟨hfeatures, hcodes⟩ :=
      featuresOf_recoded hrows hversion hcode m.featureSetVersionId
    unfold Drawn
    rw [h.cells, hcodes, hfeatures]
    rcases hs.drawn m hm with hnone | ⟨hnodup, hcovered⟩
    · exact .inl hnone
    · by_cases hin : m.featureSetVersionId = versionId
          ∧ NoCells store versionId
      · exact .inl (hin.2 m hm hin.1)
      right
      constructor
      · by_cases hv : m.featureSetVersionId = versionId
        · have hnew := hok.resolve_left fun hno => hin ⟨hv, hno⟩
          cases code with
          | none =>
              simp only [Option.getD_none, ite_self]
              exact hnodup
          | some new =>
              have hiff := Table.nodup_map_rewrite_iff
                (fun f : ClaimFeature =>
                  f.id = featureId ∧ f.featureSetVersionId = versionId)
                new hnodup fun r hr r' hr' hp hp' => by
                  rw [decide_eq_true_eq] at hp hp'
                  exact eq_of_id_eq (mem_featuresOf.mp hr).1
                    (mem_featuresOf.mp hr').1 (hp.1.trans hp'.1.symm)
              simp only [decide_eq_true_eq] at hiff
              simp only [Option.getD_some]
              apply hiff.mpr
              intro target htarget hp other hother hne
              rw [hv] at htarget hother
              exact hnew new rfl target htarget hp.1 other hother hne
        · have hsame : ((store.featuresOf m.featureSetVersionId).map fun f =>
              if f.id = featureId ∧ f.featureSetVersionId = versionId then
                code.getD f.featureCode else f.featureCode)
              = store.codesOf m.featureSetVersionId := by
            apply List.map_congr_left
            intro f hf
            exact if_neg fun hp =>
              hv ((mem_featuresOf.mp hf).2.symm.trans hp.2)
          rw [hsame]
          exact hnodup
      · intro f' hf'
        obtain ⟨f, hf, rfl⟩ := List.mem_map.mp hf'
        obtain ⟨c, hc, hmatrix, hid⟩ := hcovered f hf
        exact ⟨c, hc, hmatrix, hid.trans (hedit f).1.symm⟩

/-- What a feature request must not do: bring features or taken codes into
a version whose matrix has cells. -/
def FeatureKeepsCharts (store : CaseStore) : FeatureOp → Prop
  | .add versionId .. => NoCells store versionId
  | .split versionId .. => NoCells store versionId
  | .update versionId featureId code type statement paragraph quote order =>
      NoCells store versionId ∨ FreshCodes store
        (.update versionId featureId code type statement paragraph quote order)
  | .extract .. => True
  | .delete .. => True
  | .merge .. => True
  | .confirm _ => True
  | .revise _ => True

theorem charted_executeFeature {op : FeatureOp} (hs : Charted store)
    (hok : FeatureKeepsCharts store op)
    (h : executeFeature store env op = .ok store') : Charted store' := by
  cases op with
  | extract documentVersionId drafts =>
      obtain ⟨versionId, codes, hleft, -⟩ := extract_leaves h
      rcases hleft with ⟨-, hleft⟩ | ⟨hfresh, hleft⟩
      · exact charted_extends hleft (charted_deleteFeatures _ hs) fun _ =>
          noCells_clear hs.placed versionId
      · exact charted_extends hleft hs fun _ => noCells_of_fresh hs hfresh
  | add versionId code type statement paragraph quote =>
      exact charted_extends (add_leaves h).2 hs fun _ => hok
  | update versionId featureId code type statement paragraph quote order =>
      exact charted_recodes (update_leaves h) hs hok
  | delete versionId featureId =>
      obtain ⟨p, rfl⟩ := delete_leaves h
      exact charted_deleteFeatures p hs
  | split versionId featureId part1 part2 =>
      obtain ⟨-, old, -, -, hleft⟩ := split_leaves h
      exact charted_extends hleft hs fun _ => hok
  | merge versionId featureId1 featureId2 statement =>
      obtain ⟨mid, p, hmid, rfl⟩ := merge_leaves h
      exact charted_deleteFeatures p
        (charted_extends hmid hs fun hne => absurd rfl hne)
  | confirm versionId =>
      exact charted_extends (confirm_leaves h) hs fun hne => absurd rfl hne
  | revise baseVersionId =>
      rcases revise_leaves h with rfl | ⟨versionId, codes, hfresh, hleft, -⟩
      · exact hs
      · exact charted_extends hleft hs fun _ => noCells_of_fresh hs hfresh

-- --------------------------------------------- comparison requests

/-- A matrix stays drawn while its version's features stay and its cells
keep their places. -/
theorem drawn_congr {m m' : ComparisonMatrix}
    (hfeatures : store'.features = store.features)
    (hid : m'.id = m.id)
    (hversion : m'.featureSetVersionId = m.featureSetVersionId)
    (hcells : ∀ place : String × String × String, place.1 = m.id →
      (place ∈ store'.cells.rows.map FeatureComparison.place
        ↔ place ∈ store.cells.rows.map FeatureComparison.place))
    (hd : Drawn store m) : Drawn store' m' := by
  unfold Drawn CaseStore.codesOf CaseStore.featuresOf
  rw [hfeatures, hid, hversion]
  rcases hd with hnone | ⟨hnodup, hcovered⟩
  · left
    intro c hc hmatrix
    obtain ⟨old, hold, hplace⟩ := List.mem_map.mp
      ((hcells c.place hmatrix).mp (List.mem_map_of_mem hc))
    exact hnone old hold ((congrArg Prod.fst hplace).trans hmatrix)
  · refine .inr ⟨hnodup, fun f hf => ?_⟩
    obtain ⟨c, hc, hmatrix, hfid⟩ := hcovered f hf
    obtain ⟨new, hnew, hplace⟩ := List.mem_map.mp
      ((hcells c.place hmatrix).mpr (List.mem_map_of_mem hc))
    exact ⟨new, hnew, (congrArg Prod.fst hplace).trans hmatrix,
      (congrArg (fun place => place.2.1) hplace).trans hfid⟩

/-- What a comparison request must not do: draw a matrix over repeated
codes. -/
def ComparisonKeepsCharts (store : CaseStore) : ComparisonOp → Prop
  | .rebuild _ => ∀ version ∈ activeVersion store,
      (store.codesOf version.id).Nodup
  | .edit .. => True
  | .confirm _ => True
  | .triage .. => True

theorem mem_of_activeVersion {version : FeatureSetVersion}
    (h : activeVersion store = some version) :
    version ∈ store.versions.rows := by
  unfold activeVersion at h
  split at h
  · cases h
  · next v vs hrows =>
      rw [hrows, ← Option.some.inj h]
      exact firstBy_mem ..

section Rebuild

variable {judge : ClaimFeature → SearchCandidate → ComparisonResult}
  {version : FeatureSetVersion} {matrixId : String}

/-- A matrix after a rebuild is the rebuilt one or an old one. -/
theorem Rebuilt.matrix_from
    (hr : Rebuilt store env judge store' version matrixId)
    {m' : ComparisonMatrix} (hm' : m' ∈ store'.matrices.rows) :
    (m'.id = matrixId ∧ m'.featureSetVersionId = version.id)
      ∨ (m'.id ≠ matrixId ∧ ∃ m ∈ store.matrices.rows, m'.id = m.id
        ∧ m'.featureSetVersionId = m.featureSetVersionId) := by
  by_cases hid : m'.id = matrixId
  · left
    obtain ⟨m, hm, hmid, hv⟩ := hr.matrix_mem
    rw [store'.matrices.eq_of_key_eq hm' hm (hid.trans hmid.symm)]
    exact ⟨hmid, hv⟩
  · refine .inr ⟨hid, ?_⟩
    rcases hr.matrices with ⟨-, hrows⟩ | ⟨-, -, hdrawn, hrows⟩
    · rw [hrows] at hm'
      obtain ⟨m, hm, rfl⟩ := List.mem_map.mp hm'
      exact ⟨m, hm, id_rebuiltRow m, version_rebuiltRow m⟩
    · rw [hrows, List.mem_append] at hm'
      rcases hm' with hm | hm
      · exact ⟨m', hm, rfl, rfl⟩
      · refine absurd ?_ hid
        rw [List.mem_singleton.mp hm, hdrawn]
        rfl

/-- A rebuild draws its matrix and leaves the others drawn. -/
theorem charted_rebuilt
    (hr : Rebuilt store env judge store' version matrixId)
    (hs : Charted store) (hnodup : (store.codesOf version.id).Nodup) :
    Charted store' := by
  have hversions : store'.versionIds = store.versionIds := by rw [hr.frame]; rfl
  refine ⟨placed_rebuilt hr hs.placed, ?_, ?_⟩
  · intro m' hm'
    rw [hversions]
    rcases hr.matrix_from hm' with ⟨-, hv⟩ | ⟨-, m, hm, -, hv⟩
    · rw [hv]
      exact List.mem_map_of_mem (mem_of_activeVersion hr.active)
    · rw [hv]
      exact hs.versions m hm
  · intro m' hm'
    rcases hr.matrix_from hm' with ⟨hid, hv⟩ | ⟨hne, m, hm, hid, hv⟩
    · right
      unfold CaseStore.codesOf CaseStore.featuresOf
      rw [hr.features_eq, hid, hv]
      refine ⟨hnodup, fun f hf => ?_⟩
      obtain ⟨d, hd⟩ := List.exists_mem_of_ne_nil _ hr.candidates
      obtain ⟨c, hc, hplace⟩ := exists_cell_rebuilt hr
        (mem_orderedFeatures.mpr (mem_featuresOf.mp hf)) hd
      obtain ⟨hmatrix, hrest⟩ := Prod.mk.inj hplace
      exact ⟨c, hc, hmatrix, (Prod.mk.inj hrest).1⟩
    · refine drawn_congr hr.features_eq hid hv (fun place hplace => ?_)
        (hs.drawn m hm)
      have hother : ∀ x ∈ store.proposals env matrixId version judge,
          x.place ≠ place := by
        intro x hx heq
        obtain ⟨f, -, d, -, id, rfl⟩ := exists_of_mem_proposedCells hx
        exact hne (hid.trans (hplace.symm.trans
          (congrArg Prod.fst heq).symm))
      constructor
      · intro h
        obtain ⟨c, hc, rfl⟩ := List.mem_map.mp h
        rcases hr.mem_cells hc with ⟨old, hold, rfl⟩ | ⟨hc, -⟩
        · rw [place_merged]
          exact List.mem_map_of_mem hold
        · exact absurd rfl (hother c hc)
      · intro h
        obtain ⟨old, hold, rfl⟩ := List.mem_map.mp h
        refine List.mem_map.mpr ⟨_, hr.cells ▸ List.mem_append_left _
          (List.mem_map_of_mem hold), place_merged _ old⟩

end Rebuild

theorem charted_executeComparison {op : ComparisonOp} (hs : Charted store)
    (hok : ComparisonKeepsCharts store op)
    (h : executeComparison store env op = .ok store') : Charted store' := by
  have hplaced : Placed store' := placed_execute hs.placed h
  cases op with
  | rebuild judge =>
      obtain ⟨version, matrixId, hr⟩ := rebuilt_of_ok h
      exact charted_rebuilt hr hs (hok version hr.active)
  | edit comparisonId judgment location quote reasoning =>
      obtain ⟨c, m, he⟩ := edited_of_ok h
      have hmatrices : store'.matrices = store.matrices := by rw [he.after]
      have hversions : store'.versionIds = store.versionIds := by
        rw [he.after]
        rfl
      refine ⟨hplaced, ?_, ?_⟩
      · intro m' hm'
        rw [hversions]
        exact hs.versions m' (hmatrices ▸ hm')
      · intro m' hm'
        refine drawn_congr (by rw [he.after]) rfl rfl (fun place _ => ?_)
          (hs.drawn m' (hmatrices ▸ hm'))
        rw [he.places]
  | confirm matrixId =>
      have hafter := (Except.ok.inj h).symm
      subst hafter
      refine ⟨hplaced, ?_, ?_⟩
      · intro m' hm'
        obtain ⟨m, hm, rfl⟩ := List.mem_map.mp hm'
        split
        · exact hs.versions m hm
        · exact hs.versions m hm
      · intro m' hm'
        obtain ⟨m, hm, rfl⟩ := List.mem_map.mp hm'
        split
        · exact drawn_congr rfl rfl rfl (fun _ _ => Iff.rfl) (hs.drawn m hm)
        · exact drawn_congr rfl rfl rfl (fun _ _ => Iff.rfl) (hs.drawn m hm)
  | triage candidateId status =>
      rw [triaged_of_ok h] at hplaced ⊢
      exact ⟨hplaced, hs.versions, hs.drawn⟩

-- ============================================================== every run

/-- An accepted request that keeps the charts of the case. -/
def KeepsCharts (store : CaseStore) : CaseEvent → Prop
  | .feature event => ∀ after, serveFeature store event = .ok after →
      FeatureKeepsCharts store event.op
  | .comparison event => ∀ after, serveComparison store event = .ok after →
      ComparisonKeepsCharts store event.op

theorem charted_afterRequest (store : CaseStore) (event : CaseEvent)
    (hs : Charted store) (hok : KeepsCharts store event) :
    Charted (afterRequest store event) := by
  cases event with
  | feature event =>
      exact settle_of_forall hs fun after h =>
        charted_executeFeature hs (hok after h) (execute_of_serve h)
  | comparison event =>
      exact settle_of_forall hs fun after h =>
        charted_executeComparison hs (hok after h)
          (execute_of_serveComparison h)

/-- An assembly counts the features of the version, and a feature without
a cell blocks. -/
def FaithfulAssembly (store : CaseStore) : Prop :=
  CountsFeatures store ∧ UncoveredBlocks store

/-- Along a run whose accepted requests keep the charts of the case, every
assembly counts the features of the version. -/
theorem assembly_stays_faithful (base : CaseStore) (events : List CaseEvent)
    (h : Along afterRequest KeepsCharts base.newCase events) :
    Always afterRequest FaithfulAssembly base.newCase events := by
  intro es hpre
  obtain ⟨rest, rfl⟩ := hpre
  have hstart : Charted base.newCase :=
    ⟨⟨List.nodup_nil, fun c hc => (nomatch hc), fun c hc => (nomatch hc)⟩,
      fun m hm => (nomatch hm), fun m hm => (nomatch hm)⟩
  have hs : Charted (run afterRequest base.newCase es) :=
    run_invariant charted_afterRequest hstart (along_append.mp h).1
  have hcounts := countsFeatures_of_charted hs
  exact ⟨hcounts, uncovered_blocks hs.placed hcounts⟩

/-- A case with a document, a filing date and one published candidate. -/
def caseToAssess : CaseStore :=
  { oneDocument with
    candidates := ⟨[{ smallCandidate with
      publicationDate := some (.ofNumbers 2020 1 6 (.refl true)) }], by decide⟩
    applicationProfile := some
      { filingDate := .ofNumbers 2024 1 8 (.refl true)
        applicationType := "invention", priorityClaims := [] }
    candidateProfiles := [
      { candidateId := "d1"
        filingDate := some (.ofNumbers 2019 1 7 (.refl true))
        priorityDate := none, filedInChina := true, sourceVerified := true }] }

/-- Extracting the feature F1. -/
def extractF1 : CaseEvent :=
  .feature (request (fun n => if n = 0 then "v1" else "f1")
    (.extract none [⟨"F1", "characterizing", "外壳", none, none, 1⟩]))

/-- Adding the feature F2. -/
def addF2 : CaseEvent :=
  .feature (request (fun _ => "f2")
    (.add "v1" "F2" "characterizing" "阀门" none none))

/-- Building the matrix, every pair judged identical. -/
def buildIdentical : CaseEvent :=
  .comparison (comparisonAt 10
    (fun n => if n = 0 then "m1" else if n = 1 then "c1" else "c2")
    (.rebuild (judgeAll "identical")))

theorem assembly_faithful_when_built_last :
    Always afterRequest FaithfulAssembly caseToAssess.newCase
      [extractF1, addF2, buildIdentical] :=
  assembly_stays_faithful caseToAssess [extractF1, addF2, buildIdentical]
    ⟨fun _ _ => trivial,
      fun _ _ => by
        show ∀ m ∈ CaseStore.matrices _ |>.rows, _ → _
        decide,
      fun _ _ => by
        show ∀ version ∈ activeVersion _, List.Nodup _
        decide,
      trivial⟩

/-- The state after the matrix was built and F2 added. -/
def addedAfterMatrix : CaseStore :=
  run afterRequest caseToAssess.newCase [extractF1, buildIdentical, addF2]

/-- F2 arrives after the matrix was built: the assembly counts one feature
of the two, and the document that discloses F1 passes the novelty gate
for the whole claim. -/
theorem feature_added_after_matrix :
    ((assemble addedAfterMatrix (atHour 12)).toOption.map fun a =>
        a.payload.totalFeatures) = some (some 1)
      ∧ (addedAfterMatrix.featuresOf "v1").length = 2
      ∧ (((assemble addedAfterMatrix (atHour 12)).toOption.bind fun a =>
          assessCase a.payload).map fun pkg =>
            pkg.findings.any fun f => f.riskKind = .novelty) = some true
      ∧ ¬ Always afterRequest FaithfulAssembly caseToAssess.newCase
        [extractF1, buildIdentical, addF2] := by
  have htotal : ((assemble addedAfterMatrix (atHour 12)).toOption.map fun a =>
      a.payload.totalFeatures) = some (some 1) := by decide
  have hversion : (assemblyMatrix addedAfterMatrix).map
      ComparisonMatrix.featureSetVersionId = some "v1" := by decide
  have hlength : (addedAfterMatrix.featuresOf "v1").length = 2 := by decide
  refine ⟨htotal, hlength, by decide, fun h => ?_⟩
  have hcounts : CountsFeatures addedAfterMatrix :=
    (h _ (List.prefix_refl _)).1
  cases hassemble : assemble addedAfterMatrix (atHour 12) with
  | error refusal =>
      rw [hassemble] at htotal
      cases htotal
  | ok a =>
      rw [hassemble] at htotal
      have hone : a.payload.totalFeatures = some 1 := Option.some.inj htotal
      obtain ⟨m, hm, hm'⟩ := hcounts _ a hassemble
      rw [hm] at hversion
      rw [Option.some.inj hversion, hlength, hone] at hm'
      exact absurd hm' (by decide)

end PatentEvidence.Cases
