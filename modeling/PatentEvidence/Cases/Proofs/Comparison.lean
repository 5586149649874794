/-
What an accepted request of the comparison service leaves.

One inversion per operation: `rebuilt_of_ok` and `edited_of_ok` say which
rows changed and how, and everything else about the service is derived
from them. A rebuild proposes one cell for every pair of a feature and an
active candidate; no two proposals are for one place, because features
and candidates have distinct ids.
-/
import Mathlib.Data.List.ProdSigma
import PatentEvidence.Cases.Comparison
import PatentEvidence.Lib.Run

namespace PatentEvidence.Cases

open Fallible Grouping

variable {store store' : CaseStore} {env : Env}
  {judge : ClaimFeature → SearchCandidate → ComparisonResult}

-- ======================================================== what is compared

theorem perm_sortedBy {α ρ : Type _} [LinearOrder ρ] (rank : α → ρ)
    (l : List α) : (CaseStore.sortedBy rank l).Perm l :=
  List.perm_insertionSort ..

theorem mem_orderedFeatures {versionId : String} {f : ClaimFeature} :
    f ∈ orderedFeatures store versionId
      ↔ f ∈ store.features.rows ∧ f.featureSetVersionId = versionId := by
  unfold orderedFeatures CaseStore.featuresOf
  rw [(perm_sortedBy ..).mem_iff, List.mem_filter, decide_eq_true_eq]

theorem nodup_ids_orderedFeatures (store : CaseStore) (versionId : String) :
    ((orderedFeatures store versionId).map ClaimFeature.id).Nodup := by
  unfold orderedFeatures CaseStore.featuresOf
  rw [((perm_sortedBy ..).map ClaimFeature.id).nodup_iff]
  exact store.features.nodup.sublist (List.filter_sublist.map _)

theorem rankedCandidates_subset {ties : String → Nat} :
    rankedCandidates store ties ⊆ store.candidates.rows :=
  fun _ hc => (perm_sortedBy ..).mem_iff.mp (List.mem_of_mem_take hc)

theorem nodup_ids_rankedCandidates (store : CaseStore) (ties : String → Nat) :
    ((rankedCandidates store ties).map SearchCandidate.id).Nodup := by
  unfold rankedCandidates
  refine List.Nodup.sublist ((List.take_sublist ..).map _) ?_
  rw [((perm_sortedBy ..).map SearchCandidate.id).nodup_iff]
  exact store.candidates.nodup

theorem activeCandidates_sublist {ties : String → Nat} :
    (activeCandidates store ties).Sublist (rankedCandidates store ties) := by
  unfold activeCandidates
  dsimp only
  split
  · exact List.filter_sublist
  · exact List.take_sublist ..

theorem activeCandidates_subset {ties : String → Nat} :
    activeCandidates store ties ⊆ store.candidates.rows :=
  fun _ hc => rankedCandidates_subset (activeCandidates_sublist.subset hc)

theorem nodup_ids_activeCandidates (store : CaseStore) (ties : String → Nat) :
    ((activeCandidates store ties).map SearchCandidate.id).Nodup :=
  (nodup_ids_rankedCandidates store ties).sublist (activeCandidates_sublist.map _)

theorem activeCandidates_ne_nil {ties : String → Nat}
    (h : rankedCandidates store ties ≠ []) :
    activeCandidates store ties ≠ [] := by
  unfold activeCandidates
  dsimp only
  split
  · assumption
  · intro hnil
    apply h
    cases hranked : rankedCandidates store ties with
    | nil => rfl
    | cons c cs =>
        rw [hranked] at hnil
        cases hnil

-- ============================================================ the proposals

theorem mem_comparedPairs {features : List ClaimFeature}
    {candidates : List SearchCandidate}
    {pair : ClaimFeature × SearchCandidate} :
    pair ∈ comparedPairs features candidates
      ↔ pair.1 ∈ features ∧ pair.2 ∈ candidates :=
  List.mem_product

/-- The pairs of one candidate, by features. -/
theorem comparedPairs_of_candidate {features : List ClaimFeature}
    {candidates : List SearchCandidate}
    (hc : (candidates.map SearchCandidate.id).Nodup) {d : SearchCandidate}
    (hd : d ∈ candidates) :
    (comparedPairs features candidates).filter (fun p => p.2.id = d.id)
      = features.map fun f => (f, d) := by
  induction features with
  | nil => rfl
  | cons f features ih =>
      have hcons : comparedPairs (f :: features) candidates
          = candidates.map (fun c => (f, c))
            ++ comparedPairs features candidates := rfl
      rw [hcons, List.filter_append, ih, List.filter_map]
      have hone : candidates.filter ((fun p : ClaimFeature × SearchCandidate =>
          decide (p.2.id = d.id)) ∘ fun c => (f, c)) = [d] :=
        Table.filter_key_eq hc hd
      rw [hone]
      rfl

/-- Reading a column of the proposals pair by pair. -/
theorem map_proposedCells {γ : Type _} {matrixId : String}
    {features : List ClaimFeature} {candidates : List SearchCandidate}
    (column : FeatureComparison → γ)
    (value : ClaimFeature × SearchCandidate → γ)
    (h : ∀ id pair, column (proposedCell env matrixId id pair.1 pair.2
      (judge pair.1 pair.2)) = value pair) :
    (proposedCells env matrixId features candidates judge).map column
      = (comparedPairs features candidates).map value :=
  Table.map_mapIdx_of_forall (fun i (pair : ClaimFeature × SearchCandidate) =>
    proposedCell env matrixId (env.uuids (1 + i)) pair.1 pair.2
      (judge pair.1 pair.2)) (fun _ pair => h _ pair) _

/-- A proposal is the cell of a compared pair. -/
theorem exists_of_mem_proposedCells {matrixId : String}
    {features : List ClaimFeature} {candidates : List SearchCandidate}
    {x : FeatureComparison}
    (hx : x ∈ proposedCells env matrixId features candidates judge) :
    ∃ f ∈ features, ∃ c ∈ candidates, ∃ id,
      x = proposedCell env matrixId id f c (judge f c) := by
  obtain ⟨i, hi, rfl⟩ := List.mem_mapIdx.mp hx
  obtain ⟨hf, hc⟩ := mem_comparedPairs.mp (List.getElem_mem hi)
  exact ⟨_, hf, _, hc, _, rfl⟩

/-- No two proposals are for one place. -/
theorem nodup_places_proposedCells {matrixId : String}
    {features : List ClaimFeature} {candidates : List SearchCandidate}
    (hf : (features.map ClaimFeature.id).Nodup)
    (hc : (candidates.map SearchCandidate.id).Nodup) :
    ((proposedCells env matrixId features candidates judge).map
      FeatureComparison.place).Nodup := by
  rw [map_proposedCells FeatureComparison.place
    (fun pair => (matrixId, pair.1.id, pair.2.id)) fun _ _ => rfl]
  have hpairs : (comparedPairs features candidates).Nodup :=
    List.Nodup.product (.of_map _ hf) (.of_map _ hc)
  refine hpairs.map_on fun p hp q hq heq => ?_
  obtain ⟨hpf, hpc⟩ := mem_comparedPairs.mp hp
  obtain ⟨hqf, hqc⟩ := mem_comparedPairs.mp hq
  obtain ⟨hfeature, hcandidate⟩ := Prod.mk.inj (Prod.mk.inj heq).2
  exact Prod.ext (List.inj_on_of_nodup_map hf hpf hqf hfeature)
    (List.inj_on_of_nodup_map hc hpc hqc hcandidate)

theorem place_overwrite (excluded c : FeatureComparison) :
    (overwrite excluded c).place = c.place := by
  unfold overwrite
  split <;> rfl

-- ================================================================== rebuild

/-- The id of a version's matrix: of the one there, or the id drawn. -/
def CaseStore.matrixIdFor (store : CaseStore) (env : Env)
    (versionId : String) : String :=
  match store.matrices.rows.find? fun m =>
    m.featureSetVersionId = versionId with
  | some m => m.id
  | none => env.uuids 0

/-- A rebuild's proposals. -/
def CaseStore.proposals (store : CaseStore) (env : Env) (matrixId : String)
    (version : FeatureSetVersion)
    (judge : ClaimFeature → SearchCandidate → ComparisonResult) :
    List FeatureComparison :=
  proposedCells env matrixId (orderedFeatures store version.id)
    (activeCandidates store env.ties) judge

theorem nodup_places_proposals {matrixId : String}
    {version : FeatureSetVersion} :
    ((store.proposals env matrixId version judge).map
      FeatureComparison.place).Nodup :=
  nodup_places_proposedCells (nodup_ids_orderedFeatures store version.id)
    (nodup_ids_activeCandidates store env.ties)

/-- The summary a rebuild stores. -/
def CaseStore.freshSummary (store : CaseStore) (env : Env) (matrixId : String)
    (version : FeatureSetVersion)
    (judge : ClaimFeature → SearchCandidate → ComparisonResult) : String :=
  (evaluateMatrix (orderedFeatures store version.id)
    (activeCandidates store env.ties)
    (freshRecords matrixId (orderedFeatures store version.id)
      (activeCandidates store env.ties) judge)).summary

/-- The matrix row a rebuild of a version leaves. -/
def rebuiltRow (env : Env) (versionId matrixId summary : String)
    (m : ComparisonMatrix) : ComparisonMatrix :=
  if m.featureSetVersionId = versionId then
    if m.id = matrixId then
      { m with status := .draft, summary := some summary, updatedAt := env.now }
    else { m with status := .draft, updatedAt := env.now }
  else m

/-- The matrix row a rebuild inserts. -/
def insertedRow (env : Env) (versionId summary : String) : ComparisonMatrix :=
  { id := env.uuids 0
    featureSetVersionId := versionId
    name := "权利要求特征比对表"
    status := .draft
    summary := some summary
    createdAt := env.now
    updatedAt := env.now }

/-- What an accepted rebuild read and wrote. -/
structure Rebuilt (store : CaseStore) (env : Env)
    (judge : ClaimFeature → SearchCandidate → ComparisonResult)
    (store' : CaseStore) (version : FeatureSetVersion) (matrixId : String) :
    Prop where
  active : activeVersion store = some version
  matrix : matrixId = store.matrixIdFor env version.id
  features : orderedFeatures store version.id ≠ []
  candidates : activeCandidates store env.ties ≠ []
  cells : store'.cells.rows
    = store.cells.rows.map (Table.merged FeatureComparison.place overwrite
        (store.proposals env matrixId version judge))
      ++ store.cells.unplaced FeatureComparison.place
          (store.proposals env matrixId version judge)
  places : (store.cells.rows.map FeatureComparison.place).Nodup →
    (store'.cells.rows.map FeatureComparison.place).Nodup
  matrices :
    ((∃ m ∈ store.matrices.rows, m.id = matrixId
        ∧ m.featureSetVersionId = version.id)
      ∧ store'.matrices.rows = store.matrices.rows.map (rebuiltRow env
          version.id matrixId (store.freshSummary env matrixId version judge)))
    ∨ ((∀ m ∈ store.matrices.rows, m.featureSetVersionId ≠ version.id)
      ∧ (∀ m ∈ store.matrices.rows, m.id ≠ matrixId)
      ∧ matrixId = env.uuids 0
      ∧ store'.matrices.rows = store.matrices.rows ++ [insertedRow env
          version.id (store.freshSummary env matrixId version judge)])
  frame : store' = { store with matrices := store'.matrices
                                cells := store'.cells }

/-- The matrix a rebuild fills. -/
theorem id_of_upsertMatrix {versionId : String}
    {mid : Table ComparisonMatrix.id} {matrix : ComparisonMatrix}
    (hmid : upsertMatrix store env versionId = some mid)
    (hmatrix : matrixOfVersion mid versionId = .ok matrix) :
    matrix.id = store.matrixIdFor env versionId := by
  have hfind := orDatabase_eq_ok.mp hmatrix
  unfold upsertMatrix Table.upsert? at hmid
  unfold CaseStore.matrixIdFor
  split at hmid
  · cases hmid
    rw [Table.rows_update, List.find?_map, Option.map_eq_some_iff] at hfind
    obtain ⟨m, hm, hrow⟩ := hfind
    have hsame : (fun m : ComparisonMatrix =>
        decide (m.featureSetVersionId = versionId)) ∘ (fun m =>
          if decide (m.featureSetVersionId = versionId) = true then
            { m with status := .draft, updatedAt := env.now } else m)
        = fun m => decide (m.featureSetVersionId = versionId) := by
      funext m
      simp only [Function.comp_apply]
      split <;> rfl
    rw [hsame] at hm
    rw [hm, ← hrow]
    split <;> rfl
  · next hnot =>
      obtain ⟨-, hrows⟩ := Table.insert?_eq_some.mp hmid
      have hnone : store.matrices.rows.find? (fun m =>
          m.featureSetVersionId = versionId) = none := by
        apply List.find?_eq_none.mpr
        intro m hm heq
        rw [decide_eq_true_eq] at heq
        exact hnot (List.mem_map.mpr ⟨m, hm, heq⟩)
      rw [hrows, List.find?_append, hnone, Option.none_or] at hfind
      rw [hnone, List.mem_singleton.mp (List.mem_of_find?_eq_some hfind)]

/-- The matrices after the upsert of a version's and the update of its
summary: one was reopened or one was put in. -/
theorem upsertMatrix_rows {versionId : String}
    {mid : Table ComparisonMatrix.id} {matrix : ComparisonMatrix}
    (hmid : upsertMatrix store env versionId = some mid)
    (hmatrix : matrixOfVersion mid versionId = .ok matrix) (summary : String) :
    ((∃ m ∈ store.matrices.rows, m.id = matrix.id
        ∧ m.featureSetVersionId = versionId)
      ∧ (mid.update (fun m => m.id = matrix.id) fun m =>
          { m with summary := some summary, updatedAt := env.now }).rows
        = store.matrices.rows.map
          (rebuiltRow env versionId matrix.id summary))
    ∨ ((∀ m ∈ store.matrices.rows, m.featureSetVersionId ≠ versionId)
      ∧ (∀ m ∈ store.matrices.rows, m.id ≠ matrix.id)
      ∧ matrix.id = env.uuids 0
      ∧ (mid.update (fun m => m.id = matrix.id) fun m =>
          { m with summary := some summary, updatedAt := env.now }).rows
        = store.matrices.rows ++ [insertedRow env versionId summary]) := by
  have hfind := orDatabase_eq_ok.mp hmatrix
  have hmem := List.mem_of_find?_eq_some hfind
  have hversion : matrix.featureSetVersionId = versionId := by
    simpa using List.find?_some hfind
  unfold upsertMatrix Table.upsert? at hmid
  simp only [Table.rows_update, decide_eq_true_eq]
  split at hmid
  · left
    cases hmid
    obtain ⟨m, hm, hmrow⟩ := List.mem_map.mp hmem
    have hid : m.id = matrix.id := by
      rw [← hmrow]
      split <;> rfl
    have hmv : m.featureSetVersionId = versionId := by
      rw [← hversion, ← hmrow]
      split <;> rfl
    refine ⟨⟨m, hm, hid, hmv⟩, ?_⟩
    rw [Table.rows_update, List.map_map]
    apply List.map_congr_left
    intro m' hm'
    simp only [Function.comp_apply, decide_eq_true_eq, rebuiltRow]
    by_cases hv : m'.featureSetVersionId = versionId
    · simp only [if_pos hv]
    · have hne : m'.id ≠ matrix.id := fun heq =>
        hv (store.matrices.eq_of_key_eq hm' hm (heq.trans hid.symm) ▸ hmv)
      simp only [if_neg hv, if_neg hne]
  · next hnot =>
      right
      obtain ⟨hfresh, hrows⟩ := Table.insert?_eq_some.mp hmid
      have hnone : ∀ m ∈ store.matrices.rows,
          m.featureSetVersionId ≠ versionId := fun m hm heq =>
        hnot (List.mem_map.mpr ⟨m, hm, heq⟩)
      rw [hrows, List.mem_append] at hmem
      rcases hmem with hold | hnew
      · exact absurd hversion (hnone matrix hold)
      · have hid : matrix.id = env.uuids 0 := by
          rw [List.mem_singleton.mp hnew]
        have hother : ∀ m ∈ store.matrices.rows, m.id ≠ matrix.id :=
          fun m hm heq =>
            hfresh (List.mem_map.mpr ⟨m, hm, heq.trans hid⟩)
        refine ⟨hnone, hother, hid, ?_⟩
        rw [hrows, List.map_append, List.map_singleton, if_pos hid.symm]
        congr 1
        conv_rhs => rw [← List.map_id store.matrices.rows]
        apply List.map_congr_left
        intro m hm
        rw [if_neg (hother m hm)]
        rfl

/-- An accepted rebuild. -/
theorem rebuilt_of_ok
    (h : generateOrRebuildMatrix store env judge = .ok store') :
    ∃ version matrixId, Rebuilt store env judge store' version matrixId := by
  unfold generateOrRebuildMatrix at h
  cases hactive : activeVersion store with
  | none =>
      rw [hactive] at h
      cases h
  | some version =>
      rw [hactive] at h
      dsimp only at h
      split at h
      · cases h
      · next hfeatures =>
          split at h
          · cases h
          · next hcandidates =>
              obtain ⟨mid, hmid, h⟩ := bind_eq_ok.mp h
              obtain ⟨matrix, hmatrix, h⟩ := bind_eq_ok.mp h
              obtain ⟨cells, hcells, h⟩ := bind_eq_ok.mp h
              cases Except.ok.inj h
              have hplaces : ((store.proposals env matrix.id version judge).map
                  FeatureComparison.place).Nodup := nodup_places_proposals
              have hupserted := orDatabase_eq_ok.mp hcells
              exact ⟨version, matrix.id, {
                active := hactive
                matrix := id_of_upsertMatrix (orDatabase_eq_ok.mp hmid)
                  hmatrix
                features := hfeatures
                candidates := activeCandidates_ne_nil hcandidates
                cells := Table.rows_of_upsertAll? place_overwrite hplaces
                  hupserted
                places := fun hp => Table.nodup_unique_of_upsertAll?
                  place_overwrite hplaces hp hupserted
                matrices := upsertMatrix_rows (orDatabase_eq_ok.mp hmid)
                  hmatrix _
                frame := rfl }⟩

-- ===================================================================== edit

/-- What an accepted edit read and wrote. -/
structure Edited (store : CaseStore) (env : Env) (comparisonId : String)
    (judgment location quote reasoning : Option String) (store' : CaseStore)
    (c : FeatureComparison) (m : ComparisonMatrix) : Prop where
  cell : c ∈ store.cells.rows
  id : c.id = comparisonId
  matrix : m ∈ store.matrices.rows
  matrixId : m.id = c.matrixId
  unlocked : m.status ≠ .confirmed
  judgments : ∀ j ∈ judgment, j ∈ ["identical", "equivalent", "different"]
  after : store' = { store with
    cells := store.cells.update (fun c => c.id = comparisonId)
      (editedCell env judgment location quote reasoning) }

/-- An accepted edit. -/
theorem edited_of_ok {comparisonId : String}
    {judgment location quote reasoning : Option String}
    (h : updateComparisonItem store env comparisonId judgment location quote
      reasoning = .ok store') :
    ∃ c m, Edited store env comparisonId judgment location quote reasoning
      store' c m := by
  unfold updateComparisonItem at h
  split at h
  · cases h
  · next m hjoin =>
      obtain ⟨c, hc, hm⟩ := Option.bind_eq_some_iff.mp hjoin
      obtain ⟨hcell, hid⟩ := Table.find?_eq_some hc
      obtain ⟨hmatrix, hmatrixId⟩ := Table.find?_eq_some hm
      split at h
      · cases h
      · next hunlocked =>
          split at h
          · cases h
          · next hjudgments =>
              refine ⟨c, m, hcell, hid, hmatrix, hmatrixId, hunlocked, ?_,
                (Except.ok.inj h).symm⟩
              intro j hj
              by_contra hnot
              exact hjudgments ⟨j, hj, hnot⟩

theorem Edited.rows {comparisonId : String}
    {judgment location quote reasoning : Option String}
    {c : FeatureComparison} {m : ComparisonMatrix}
    (he : Edited store env comparisonId judgment location quote reasoning
      store' c m) :
    store'.cells.rows = store.cells.rows.map fun c =>
      if c.id = comparisonId then
        editedCell env judgment location quote reasoning c
      else c := by
  rw [he.after]
  apply List.map_congr_left
  intro c' _
  simp only [decide_eq_true_eq]

-- ================================================================== service

theorem execute_of_serveComparison {event : ComparisonEvent}
    (h : serveComparison store event = .ok store') :
    executeComparison store event.env event.op = .ok store' := by
  obtain ⟨after, hafter, h⟩ := bind_eq_ok.mp h
  rw [(commit_eq_ok.mp h).2]
  exact hafter

theorem triaged_of_ok {candidateId status : String}
    (h : updateTriage store candidateId status = .ok store') :
    store' = { store with triage := store.triage.set candidateId status } := by
  unfold updateTriage at h
  split at h
  · cases h
  · split at h
    · cases h
    · exact (Except.ok.inj h).symm

-- ================================================== where the cells stand

/-- One cell per place; its feature is of the version of its matrix, and
its candidate of the case. -/
structure Placed (store : CaseStore) : Prop where
  places : (store.cells.rows.map FeatureComparison.place).Nodup
  feature : ∀ c ∈ store.cells.rows, ∃ m ∈ store.matrices.rows,
    m.id = c.matrixId ∧ ∃ f ∈ orderedFeatures store m.featureSetVersionId,
      f.id = c.claimFeatureId
  candidate : ∀ c ∈ store.cells.rows, ∃ d ∈ store.candidates.rows,
    d.id = c.candidateId

theorem orderedFeatures_congr (h : store'.features = store.features)
    (versionId : String) :
    orderedFeatures store' versionId = orderedFeatures store versionId := by
  unfold orderedFeatures CaseStore.featuresOf
  rw [h]

theorem id_rebuiltRow {versionId matrixId summary : String}
    (m : ComparisonMatrix) :
    (rebuiltRow env versionId matrixId summary m).id = m.id := by
  unfold rebuiltRow
  split
  · split <;> rfl
  · rfl

theorem version_rebuiltRow {versionId matrixId summary : String}
    (m : ComparisonMatrix) :
    (rebuiltRow env versionId matrixId summary m).featureSetVersionId
      = m.featureSetVersionId := by
  unfold rebuiltRow
  split
  · split <;> rfl
  · rfl

section Rebuild

variable {version : FeatureSetVersion} {matrixId : String}

theorem Rebuilt.features_eq
    (hr : Rebuilt store env judge store' version matrixId) :
    store'.features = store.features := by
  rw [hr.frame]

theorem Rebuilt.candidates_eq
    (hr : Rebuilt store env judge store' version matrixId) :
    store'.candidates = store.candidates := by
  rw [hr.frame]

/-- The matrix a rebuild fills is there afterwards. -/
theorem Rebuilt.matrix_mem
    (hr : Rebuilt store env judge store' version matrixId) :
    ∃ m ∈ store'.matrices.rows, m.id = matrixId
      ∧ m.featureSetVersionId = version.id := by
  rcases hr.matrices with ⟨⟨m, hm, hid, hv⟩, hrows⟩ | ⟨-, -, hid, hrows⟩
  · refine ⟨_, hrows ▸ List.mem_map_of_mem hm, ?_, ?_⟩
    · rw [id_rebuiltRow, hid]
    · rw [version_rebuiltRow, hv]
  · refine ⟨_, hrows ▸ List.mem_append_right _ (List.mem_singleton_self _),
      ?_, rfl⟩
    rw [hid]
    rfl

/-- No rebuild removes a matrix or moves it to another version. -/
theorem Rebuilt.matrix_kept
    (hr : Rebuilt store env judge store' version matrixId)
    {m : ComparisonMatrix} (hm : m ∈ store.matrices.rows) :
    ∃ m' ∈ store'.matrices.rows, m'.id = m.id
      ∧ m'.featureSetVersionId = m.featureSetVersionId := by
  rcases hr.matrices with ⟨-, hrows⟩ | ⟨-, -, -, hrows⟩
  · exact ⟨_, hrows ▸ List.mem_map_of_mem hm, id_rebuiltRow m,
      version_rebuiltRow m⟩
  · exact ⟨m, hrows ▸ List.mem_append_left _ hm, rfl, rfl⟩

theorem place_merged (xs : List FeatureComparison) (c : FeatureComparison) :
    (Table.merged FeatureComparison.place overwrite xs c).place = c.place :=
  Table.unique_merged place_overwrite xs c

/-- A cell after a rebuild is at the place of an old one or of a
proposal. -/
theorem Rebuilt.mem_cells
    (hr : Rebuilt store env judge store' version matrixId)
    {c : FeatureComparison} (hc : c ∈ store'.cells.rows) :
    (∃ old ∈ store.cells.rows, c = Table.merged FeatureComparison.place
        overwrite (store.proposals env matrixId version judge) old)
      ∨ (c ∈ store.proposals env matrixId version judge
        ∧ c.place ∉ store.cells.rows.map FeatureComparison.place) := by
  rw [hr.cells, List.mem_append] at hc
  rcases hc with hc | hc
  · obtain ⟨old, hold, rfl⟩ := List.mem_map.mp hc
    exact .inl ⟨old, hold, rfl⟩
  · exact .inr (Table.mem_unplaced.mp hc)

theorem placed_rebuilt
    (hr : Rebuilt store env judge store' version matrixId)
    (hp : Placed store) : Placed store' := by
  refine ⟨hr.places hp.places, ?_, ?_⟩
  · intro c hc
    rcases hr.mem_cells hc with ⟨old, hold, rfl⟩ | ⟨hc, -⟩
    · obtain ⟨m, hm, hid, f, hf, hfid⟩ := hp.feature old hold
      obtain ⟨m', hm', hid', hv'⟩ := hr.matrix_kept hm
      obtain ⟨hmatrix, hplace⟩ := Prod.mk.inj (place_merged
        (store.proposals env matrixId version judge) old)
      refine ⟨m', hm', hid'.trans (hid.trans hmatrix.symm), f, ?_,
        hfid.trans (Prod.mk.inj hplace).1.symm⟩
      rw [orderedFeatures_congr hr.features_eq, hv']
      exact hf
    · obtain ⟨f, hf, d, -, id, rfl⟩ := exists_of_mem_proposedCells hc
      obtain ⟨m, hm, hid, hv⟩ := hr.matrix_mem
      refine ⟨m, hm, hid, f, ?_, rfl⟩
      rw [orderedFeatures_congr hr.features_eq, hv]
      exact hf
  · intro c hc
    rw [hr.candidates_eq]
    rcases hr.mem_cells hc with ⟨old, hold, rfl⟩ | ⟨hc, -⟩
    · obtain ⟨d, hd, hid⟩ := hp.candidate old hold
      obtain ⟨-, hplace⟩ := Prod.mk.inj (place_merged
        (store.proposals env matrixId version judge) old)
      exact ⟨d, hd, hid.trans (Prod.mk.inj hplace).2.symm⟩
    · obtain ⟨f, -, d, hd, id, rfl⟩ := exists_of_mem_proposedCells hc
      exact ⟨d, activeCandidates_subset hd, rfl⟩

end Rebuild

/-- An edit leaves every cell in its place. -/
theorem Edited.places {comparisonId : String}
    {judgment location quote reasoning : Option String}
    {c : FeatureComparison} {m : ComparisonMatrix}
    (he : Edited store env comparisonId judgment location quote reasoning
      store' c m) :
    store'.cells.rows.map FeatureComparison.place
      = store.cells.rows.map FeatureComparison.place := by
  rw [he.rows]
  apply Table.map_rewrite_of_fixed
  intro c'
  rfl

theorem placed_edited {comparisonId : String}
    {judgment location quote reasoning : Option String}
    {c : FeatureComparison} {m : ComparisonMatrix}
    (he : Edited store env comparisonId judgment location quote reasoning
      store' c m) (hp : Placed store) : Placed store' := by
  have hplaces := he.places
  have hold : ∀ c' ∈ store'.cells.rows, ∃ old ∈ store.cells.rows,
      old.place = c'.place := by
    intro c' hc'
    exact List.mem_map.mp (hplaces ▸ List.mem_map_of_mem hc')
  have hmatrices : store'.matrices = store.matrices := by rw [he.after]
  have hfeatures : store'.features = store.features := by rw [he.after]
  have hcandidates : store'.candidates = store.candidates := by rw [he.after]
  refine ⟨hplaces ▸ hp.places, ?_, ?_⟩
  · intro c' hc'
    obtain ⟨old, hmem, hplace⟩ := hold c' hc'
    obtain ⟨hmatrix, hrest⟩ := Prod.mk.inj hplace
    obtain ⟨m, hm, hid, f, hf, hfid⟩ := hp.feature old hmem
    refine ⟨m, hmatrices ▸ hm, hid.trans hmatrix, f, ?_,
      hfid.trans (Prod.mk.inj hrest).1⟩
    rw [orderedFeatures_congr hfeatures]
    exact hf
  · intro c' hc'
    obtain ⟨old, hmem, hplace⟩ := hold c' hc'
    obtain ⟨-, hrest⟩ := Prod.mk.inj hplace
    obtain ⟨d, hd, hid⟩ := hp.candidate old hmem
    exact ⟨d, hcandidates ▸ hd, hid.trans (Prod.mk.inj hrest).2⟩

/-- A confirmation changes no id and no version of a matrix. -/
theorem placed_confirmMatrix (matrixId : String) (hp : Placed store) :
    Placed (confirmMatrix store env matrixId) := by
  refine ⟨hp.places, ?_, hp.candidate⟩
  intro c hc
  obtain ⟨m, hm, hid, hf⟩ := hp.feature c hc
  refine ⟨_, List.mem_map_of_mem hm, ?_, ?_⟩
  · split
    · exact hid
    · exact hid
  · split
    · exact hf
    · exact hf

/-- What every accepted request keeps. -/
theorem placed_execute {op : ComparisonOp} (hp : Placed store)
    (h : executeComparison store env op = .ok store') : Placed store' := by
  cases op with
  | rebuild judge =>
      obtain ⟨version, matrixId, hr⟩ := rebuilt_of_ok h
      exact placed_rebuilt hr hp
  | edit comparisonId judgment location quote reasoning =>
      obtain ⟨c, m, he⟩ := edited_of_ok h
      exact placed_edited he hp
  | confirm matrixId =>
      rw [← Except.ok.inj h]
      exact placed_confirmMatrix matrixId hp
  | triage candidateId status =>
      rw [triaged_of_ok h]
      exact ⟨hp.places, hp.feature, hp.candidate⟩

-- ============================================================= a small case

/-- Hours are counted from zero. -/
instance hours_ne_zero : NeZero 24 := ⟨by decide⟩

/-- A time of day on one day. -/
def atHour (hour : Fin 24) : Instant :=
  ⟨.ofNumbers 2025 1 6 (.refl true), hour, 0, 0, 0, ⟨hour.isLt, by decide⟩⟩

/-- A candidate. -/
def smallCandidate : SearchCandidate :=
  { id := "d1", publicationNumber := "CN1A", title := "一种装置"
    abstract := "", relevanceScore := 1, createdAt := atHour 8 }

/-- A confirmed version with one feature, and one candidate. -/
def smallCase : CaseStore :=
  { status := "features_confirmed"
    documents := []
    versions := ⟨[{ id := "v1", documentVersionId := "doc", versionNumber := 1
                    parentVersionId := none, status := .confirmed
                    summary := "", createdAt := atHour 8
                    updatedAt := atHour 8 }], by decide⟩
    features := ⟨[{ id := "f1", featureSetVersionId := "v1"
                    featureCode := "F1", featureType := "characterizing"
                    featureStatement := "外壳", sourceParagraphId := none
                    citationQuote := none, sortOrder := 1
                    createdAt := atHour 8, updatedAt := atHour 8 }],
      by decide⟩
    candidates := ⟨[smallCandidate], by decide⟩
    triage := .empty
    matrices := .empty
    cells := .empty
    applicationProfile := none
    candidateProfiles := []
    searchJobs := [] }

/-- A request at an hour, which names the rows it inserts by the given
ids. -/
def comparisonAt (hour : Fin 24) (uuids : Nat → String) (op : ComparisonOp) :
    ComparisonEvent :=
  { op
    env := { now := atHour hour, uuids, ties := fun _ => 0
             actorIdentityId := "agent", commits := true } }

/-- Judging every pair the same. -/
def judgeAll (judgment : String) (_ : ClaimFeature) (_ : SearchCandidate) :
    ComparisonResult :=
  { judgment, confidenceScore := 90, citationLocation := "说明书[0012]段"
    citationQuote := "", reasoningAnalysis := "" }

end PatentEvidence.Cases
