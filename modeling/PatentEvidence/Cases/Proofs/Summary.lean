/-
When the summary stored on a matrix is the one its cells evaluate to.

`get_active_matrix` evaluates the stored cells on every read; the stored
summary is written by a rebuild alone, from the judgments it has just
drawn. The two part in three ways. An edit changes a stored judgment and not
the summary. A rebuild leaves cells that its evaluation did not see: cells
edited by hand keep their judgment, and cells of candidates no longer
active stay. And the summary names candidates in an order: a rebuild takes
them as ranked, a read by their first cell, and cells of one moment come in
any order the database likes.

The condition is on the requests. An edit gives its cell a judgment that
counts as the one it has; a rebuild finds cells of active candidates only,
with fresh judgments that count as those edited by hand; and the candidates
its summary names have their first cells in the order they are ranked in, at
different moments (`NamedInOrder`).

# Sections

- the property and the condition;
- the view;
- an edit;
- a rebuild;
- every run.
-/
import PatentEvidence.Cases.Proofs.Lock

namespace PatentEvidence.Cases

open Fallible Grouping Runs

variable {store store' : CaseStore} {env : Env} {ties : String → Nat}
  {judge : ClaimFeature → SearchCandidate → ComparisonResult}

-- ============================================================ the property

/-- Every stored summary is the one the stored cells evaluate to, in
whichever order the database gives the cells of one moment. -/
def SummariesCurrent (store : CaseStore) : Prop :=
  ∀ ties, ∀ m ∈ store.matrices.rows,
    m.summary = some (matrixView store ties m).evaluation.summary

-- =========================================================== the condition

/-- By the judgments drawn, a candidate covers every feature. -/
def CoversAll (features : List ClaimFeature)
    (judge : ClaimFeature → SearchCandidate → ComparisonResult)
    (d : SearchCandidate) : Prop :=
  ∀ f ∈ features, Covering (judge f d).judgment

/-- Or some feature. -/
def CoversSome (features : List ClaimFeature)
    (judge : ClaimFeature → SearchCandidate → ComparisonResult)
    (d : SearchCandidate) : Prop :=
  ∃ f ∈ features, Covering (judge f d).judgment

instance (features : List ClaimFeature)
    (judge : ClaimFeature → SearchCandidate → ComparisonResult) :
    DecidablePred (CoversAll features judge) :=
  fun _ => inferInstanceAs (Decidable (∀ f ∈ features, _))

instance (features : List ClaimFeature)
    (judge : ClaimFeature → SearchCandidate → ComparisonResult) :
    DecidablePred (CoversSome features judge) :=
  fun _ => inferInstanceAs (Decidable (∃ f ∈ features, _))

/-- The candidate of a cell and when the cell was created. -/
def FeatureComparison.appearance (c : FeatureComparison) : String × Instant :=
  (c.candidateId, c.createdAt)

/-- The places of the matrix a rebuild finds empty. -/
def CaseStore.missingPlaces (store : CaseStore) (env : Env) (matrixId : String)
    (version : FeatureSetVersion) : List (String × String × String) :=
  ((comparedPairs (orderedFeatures store version.id)
      (activeCandidates store env.ties)).map fun pair =>
    (matrixId, pair.1.id, pair.2.id)).filter fun place =>
      place ∉ store.cells.rows.map FeatureComparison.place

/-- The appearances once a rebuild has filled these. -/
def CaseStore.filledAppearances (store : CaseStore) (env : Env)
    (matrixId : String) (version : FeatureSetVersion) :
    List (String × Instant) :=
  (store.cellsOf matrixId).map FeatureComparison.appearance
    ++ (store.missingPlaces env matrixId version).map fun place =>
      (place.2.2, env.now)

/-- Some cell of a candidate is created before every cell of the other. -/
def CreatedBefore (appearances : List (String × Instant))
    (d d' : SearchCandidate) : Prop :=
  ∃ p ∈ appearances, p.1 = d.id ∧ ∀ q ∈ appearances, q.1 = d'.id → p.2 < q.2

instance (appearances : List (String × Instant)) :
    DecidableRel (CreatedBefore appearances) :=
  fun _ _ => inferInstanceAs (Decidable (∃ p ∈ appearances, _ ∧ _))

/-- The candidates that cover every feature appear in their order or, where
there is none, the first three that cover some, ahead of the others. -/
def NamedInOrder (features : List ClaimFeature)
    (judge : ClaimFeature → SearchCandidate → ComparisonResult)
    (appearances : List (String × Instant))
    (candidates : List SearchCandidate) : Prop :=
  if candidates.filter (CoversAll features judge) ≠ [] then
    (candidates.filter (CoversAll features judge)).Pairwise
      (CreatedBefore appearances)
  else
    Leads (CreatedBefore appearances) 3
      (candidates.filter (CoversSome features judge))

instance (features : List ClaimFeature)
    (judge : ClaimFeature → SearchCandidate → ComparisonResult)
    (appearances : List (String × Instant))
    (candidates : List SearchCandidate) :
    Decidable (NamedInOrder features judge appearances candidates) := by
  unfold NamedInOrder
  infer_instance

/-- What a rebuild of a version evaluates is what it leaves stored. -/
structure EvaluatesStored (store : CaseStore) (env : Env)
    (judge : ClaimFeature → SearchCandidate → ComparisonResult)
    (version : FeatureSetVersion) (matrixId : String) : Prop where
  active : ∀ c ∈ store.cellsOf matrixId,
    ∃ d ∈ activeCandidates store env.ties, d.id = c.candidateId
  manual : ∀ c ∈ store.cellsOf matrixId, c.isManuallyEdited = true →
    ∀ f ∈ orderedFeatures store version.id, f.id = c.claimFeatureId →
      ∀ d ∈ activeCandidates store env.ties, d.id = c.candidateId →
        countedAs c.judgment = countedAs (judge f d).judgment
  named : NamedInOrder (orderedFeatures store version.id) judge
    (store.filledAppearances env matrixId version)
    (activeCandidates store env.ties)

instance (store : CaseStore) (env : Env)
    (judge : ClaimFeature → SearchCandidate → ComparisonResult)
    (version : FeatureSetVersion) (matrixId : String) :
    Decidable (EvaluatesStored store env judge version matrixId) :=
  decidable_of_iff
    ((∀ c ∈ store.cellsOf matrixId,
      ∃ d ∈ activeCandidates store env.ties, d.id = c.candidateId)
    ∧ (∀ c ∈ store.cellsOf matrixId, c.isManuallyEdited = true →
      ∀ f ∈ orderedFeatures store version.id, f.id = c.claimFeatureId →
        ∀ d ∈ activeCandidates store env.ties, d.id = c.candidateId →
          countedAs c.judgment = countedAs (judge f d).judgment)
    ∧ NamedInOrder (orderedFeatures store version.id) judge
      (store.filledAppearances env matrixId version)
      (activeCandidates store env.ties))
    ⟨fun h => ⟨h.1, h.2.1, h.2.2⟩, fun h => ⟨h.active, h.manual, h.named⟩⟩

/-- The request leaves the stored judgments as the summary counts them. -/
def KeepsJudgments (store : CaseStore) (env : Env) : ComparisonOp → Prop
  | .rebuild judge => ∀ version ∈ activeVersion store,
      EvaluatesStored store env judge version (store.matrixIdFor env version.id)
  | .edit comparisonId judgment _ _ _ =>
      ∀ c ∈ store.cells.rows, c.id = comparisonId →
        ∀ j ∈ judgment, countedAs j = countedAs c.judgment
  | .confirm _ => True
  | .triage .. => True

instance (store : CaseStore) (env : Env) (op : ComparisonOp) :
    Decidable (KeepsJudgments store env op) :=
  match op with
  | .rebuild _ => inferInstanceAs (Decidable (∀ _ ∈ _, _))
  | .edit .. => inferInstanceAs (Decidable (∀ c ∈ store.cells.rows, _ → _))
  | .confirm _ => inferInstanceAs (Decidable True)
  | .triage .. => inferInstanceAs (Decidable True)

/-- An accepted request that does so. -/
def SummaryStaysRight (store : CaseStore) (event : ComparisonEvent) : Prop :=
  ∀ after, serveComparison store event = .ok after →
    KeepsJudgments store event.env event.op

-- =============================================================== the view

/-- The records a read evaluates. -/
def CaseStore.recordsOf (store : CaseStore) (ties : String → Nat)
    (matrixId : String) : List ComparisonRecord :=
  (cellsByAge store ties matrixId).map FeatureComparison.record

/-- The candidates records are about, by their first one. -/
def CaseStore.documentsOf (store : CaseStore)
    (records : List ComparisonRecord) : List SearchCandidate :=
  (firsts (records.map ComparisonRecord.candidateId)).filterMap
    store.candidates.find?

theorem perm_recordsOf (ties : String → Nat) (matrixId : String) :
    (store.recordsOf ties matrixId).Perm
      ((store.cellsOf matrixId).map FeatureComparison.record) :=
  (perm_sortedBy ..).map _

theorem recordsOf_congr {matrixId : String}
    (h : store'.cellsOf matrixId = store.cellsOf matrixId) :
    store'.recordsOf ties matrixId = store.recordsOf ties matrixId := by
  unfold CaseStore.recordsOf cellsByAge
  rw [h]

/-- What a read evaluates, by its records. -/
theorem evaluation_matrixView (hp : Placed store) (m : ComparisonMatrix) :
    (matrixView store ties m).evaluation = evaluateMatrix
      (orderedFeatures store m.featureSetVersionId)
      (store.documentsOf (store.recordsOf ties m.id))
      (store.recordsOf ties m.id) := by
  have hcells : (matrixView store ties m).comparisons
      = cellsByAge store ties m.id := by
    apply List.filter_eq_self.mpr
    intro c hc
    have hmem : c ∈ store.cells.rows :=
      (List.mem_filter.mp ((perm_sortedBy ..).mem_iff.mp hc)).1
    obtain ⟨d, hd, hid⟩ := hp.candidate c hmem
    rw [← hid, Table.find?_of_mem hd]
    rfl
  have hcandidates : (matrixView store ties m).candidates
      = store.documentsOf (store.recordsOf ties m.id) := by
    show ((groupBy FeatureComparison.candidateId
      (matrixView store ties m).comparisons).keys).filterMap _ = _
    rw [hcells, keys_groupBy, CaseStore.documentsOf, CaseStore.recordsOf,
      List.map_map]
    rfl
  show evaluateMatrix _ (matrixView store ties m).candidates
    ((matrixView store ties m).comparisons.map _) = _
  rw [hcandidates, hcells]
  rfl

theorem mem_documentsOf {records : List ComparisonRecord} {d : SearchCandidate} :
    d ∈ store.documentsOf records
      ↔ (∃ r ∈ records, r.candidateId = d.id) ∧ d ∈ store.candidates.rows := by
  unfold CaseStore.documentsOf
  simp only [List.mem_filterMap, mem_firsts, List.mem_map]
  constructor
  · rintro ⟨id, hid, hfind⟩
    obtain ⟨hd, rfl⟩ := Table.find?_eq_some hfind
    exact ⟨hid, hd⟩
  · rintro ⟨hid, hd⟩
    exact ⟨d.id, hid, Table.find?_of_mem hd⟩

theorem nodup_documentsOf (records : List ComparisonRecord) :
    (store.documentsOf records).Nodup := by
  refine List.Nodup.filterMap (fun id id' d hd hd' => ?_) (nodup_firsts _)
  exact (Table.find?_eq_some hd).2.symm.trans (Table.find?_eq_some hd').2

/-- No candidate that is read appears before one read ahead of it. -/
theorem documentsOf_in_order (matrixId : String) :
    (store.documentsOf (store.recordsOf ties matrixId)).Pairwise fun d d' =>
      ¬ CreatedBefore ((store.cellsOf matrixId).map FeatureComparison.appearance)
        d' d := by
  have hperm : ((cellsByAge store ties matrixId).map
      FeatureComparison.appearance).Perm
        ((store.cellsOf matrixId).map FeatureComparison.appearance) :=
    (perm_sortedBy ..).map _
  have hsorted : ((cellsByAge store ties matrixId).map
      FeatureComparison.appearance).Pairwise fun p q => p.2 ≤ q.2 := by
    rw [List.pairwise_map]
    refine (List.pairwise_insertionSort _ _).imp fun h => ?_
    exact (Prod.Lex.le_iff.mp h).elim le_of_lt fun heq => le_of_eq heq.1
  have hfirsts := pairwise_firsts hsorted
  rw [List.map_map] at hfirsts
  unfold CaseStore.documentsOf CaseStore.recordsOf
  rw [List.map_map]
  refine List.Pairwise.filterMap _ (fun id id' hbefore d hd d' hd' => ?_) hfirsts
  rintro ⟨q, hq, hqid, hall⟩
  obtain ⟨-, rfl⟩ := Table.find?_eq_some hd
  obtain ⟨-, rfl⟩ := Table.find?_eq_some hd'
  obtain ⟨p, hp, hpid, hle⟩ := hbefore q (hperm.mem_iff.mpr hq) hqid
  exact absurd (hall p (hperm.mem_iff.mp hp) hpid) (not_lt.mpr hle)

-- ================================================================ an edit

section Edit

variable {comparisonId : String}
  {judgment location quote reasoning : Option String}
  {c : FeatureComparison} {m : ComparisonMatrix}

/-- An edit that keeps what its cell counts as keeps the counts. -/
theorem counted_recordsOf_edited (matrixId : String)
    (he : Edited store env comparisonId judgment location quote reasoning
      store' c m)
    (hkeep : ∀ j ∈ judgment, countedAs j = countedAs c.judgment) :
    (store'.recordsOf ties matrixId).map ComparisonRecord.counted
      = (store.recordsOf ties matrixId).map ComparisonRecord.counted := by
  let edit (c : FeatureComparison) : FeatureComparison :=
    if c.id = comparisonId then
      editedCell env judgment location quote reasoning c
    else c
  have hcells : store'.cellsOf matrixId = (store.cellsOf matrixId).map edit := by
    unfold CaseStore.cellsOf
    rw [he.rows]
    exact Table.filter_map_of fun c' _ => by split <;> rfl
  have hage : cellsByAge store' ties matrixId
      = (cellsByAge store ties matrixId).map edit := by
    unfold cellsByAge
    rw [hcells]
    refine (List.map_insertionSort _ _ _ _ fun c _ c' _ => ?_).symm
    have hkey (c : FeatureComparison) : (edit c).createdAt = c.createdAt
        ∧ (edit c).id = c.id := by
      show (if _ then _ else _ : FeatureComparison).createdAt = _
        ∧ (if _ then _ else _ : FeatureComparison).id = _
      split <;> exact ⟨rfl, rfl⟩
    show toLex (c.createdAt, ties c.id) ≤ toLex (c'.createdAt, ties c'.id)
      ↔ toLex ((edit c).createdAt, ties (edit c).id)
        ≤ toLex ((edit c').createdAt, ties (edit c').id)
    rw [(hkey c).1, (hkey c).2, (hkey c').1, (hkey c').2]
  unfold CaseStore.recordsOf
  rw [hage, List.map_map, List.map_map, List.map_map]
  refine List.map_congr_left fun c' hc' => ?_
  have hmem : c' ∈ store.cells.rows :=
    (List.mem_filter.mp ((perm_sortedBy ..).mem_iff.mp hc')).1
  show (if _ then _ else _ : FeatureComparison).record.counted = _
  split
  · next hid =>
      have heq : c' = c :=
        store.cells.eq_of_key_eq hmem he.cell (hid.trans he.id.symm)
      have hjudgment : countedAs (judgment.getD c'.judgment)
          = countedAs c'.judgment := by
        cases hj : judgment with
        | none => rfl
        | some j =>
            rw [heq]
            exact hkeep j hj
      exact congrArg (Prod.mk c'.candidateId) hjudgment
  · rfl

/-- Where an edit keeps what its cell counts as the summary stays right. -/
theorem current_edited (hp : Placed store) (hs : SummariesCurrent store)
    (he : Edited store env comparisonId judgment location quote reasoning
      store' c m)
    (hkeep : ∀ j ∈ judgment, countedAs j = countedAs c.judgment) :
    SummariesCurrent store' := by
  have hfeatures : store'.features = store.features := by rw [he.after]
  have hcandidates : store'.candidates = store.candidates := by rw [he.after]
  have hmatrices : store'.matrices = store.matrices := by rw [he.after]
  intro ties m' hm'
  have hcounted : (store'.recordsOf ties m'.id).map ComparisonRecord.counted
      = (store.recordsOf ties m'.id).map ComparisonRecord.counted :=
    counted_recordsOf_edited m'.id he hkeep
  have hcandidateIds : (store'.recordsOf ties m'.id).map
      ComparisonRecord.candidateId
        = (store.recordsOf ties m'.id).map ComparisonRecord.candidateId := by
    have hfirst := congrArg (List.map Prod.fst) hcounted
    rwa [List.map_map, List.map_map] at hfirst
  rw [hmatrices] at hm'
  rw [hs ties m' hm', evaluation_matrixView hp,
    evaluation_matrixView (placed_edited he hp),
    orderedFeatures_congr hfeatures, CaseStore.documentsOf, CaseStore.documentsOf,
    hcandidates, hcandidateIds, evaluateMatrix_congr _ _ hcounted]

end Edit

-- ============================================================== a rebuild

section Rebuild

variable {version : FeatureSetVersion} {matrixId : String}

/-- The cells of the rebuilt matrix. -/
theorem cellsOf_rebuilt_self
    (hr : Rebuilt store env judge store' version matrixId) :
    store'.cellsOf matrixId
      = (store.cellsOf matrixId).map (Table.merged FeatureComparison.place
          overwrite (store.proposals env matrixId version judge))
        ++ store.cells.unplaced FeatureComparison.place
          (store.proposals env matrixId version judge) := by
  unfold CaseStore.cellsOf
  rw [hr.cells, List.filter_append]
  congr 1
  · refine Table.filter_map_of fun c _ => ?_
    have hmatrix := (Prod.mk.inj (place_merged
      (store.proposals env matrixId version judge) c)).1
    rw [hmatrix]
  · apply List.filter_eq_self.mpr
    intro x hx
    obtain ⟨f, -, d, -, id, rfl⟩ :=
      exists_of_mem_proposedCells (Table.mem_unplaced.mp hx).1
    simp [proposedCell]

/-- The standing of a candidate by the judgments drawn. -/
def freshStanding (features : List ClaimFeature)
    (judge : ClaimFeature → SearchCandidate → ComparisonResult)
    (d : SearchCandidate) : Standing :=
  (d.publicationNumber, coverage features.length
    (features.map fun f => (judge f d).judgment))

theorem full_freshStanding {features : List ClaimFeature} {d : SearchCandidate} :
    (freshStanding features judge d).2.full = true
      ↔ CoversAll features judge d := by
  rw [freshStanding, full_coverage_iff (List.length_map _), List.forall_mem_map]
  rfl

theorem part_freshStanding {features : List ClaimFeature} {d : SearchCandidate} :
    (freshStanding features judge d).2.part = true
      ↔ CoversSome features judge d ∧ ¬ CoversAll features judge d := by
  rw [freshStanding, part_coverage_iff (List.length_map _)]
  simp only [List.mem_map, exists_exists_and_eq_and, forall_exists_index, and_imp,
    forall_apply_eq_imp_iff₂]
  rfl

/-- The standings that cover every feature are those of the candidates that do. -/
theorem filter_full_freshStanding (features : List ClaimFeature)
    (l : List SearchCandidate) :
    (l.map (freshStanding features judge)).filter (fun s => s.2.full)
      = (l.filter (CoversAll features judge)).map
        (freshStanding features judge) := by
  rw [List.filter_map]
  congr 1
  refine List.filter_congr fun d _ => ?_
  rw [Bool.eq_iff_iff, decide_eq_true_eq]
  exact full_freshStanding

/-- Where none does, those that cover some are those of the candidates that do. -/
theorem filter_part_freshStanding {features : List ClaimFeature}
    {l : List SearchCandidate} (hnone : l.filter (CoversAll features judge) = []) :
    (l.map (freshStanding features judge)).filter (fun s => s.2.part)
      = (l.filter (CoversSome features judge)).map
        (freshStanding features judge) := by
  rw [List.filter_map]
  congr 1
  refine List.filter_congr fun d hd => ?_
  have hnot := List.filter_eq_nil_iff.mp hnone d hd
  rw [decide_eq_true_eq] at hnot
  rw [Bool.eq_iff_iff, decide_eq_true_eq]
  exact part_freshStanding.trans (and_iff_left hnot)

/-- In whichever order the candidates come, those named come in the same. -/
theorem decisive_eq_of_named {features : List ClaimFeature}
    {appearances : List (String × Instant)} {l l' : List SearchCandidate}
    (hperm : l'.Perm l) (h : NamedInOrder features judge appearances l)
    (h' : l'.Pairwise fun d d' => ¬ CreatedBefore appearances d' d) :
    decisive (l'.map (freshStanding features judge))
      = decisive (l.map (freshStanding features judge)) := by
  unfold decisive
  rw [filter_full_freshStanding, filter_full_freshStanding]
  unfold NamedInOrder at h
  split at h
  · have hsame : l'.filter (CoversAll features judge)
        = l.filter (CoversAll features judge) := by
      have htake := take_eq_of_leads (hperm.filter _) (leads_length h) (h'.filter _)
      rwa [List.take_length, ← (hperm.filter _).length_eq, List.take_length] at htake
    rw [hsame]
    split
    · rfl
    · next hne hnil => simp [hne] at hnil
  · next hnone =>
      rw [ne_eq, not_not] at hnone
      have hnone' : l'.filter (CoversAll features judge) = [] := by
        have hfilter := hperm.filter (CoversAll features judge)
        rw [hnone] at hfilter
        exact hfilter.eq_nil
      rw [hnone, hnone', filter_part_freshStanding hnone,
        filter_part_freshStanding hnone', ← List.map_take, ← List.map_take,
        take_eq_of_leads (hperm.filter _) h (h'.filter _)]

/-- What a rebuild evaluates. -/
theorem standings_freshRecords (version : FeatureSetVersion) :
    standings (orderedFeatures store version.id).length
        (activeCandidates store env.ties)
        (freshRecords matrixId (orderedFeatures store version.id)
          (activeCandidates store env.ties) judge)
      = (activeCandidates store env.ties).map
        (freshStanding (orderedFeatures store version.id) judge) := by
  rw [standings_eq]
  apply List.map_congr_left
  intro d hd
  unfold freshRecords
  rw [List.filter_map, List.map_map]
  have hpairs : (comparedPairs (orderedFeatures store version.id)
      (activeCandidates store env.ties)).filter (fun p => p.2.id = d.id)
        = (orderedFeatures store version.id).map fun f => (f, d) :=
    comparedPairs_of_candidate (nodup_ids_activeCandidates store env.ties) hd
  have hsame : (fun c : ComparisonRecord => decide (c.candidateId = d.id))
      ∘ (fun pair : ClaimFeature × SearchCandidate =>
        { matrixId, claimFeatureId := pair.1.id, candidateId := pair.2.id
          judgment := (judge pair.1 pair.2).judgment })
      = fun p => decide (p.2.id = d.id) := rfl
  rw [hsame, hpairs, List.map_map]
  rfl

/-- The cells of a matrix appear, after a rebuild, in the order the
condition reads them. -/
theorem appearances_rebuilt
    (hr : Rebuilt store env judge store' version matrixId) :
    (store'.cellsOf matrixId).map FeatureComparison.appearance
      = store.filledAppearances env matrixId version := by
  unfold CaseStore.filledAppearances
  rw [cellsOf_rebuilt_self hr, List.map_append, List.map_map]
  congr 1
  · apply List.map_congr_left
    intro c _
    have hcandidate := (Prod.mk.inj (Prod.mk.inj (place_merged
      (store.proposals env matrixId version judge) c)).2).2
    have hcreated : (Table.merged FeatureComparison.place overwrite
        (store.proposals env matrixId version judge) c).createdAt
          = c.createdAt := by
      unfold Table.merged
      split
      · unfold overwrite
        split <;> rfl
      · rfl
    exact Prod.ext hcandidate hcreated
  · have hplaces : store.missingPlaces env matrixId version
        = (store.cells.unplaced FeatureComparison.place
          (store.proposals env matrixId version judge)).map
            FeatureComparison.place := by
      rw [Table.map_unplaced]
      unfold CaseStore.missingPlaces CaseStore.proposals
      rw [map_proposedCells FeatureComparison.place (fun pair =>
        (matrixId, pair.1.id, pair.2.id)) fun _ _ => rfl]
      apply List.filter_congr
      intro place _
      exact decide_eq_decide.mpr Iff.rfl
    rw [hplaces, List.map_map]
    apply List.map_congr_left
    intro x hx
    obtain ⟨f, -, d, -, id, rfl⟩ :=
      exists_of_mem_proposedCells (Table.mem_unplaced.mp hx).1
    rfl

/-- The proposal for a compared pair. -/
theorem exists_proposal (env : Env) (matrixId : String)
    (judge : ClaimFeature → SearchCandidate → ComparisonResult)
    {f : ClaimFeature} {d : SearchCandidate}
    (hf : f ∈ orderedFeatures store version.id)
    (hd : d ∈ activeCandidates store env.ties) :
    ∃ x ∈ store.proposals env matrixId version judge,
      x.place = (matrixId, f.id, d.id)
        ∧ x.judgment = (judge f d).judgment := by
  have hpair : (f, d) ∈ comparedPairs (orderedFeatures store version.id)
      (activeCandidates store env.ties) := mem_comparedPairs.mpr ⟨hf, hd⟩
  have hcolumns : ((matrixId, f.id, d.id), (judge f d).judgment)
      ∈ (store.proposals env matrixId version judge).map fun x =>
        (x.place, x.judgment) := by
    unfold CaseStore.proposals
    rw [map_proposedCells (fun x => (x.place, x.judgment)) (fun pair =>
      ((matrixId, pair.1.id, pair.2.id), (judge pair.1 pair.2).judgment))
      fun _ _ => rfl]
    exact List.mem_map.mpr ⟨(f, d), hpair, rfl⟩
  obtain ⟨x, hx, heq⟩ := List.mem_map.mp hcolumns
  exact ⟨x, hx, (Prod.mk.inj heq).1, (Prod.mk.inj heq).2⟩

/-- Where cells edited by hand agree with the judgments drawn, a cell of a
compared pair counts as the fresh one after a rebuild. -/
theorem judgment_rebuilt
    (hr : Rebuilt store env judge store' version matrixId)
    (hkeep : EvaluatesStored store env judge version matrixId)
    {f : ClaimFeature} {d : SearchCandidate}
    (hf : f ∈ orderedFeatures store version.id)
    (hd : d ∈ activeCandidates store env.ties) {c : FeatureComparison}
    (hc : c ∈ store'.cells.rows) (hplace : c.place = (matrixId, f.id, d.id)) :
    countedAs c.judgment = countedAs (judge f d).judgment := by
  obtain ⟨x, hx, hxplace, hxjudgment⟩ :=
    exists_proposal env matrixId judge hf hd
  rcases hr.mem_cells hc with ⟨old, hold, rfl⟩ | ⟨hc, -⟩
  · rw [place_merged] at hplace
    obtain ⟨hmatrix, hrest⟩ := Prod.mk.inj hplace
    obtain ⟨hfeature, hcandidate⟩ := Prod.mk.inj hrest
    rw [Table.merged_of_mem nodup_places_proposals hx
      (hxplace.trans hplace.symm)]
    unfold overwrite
    split
    · next hmanual =>
        exact hkeep.manual old (List.mem_filter.mpr ⟨hold, decide_eq_true hmatrix⟩)
          hmanual f hf hfeature.symm d hd hcandidate.symm
    · exact congrArg countedAs hxjudgment
  · rw [← hxjudgment, List.inj_on_of_nodup_map nodup_places_proposals hc hx
      (hplace.trans hxplace.symm)]

/-- After a rebuild every compared pair has its cell. -/
theorem exists_cell_rebuilt
    (hr : Rebuilt store env judge store' version matrixId)
    {f : ClaimFeature} {d : SearchCandidate}
    (hf : f ∈ orderedFeatures store version.id)
    (hd : d ∈ activeCandidates store env.ties) :
    ∃ c ∈ store'.cells.rows, c.place = (matrixId, f.id, d.id) := by
  obtain ⟨x, hx, hxplace, -⟩ :=
    exists_proposal env matrixId judge hf hd
  by_cases hin : x.place ∈ store.cells.rows.map FeatureComparison.place
  · obtain ⟨old, hold, hplace⟩ := List.mem_map.mp hin
    refine ⟨_, hr.cells ▸ List.mem_append_left _ (List.mem_map_of_mem hold), ?_⟩
    rw [place_merged, hplace, hxplace]
  · exact ⟨x, hr.cells ▸ List.mem_append_right _
      (Table.mem_unplaced.mpr ⟨hx, hin⟩), hxplace⟩

/-- The cells of a candidate are at its places of the matrix, … -/
theorem place_of_mem_filter {id : String} {c : FeatureComparison}
    (hc : c ∈ (store.cellsOf matrixId).filter fun c => c.candidateId = id) :
    c ∈ store.cells.rows ∧ c.place = (matrixId, c.claimFeatureId, id) := by
  obtain ⟨hc, hcandidate⟩ := List.mem_filter.mp hc
  obtain ⟨hc, hmatrix⟩ := List.mem_filter.mp hc
  rw [decide_eq_true_eq] at hcandidate hmatrix
  refine ⟨hc, ?_⟩
  rw [FeatureComparison.place, hmatrix, hcandidate]

/-- … and so of different features. -/
theorem nodup_features_of_candidate (hp : Placed store) (matrixId id : String) :
    (((store.cellsOf matrixId).filter fun c => c.candidateId = id).map
      FeatureComparison.claimFeatureId).Nodup := by
  apply List.Nodup.of_map fun feature => (matrixId, feature, id)
  rw [List.map_map]
  have hplaces : ((store.cellsOf matrixId).filter fun c =>
      c.candidateId = id).map (fun c => (matrixId, c.claimFeatureId, id))
        = ((store.cellsOf matrixId).filter fun c =>
          c.candidateId = id).map FeatureComparison.place :=
    List.map_congr_left fun c hc => (place_of_mem_filter hc).2.symm
  show (List.map (fun c : FeatureComparison =>
    (matrixId, c.claimFeatureId, id)) _).Nodup
  rw [hplaces]
  exact hp.places.sublist
    ((List.filter_sublist.trans List.filter_sublist).map _)

/-- The cells of a rebuilt matrix are of features of its version. -/
theorem exists_feature_rebuilt (hp : Placed store)
    (hr : Rebuilt store env judge store' version matrixId) {c : FeatureComparison}
    (hc : c ∈ store'.cells.rows) (hmatrix : c.matrixId = matrixId) :
    ∃ f ∈ orderedFeatures store version.id, f.id = c.claimFeatureId := by
  obtain ⟨m, hm, hid, f, hf, hfid⟩ := (placed_rebuilt hr hp).feature c hc
  obtain ⟨m', hm', hid', hversion⟩ := hr.matrix_mem
  have hsame : m = m' :=
    store'.matrices.eq_of_key_eq hm hm' (hid.trans (hmatrix.trans hid'.symm))
  rw [hsame, hversion, orderedFeatures_congr hr.features_eq] at hf
  exact ⟨f, hf, hfid⟩

/-- What the cells of an active candidate count as after a rebuild. -/
theorem judgments_active (hp : Placed store)
    (hr : Rebuilt store env judge store' version matrixId)
    (hkeep : EvaluatesStored store env judge version matrixId)
    {d : SearchCandidate} (hd : d ∈ activeCandidates store env.ties) :
    (((store'.cellsOf matrixId).filter fun c => c.candidateId = d.id).map
        fun c => countedAs c.judgment).Perm
      ((orderedFeatures store version.id).map fun f =>
        countedAs (judge f d).judgment) := by
  apply Table.perm_map_of_keys FeatureComparison.claimFeatureId ClaimFeature.id
  · exact nodup_features_of_candidate (placed_rebuilt hr hp) matrixId d.id
  · exact nodup_ids_orderedFeatures store version.id
  · intro id
    constructor
    · intro h
      obtain ⟨c, hc, rfl⟩ := List.mem_map.mp h
      obtain ⟨hc, hplace⟩ := place_of_mem_filter hc
      obtain ⟨f, hf, hfid⟩ :=
        exists_feature_rebuilt hp hr hc (Prod.mk.inj hplace).1
      exact hfid ▸ List.mem_map_of_mem hf
    · intro h
      obtain ⟨f, hf, rfl⟩ := List.mem_map.mp h
      obtain ⟨c, hc, hplace⟩ := exists_cell_rebuilt hr hf hd
      obtain ⟨hmatrix, hrest⟩ := Prod.mk.inj hplace
      obtain ⟨hfid, hcandidate⟩ := Prod.mk.inj hrest
      refine List.mem_map.mpr ⟨c, List.mem_filter.mpr
        ⟨List.mem_filter.mpr ⟨hc, ?_⟩, ?_⟩, hfid⟩
      · exact decide_eq_true hmatrix
      · exact decide_eq_true hcandidate
  · intro c hc f hf hfid
    obtain ⟨hc, hplace⟩ := place_of_mem_filter hc
    exact judgment_rebuilt hr hkeep hf hd hc (hfid ▸ hplace)

/-- The candidates read after a rebuild are the active ones. -/
theorem documentsOf_rebuilt
    (hr : Rebuilt store env judge store' version matrixId)
    (hkeep : EvaluatesStored store env judge version matrixId) :
    (store'.documentsOf (store'.recordsOf ties matrixId)).Perm
      (activeCandidates store env.ties) := by
  have hrecord {id : String} : (∃ r ∈ store'.recordsOf ties matrixId,
      r.candidateId = id) ↔ ∃ c ∈ store'.cellsOf matrixId, c.candidateId = id := by
    constructor
    · rintro ⟨r, hr, rfl⟩
      obtain ⟨c, hc, rfl⟩ := List.mem_map.mp ((perm_recordsOf ..).mem_iff.mp hr)
      exact ⟨c, hc, rfl⟩
    · rintro ⟨c, hc, rfl⟩
      exact ⟨c.record, (perm_recordsOf ..).mem_iff.mpr (List.mem_map_of_mem hc), rfl⟩
  refine (List.perm_ext_iff_of_nodup (nodup_documentsOf _)
    (.of_map _ (nodup_ids_activeCandidates store env.ties))).mpr fun d => ?_
  rw [mem_documentsOf, hrecord, hr.candidates_eq]
  constructor
  · rintro ⟨⟨c, hc, hcd⟩, hd⟩
    obtain ⟨hc, hmatrix⟩ := List.mem_filter.mp hc
    rw [decide_eq_true_eq] at hmatrix
    obtain ⟨d', hd', hid⟩ : ∃ d' ∈ activeCandidates store env.ties,
        d'.id = c.candidateId := by
      rcases hr.mem_cells hc with ⟨old, hold, rfl⟩ | ⟨hc, -⟩
      · obtain ⟨hsame, hrest⟩ := Prod.mk.inj (place_merged
          (store.proposals env matrixId version judge) old)
        obtain ⟨d', hd', hid⟩ := hkeep.active old (List.mem_filter.mpr
          ⟨hold, decide_eq_true (hsame.symm.trans hmatrix)⟩)
        exact ⟨d', hd', hid.trans (Prod.mk.inj hrest).2.symm⟩
      · obtain ⟨f, -, d', hd', id, rfl⟩ := exists_of_mem_proposedCells hc
        exact ⟨d', hd', rfl⟩
    have hsame : d' = d := store.candidates.eq_of_key_eq
      (activeCandidates_subset hd') hd (hid.trans hcd)
    exact hsame ▸ hd'
  · intro hd
    obtain ⟨f, hf⟩ := List.exists_mem_of_ne_nil _ hr.features
    obtain ⟨c, hc, hplace⟩ := exists_cell_rebuilt hr hf hd
    obtain ⟨hmatrix, hrest⟩ := Prod.mk.inj hplace
    exact ⟨⟨c, List.mem_filter.mpr ⟨hc, decide_eq_true hmatrix⟩,
      (Prod.mk.inj hrest).2⟩, activeCandidates_subset hd⟩

/-- Their standings are those by the judgments drawn. -/
theorem standings_rebuilt (hp : Placed store)
    (hr : Rebuilt store env judge store' version matrixId)
    (hkeep : EvaluatesStored store env judge version matrixId) :
    standings (orderedFeatures store version.id).length
        (store'.documentsOf (store'.recordsOf ties matrixId))
        (store'.recordsOf ties matrixId)
      = (store'.documentsOf (store'.recordsOf ties matrixId)).map
        (freshStanding (orderedFeatures store version.id) judge) := by
  rw [standings_eq]
  refine List.map_congr_left fun d hd => ?_
  have hactive := (documentsOf_rebuilt hr hkeep).mem_iff.mp hd
  refine congrArg (Prod.mk d.publicationNumber) (coverage_perm ?_)
  refine List.Perm.trans ((((perm_recordsOf ..).filter _).map _).map _) ?_
  rw [List.filter_map, List.map_map, List.map_map, List.map_map]
  exact judgments_active hp hr hkeep hactive

/-- What a read of the rebuilt matrix evaluates is the summary stored. -/
theorem summary_rebuilt (hp : Placed store)
    (hr : Rebuilt store env judge store' version matrixId)
    (hkeep : EvaluatesStored store env judge version matrixId)
    {m : ComparisonMatrix} (hid : m.id = matrixId)
    (hversion : m.featureSetVersionId = version.id) :
    store.freshSummary env matrixId version judge
      = (matrixView store' ties m).evaluation.summary := by
  have hperm : (store'.documentsOf (store'.recordsOf ties matrixId)).Perm
      (activeCandidates store env.ties) := documentsOf_rebuilt hr hkeep
  have hactive := hr.candidates
  obtain ⟨d, hd⟩ := List.exists_mem_of_ne_nil _ hactive
  obtain ⟨f, hf⟩ := List.exists_mem_of_ne_nil _ hr.features
  have hdocuments : store'.documentsOf (store'.recordsOf ties matrixId) ≠ [] :=
    List.ne_nil_of_mem (hperm.mem_iff.mpr hd)
  have hrecords : store'.recordsOf ties matrixId ≠ [] := by
    obtain ⟨⟨r, hr, -⟩, -⟩ := mem_documentsOf.mp (hperm.mem_iff.mpr hd)
    exact List.ne_nil_of_mem hr
  have hpair : (f, d) ∈ comparedPairs (orderedFeatures store version.id)
      (activeCandidates store env.ties) := mem_comparedPairs.mpr ⟨hf, hd⟩
  have hfresh : freshRecords matrixId (orderedFeatures store version.id)
      (activeCandidates store env.ties) judge ≠ [] :=
    List.ne_nil_of_mem (List.mem_map_of_mem hpair)
  have horder : (store'.documentsOf (store'.recordsOf ties matrixId)).Pairwise
      fun d d' => ¬ CreatedBefore
        ((store'.cellsOf matrixId).map FeatureComparison.appearance) d' d :=
    documentsOf_in_order matrixId
  rw [appearances_rebuilt hr] at horder
  rw [evaluation_matrixView (placed_rebuilt hr hp), hid, hversion,
    orderedFeatures_congr hr.features_eq]
  refine summary_eq_of_decisive hactive hdocuments hfresh hrecords ?_
  rw [standings_freshRecords, standings_rebuilt hp hr hkeep,
    decisive_eq_of_named hperm hkeep.named horder]

/-- Where a rebuild evaluates what it leaves stored, the summary it stores is
right. -/
theorem current_rebuilt (hp : Placed store) (hs : SummariesCurrent store)
    (hr : Rebuilt store env judge store' version matrixId)
    (hkeep : EvaluatesStored store env judge version matrixId) :
    SummariesCurrent store' := by
  intro ties
  -- any matrix but the rebuilt one
  have hkept : ∀ m ∈ store.matrices.rows, ∀ m' : ComparisonMatrix,
      m'.id = m.id → m'.featureSetVersionId = m.featureSetVersionId →
        m.id ≠ matrixId →
          m.summary = some (matrixView store' ties m').evaluation.summary := by
    intro m hm m' hid hversion hne
    rw [hs ties m hm, evaluation_matrixView hp,
      evaluation_matrixView (placed_rebuilt hr hp), hid, hversion,
      recordsOf_congr (cellsOf_rebuilt hr hne), orderedFeatures_congr hr.features_eq,
      CaseStore.documentsOf, CaseStore.documentsOf, hr.candidates_eq]
  intro m' hm'
  rcases hr.matrices with ⟨⟨filled, hfm, hfid, hfv⟩, hrows⟩
    | ⟨hnone, hother, hdrawn, hrows⟩
  · have hrow := hm'
    rw [hrows] at hrow
    obtain ⟨m, hm, rfl⟩ := List.mem_map.mp hrow
    by_cases hid : m.id = matrixId
    · obtain rfl : m = filled :=
        store.matrices.eq_of_key_eq hm hfm (hid.trans hfid.symm)
      rw [← summary_rebuilt hp hr hkeep ((id_rebuiltRow m).trans hid)
        ((version_rebuiltRow m).trans hfv)]
      unfold rebuiltRow
      rw [if_pos hfv, if_pos hid]
    · rw [← hkept m hm _ (id_rebuiltRow m) (version_rebuiltRow m) hid]
      unfold rebuiltRow
      rw [if_neg hid]
      split <;> rfl
  · have hrow := hm'
    rw [hrows, List.mem_append] at hrow
    rcases hrow with hm | hm
    · exact hkept m' hm m' rfl rfl (hother m' hm)
    · have hnew := List.mem_singleton.mp hm
      rw [← summary_rebuilt hp hr hkeep (by rw [hnew, hdrawn]; rfl)
        (by rw [hnew]; rfl), hnew]
      rfl

end Rebuild

-- ============================================================ one step

theorem current_confirmMatrix (matrixId : String)
    (hs : SummariesCurrent store) :
    SummariesCurrent (confirmMatrix store env matrixId) := by
  intro ties m' hm'
  obtain ⟨m, hm, rfl⟩ := List.mem_map.mp hm'
  split
  · exact hs ties m hm
  · exact hs ties m hm

theorem current_execute {op : ComparisonOp} (hp : Placed store)
    (hs : SummariesCurrent store) (hkeep : KeepsJudgments store env op)
    (h : executeComparison store env op = .ok store') :
    SummariesCurrent store' := by
  cases op with
  | rebuild judge =>
      obtain ⟨version, matrixId, hr⟩ := rebuilt_of_ok h
      exact current_rebuilt hp hs hr (hr.matrix ▸ hkeep version hr.active)
  | edit comparisonId judgment location quote reasoning =>
      obtain ⟨c, m, he⟩ := edited_of_ok h
      exact current_edited hp hs he (hkeep c he.cell he.id)
  | confirm matrixId =>
      rw [← Except.ok.inj h]
      exact current_confirmMatrix matrixId hs
  | triage candidateId status =>
      rw [triaged_of_ok h]
      exact hs

-- ============================================================== every run

/-- Along a run whose accepted requests leave the stored judgments as the
summaries have them, every stored summary is the one the stored cells
evaluate to. -/
theorem summaries_stay_current (base : CaseStore)
    (events : List ComparisonEvent)
    (h : Along afterComparison SummaryStaysRight base.beforeComparison
      events) :
    Always afterComparison SummariesCurrent base.beforeComparison events := by
  intro es hpre
  obtain ⟨rest, rfl⟩ := hpre
  have hstep : ∀ s e, Placed s ∧ SummariesCurrent s → SummaryStaysRight s e →
      Placed (afterComparison s e)
        ∧ SummariesCurrent (afterComparison s e) := by
    intro s e ⟨hp, hs⟩ hok
    refine settle_of_forall (I := fun s => Placed s ∧ SummariesCurrent s)
      ⟨hp, hs⟩ fun after hserve => ?_
    have hexec := execute_of_serveComparison hserve
    exact ⟨placed_execute hp hexec,
      current_execute hp hs (hok after hserve) hexec⟩
  have hstart : Placed base.beforeComparison
      ∧ SummariesCurrent base.beforeComparison :=
    ⟨⟨List.nodup_nil, fun c hc => (nomatch hc), fun c hc => (nomatch hc)⟩,
      fun _ m hm => (nomatch hm)⟩
  exact (run_invariant hstep hstart (along_append.mp h).1).2

/-- A confirmed version of two features, and three candidates. -/
def hingeCase : CaseStore :=
  let feature (id : String) (order : Int) : ClaimFeature :=
    { id, featureSetVersionId := "v1", featureCode := id
      featureType := "characterizing", featureStatement := "外壳"
      sourceParagraphId := none, citationQuote := none, sortOrder := order
      createdAt := atHour 8, updatedAt := atHour 8 }
  let candidate (id : String) (score : Rat) : SearchCandidate :=
    { smallCandidate with id, publicationNumber := id, relevanceScore := score }
  { smallCase with
    features := ⟨[feature "F1" 1, feature "F2" 2], by decide⟩
    candidates := ⟨[candidate "d1" 3, candidate "d2" 2, candidate "d3" 1],
      by decide⟩ }

/-- The first and the third candidate cover both features, the second one
feature. -/
def judgeHinge (f : ClaimFeature) (d : SearchCandidate) : ComparisonResult :=
  judgeAll (if d.id = "d1" then "identical"
    else if f.id = "F1" then "equivalent"
    else if d.id = "d3" then "identical"
    else "different") f d

/-- Two candidates are compared and a cell of the second is given a quote; a
third is included, the matrix rebuilt and confirmed. -/
def builtAndQuoted : List ComparisonEvent :=
  let uuids (drawn : String) (n : Nat) : String := drawn ++ toString n
  [ comparisonAt 9 (uuids "") (.triage "d1" "included"),
    comparisonAt 10 (uuids "") (.triage "d2" "included"),
    comparisonAt 11 (uuids "c") (.rebuild judgeHinge),
    comparisonAt 12 (uuids "")
      (.edit "c2" (some "equivalent") none (some "一种装置") none),
    comparisonAt 13 (uuids "") (.triage "d3" "included"),
    comparisonAt 14 (uuids "e") (.rebuild judgeHinge),
    comparisonAt 15 (uuids "") (.confirm "c0") ]

theorem summaries_current_when_quoted :
    Always afterComparison SummariesCurrent hingeCase.beforeComparison
      builtAndQuoted :=
  summaries_stay_current hingeCase builtAndQuoted
    ⟨fun _ _ => by decide +kernel, fun _ _ => by decide +kernel,
      fun _ _ => by decide +kernel, fun _ _ => by decide +kernel,
      fun _ _ => by decide +kernel, fun _ _ => by decide +kernel,
      fun _ _ => by decide +kernel, trivial⟩

/-- A matrix judged identical, its cell edited to different. -/
def builtAndOverruled : List ComparisonEvent :=
  [ comparisonAt 9 (fun n => if n = 0 then "m1" else "c1")
      (.rebuild (judgeAll "identical")),
    comparisonAt 10 (fun _ => "")
      (.edit "c1" (some "different") none none none) ]

/-- The stored summary still reports a document that covers everything;
the stored cells evaluate to no coverage at all. -/
theorem edit_leaves_stale_summary :
    ¬ Always afterComparison SummariesCurrent smallCase.beforeComparison
      builtAndOverruled := by
  intro h
  have hcurrent := h builtAndOverruled (List.prefix_refl _) fun _ => 0
  exact absurd hcurrent (by decide +kernel)

end PatentEvidence.Cases
