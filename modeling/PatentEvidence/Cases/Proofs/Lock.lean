/-
When a confirmed matrix stays as it was confirmed.

The lock is `update_comparison_item`'s alone. `confirm_matrix` sets status
and time together, and a rebuild takes the status back without the time:
it reopens the matrix of the version it reads, whatever its status, and
rewrites its cells. `confirmed_stays_iff_not_reopened` says that this is
the only way a confirmed matrix changes, and that a run is free of it
exactly when no accepted rebuild reads a version whose matrix is confirmed.
-/
import PatentEvidence.Cases.Proofs.Comparison

namespace PatentEvidence.Cases

open Fallible Runs

variable {store store' : CaseStore} {env : Env}

-- ============================================================ the property

/-- `confirmed_at` is set exactly on the confirmed matrices. -/
def ConfirmedAtMarksStatus (store : CaseStore) : Prop :=
  ∀ m ∈ store.matrices.rows, m.confirmedAt.isSome ↔ m.status = .confirmed

/-- The matrix of this id is confirmed. -/
def Confirmed (store : CaseStore) (matrixId : String) : Prop :=
  ∃ m ∈ store.matrices.rows, m.id = matrixId ∧ m.status = .confirmed

instance (store : CaseStore) : Decidable (ConfirmedAtMarksStatus store) :=
  inferInstanceAs (Decidable (∀ m ∈ store.matrices.rows, _ ↔ _))

instance (store : CaseStore) (matrixId : String) :
    Decidable (Confirmed store matrixId) :=
  inferInstanceAs (Decidable (∃ m ∈ store.matrices.rows, _ ∧ _))

/-- From any state of the run on, the cells of a matrix confirmed there
stay what they are. -/
def ConfirmedCellsStay (start : CaseStore) (events : List ComparisonEvent) :
    Prop :=
  ∀ es es', es ++ es' <+: events → ∀ matrixId,
    Confirmed (run afterComparison start es) matrixId →
      (run afterComparison start (es ++ es')).cellsOf matrixId
        = (run afterComparison start es).cellsOf matrixId

-- =========================================================== the condition

/-- A rebuild would take up a confirmed matrix. -/
def Reopens (store : CaseStore) : ComparisonOp → Prop
  | .rebuild _ => ∃ version, activeVersion store = some version
      ∧ ∃ m ∈ store.matrices.rows, m.featureSetVersionId = version.id
        ∧ m.status = .confirmed
  | .edit .. => False
  | .confirm _ => False
  | .triage .. => False

/-- An accepted request that reopens no confirmed matrix. -/
def LeavesConfirmed (store : CaseStore) (event : ComparisonEvent) : Prop :=
  ∀ after, serveComparison store event = .ok after → ¬ Reopens store event.op

-- ============================================================ one step

theorem rebuiltRow_of_ne {versionId matrixId summary : String}
    {m : ComparisonMatrix} (h : m.featureSetVersionId ≠ versionId) :
    rebuiltRow env versionId matrixId summary m = m :=
  if_neg h

theorem rebuiltRow_status {versionId matrixId summary : String}
    {m : ComparisonMatrix} (h : m.featureSetVersionId = versionId) :
    (rebuiltRow env versionId matrixId summary m).status = .draft := by
  unfold rebuiltRow
  rw [if_pos h]
  split <;> rfl

@[simp] theorem rebuiltRow_confirmedAt {versionId matrixId summary : String}
    (m : ComparisonMatrix) :
    (rebuiltRow env versionId matrixId summary m).confirmedAt
      = m.confirmedAt := by
  unfold rebuiltRow
  split
  · split <;> rfl
  · rfl

/-- A rebuild keeps status and time together exactly when it reopens no
confirmed matrix: what it reopens keeps its time. -/
theorem rebuild_marks_iff
    {judge : ClaimFeature → SearchCandidate → ComparisonResult}
    (hs : ConfirmedAtMarksStatus store)
    (h : generateOrRebuildMatrix store env judge = .ok store') :
    ConfirmedAtMarksStatus store' ↔ ¬ Reopens store (.rebuild judge) := by
  obtain ⟨version, matrixId, hr⟩ := rebuilt_of_ok h
  constructor
  · rintro hs' ⟨version', hactive, m, hm, hv, hconfirmed⟩
    obtain rfl : version = version' :=
      Option.some.inj (hr.active.symm.trans hactive)
    rcases hr.matrices with ⟨-, hrows⟩ | ⟨hnone, -⟩
    · have hmem := hs' (rebuiltRow env version.id matrixId _ m)
        (hrows ▸ List.mem_map_of_mem hm)
      rw [rebuiltRow_confirmedAt, hs m hm, rebuiltRow_status hv] at hmem
      exact absurd (hmem.mp hconfirmed) (by decide)
    · exact hnone m hm hv
  · intro hnot m' hm'
    rcases hr.matrices with ⟨-, hrows⟩ | ⟨-, -, -, hrows⟩
    · rw [hrows] at hm'
      obtain ⟨m, hm, rfl⟩ := List.mem_map.mp hm'
      by_cases hv : m.featureSetVersionId = version.id
      · have hdraft : m.status ≠ .confirmed := fun hconfirmed =>
          hnot ⟨version, hr.active, m, hm, hv, hconfirmed⟩
        rw [rebuiltRow_confirmedAt, hs m hm, rebuiltRow_status hv]
        exact iff_of_false hdraft (by decide)
      · rw [rebuiltRow_of_ne hv]
        exact hs m hm
    · rw [hrows, List.mem_append] at hm'
      rcases hm' with hm | hm
      · exact hs m' hm
      · rw [List.mem_singleton.mp hm]
        exact iff_of_false (by simp [insertedRow]) (by simp [insertedRow])

theorem confirm_marks (matrixId : String) (hs : ConfirmedAtMarksStatus store) :
    ConfirmedAtMarksStatus (confirmMatrix store env matrixId) := by
  intro m' hm'
  obtain ⟨m, hm, rfl⟩ := List.mem_map.mp hm'
  by_cases hid : m.id = matrixId
  · simp [hid]
  · simp only [decide_eq_true_eq, if_neg hid]
    exact hs m hm

theorem marks_afterComparison_iff (store : CaseStore) (event : ComparisonEvent)
    (hs : ConfirmedAtMarksStatus store) :
    ConfirmedAtMarksStatus (afterComparison store event)
      ↔ LeavesConfirmed store event := by
  refine settle_iff hs fun after hserve => ?_
  have hexec := execute_of_serveComparison hserve
  cases hop : event.op with
  | rebuild judge =>
      rw [hop] at hexec
      exact rebuild_marks_iff hs hexec
  | edit comparisonId judgment location quote reasoning =>
      rw [hop] at hexec
      obtain ⟨c, m, he⟩ := edited_of_ok hexec
      rw [he.after]
      exact iff_of_true hs id
  | confirm matrixId =>
      rw [hop] at hexec
      rw [← Except.ok.inj hexec]
      exact iff_of_true (confirm_marks matrixId hs) id
  | triage candidateId status =>
      rw [hop] at hexec
      rw [triaged_of_ok hexec]
      exact iff_of_true hs id

-- ------------------------------------------------------- the cells

/-- The matrix a rebuild fills is not a confirmed one. -/
theorem rebuilt_ne_confirmed
    {judge : ClaimFeature → SearchCandidate → ComparisonResult}
    {version : FeatureSetVersion} {matrixId : String}
    (hr : Rebuilt store env judge store' version matrixId)
    (hnot : ¬ Reopens store (.rebuild judge)) {m : ComparisonMatrix}
    (hm : m ∈ store.matrices.rows) (hconfirmed : m.status = .confirmed) :
    m.featureSetVersionId ≠ version.id ∧ m.id ≠ matrixId := by
  have hv : m.featureSetVersionId ≠ version.id := fun hv =>
    hnot ⟨version, hr.active, m, hm, hv, hconfirmed⟩
  refine ⟨hv, fun hid => ?_⟩
  rcases hr.matrices with ⟨⟨m', hm', hid', hv'⟩, -⟩ | ⟨-, hother, -⟩
  · exact hv (store.matrices.eq_of_key_eq hm hm' (hid.trans hid'.symm) ▸ hv')
  · exact hother m hm hid

/-- A rebuild touches cells of its matrix only. -/
theorem cellsOf_rebuilt
    {judge : ClaimFeature → SearchCandidate → ComparisonResult}
    {version : FeatureSetVersion} {matrixId other : String}
    (hr : Rebuilt store env judge store' version matrixId)
    (hne : other ≠ matrixId) : store'.cellsOf other = store.cellsOf other := by
  have hproposed : ∀ x ∈ store.proposals env matrixId version judge,
      x.matrixId = matrixId := by
    intro x hx
    obtain ⟨f, -, c, -, id, rfl⟩ := exists_of_mem_proposedCells hx
    rfl
  have hnew : (store.cells.unplaced FeatureComparison.place
      (store.proposals env matrixId version judge)).filter
        (fun c => c.matrixId = other) = [] := by
    apply List.filter_eq_nil_iff.mpr
    intro x hx hmatrix
    rw [decide_eq_true_eq] at hmatrix
    exact hne (hmatrix ▸ hproposed x (Table.mem_unplaced.mp hx).1)
  have hmatrix : ∀ c, (Table.merged FeatureComparison.place overwrite
      (store.proposals env matrixId version judge) c).matrixId
        = c.matrixId := fun c =>
    congrArg Prod.fst (Table.unique_merged place_overwrite _ c)
  unfold CaseStore.cellsOf
  rw [hr.cells, List.filter_append, hnew, List.append_nil]
  refine Table.filter_map_of_fixed (fun c _ => by rw [hmatrix]) fun c _ hcm => ?_
  rw [decide_eq_true_eq] at hcm
  apply Table.merged_of_notMem
  intro hin
  obtain ⟨x, hx, hplace⟩ := List.mem_map.mp hin
  have hxm : x.matrixId = c.matrixId := congrArg Prod.fst hplace
  exact hne (hcm.symm.trans (hxm.symm.trans (hproposed x hx)))

/-- An edit touches cells of its cell's matrix only. -/
theorem cellsOf_edited {comparisonId other : String}
    {judgment location quote reasoning : Option String}
    {c : FeatureComparison} {m : ComparisonMatrix}
    (he : Edited store env comparisonId judgment location quote reasoning
      store' c m) (hne : other ≠ m.id) :
    store'.cellsOf other = store.cellsOf other := by
  unfold CaseStore.cellsOf
  rw [he.rows]
  refine Table.filter_map_of_fixed (fun c' _ => by split <;> rfl)
    fun c' hmem hother => ?_
  rw [decide_eq_true_eq] at hother
  have hid : c'.id ≠ comparisonId := fun heq => hne (by
    rw [← hother, he.matrixId,
      store.cells.eq_of_key_eq hmem he.cell (heq.trans he.id.symm)])
  simp [hid]

/-- What leaves the confirmed matrices alone keeps them confirmed and
their cells as they are. -/
theorem confirmed_afterComparison {event : ComparisonEvent}
    {matrixId : String} (hok : LeavesConfirmed store event)
    (hc : Confirmed store matrixId) :
    Confirmed (afterComparison store event) matrixId
      ∧ (afterComparison store event).cellsOf matrixId
        = store.cellsOf matrixId := by
  refine settle_of_forall (I := fun s => Confirmed s matrixId
    ∧ s.cellsOf matrixId = store.cellsOf matrixId) ⟨hc, rfl⟩
    fun after hserve => ?_
  have hexec := execute_of_serveComparison hserve
  have hnot := hok after hserve
  obtain ⟨m, hm, hid, hconfirmed⟩ := hc
  cases hop : event.op with
  | rebuild judge =>
      rw [hop] at hexec hnot
      obtain ⟨version, filled, hr⟩ := rebuilt_of_ok hexec
      obtain ⟨hv, hne⟩ := rebuilt_ne_confirmed hr hnot hm hconfirmed
      refine ⟨⟨m, ?_, hid, hconfirmed⟩, cellsOf_rebuilt hr (hid ▸ hne)⟩
      rcases hr.matrices with ⟨-, hrows⟩ | ⟨-, -, -, hrows⟩
      · rw [hrows, ← rebuiltRow_of_ne hv]
        exact List.mem_map_of_mem hm
      · rw [hrows]
        exact List.mem_append_left _ hm
  | edit comparisonId judgment location quote reasoning =>
      rw [hop] at hexec
      obtain ⟨c, m', he⟩ := edited_of_ok hexec
      have hne : matrixId ≠ m'.id := fun heq => he.unlocked
        (store.matrices.eq_of_key_eq hm he.matrix (hid.trans heq)
          ▸ hconfirmed)
      refine ⟨⟨m, ?_, hid, hconfirmed⟩, cellsOf_edited he hne⟩
      rw [he.after]
      exact hm
  | confirm matrixId' =>
      rw [hop] at hexec
      rw [← Except.ok.inj hexec]
      refine ⟨?_, rfl⟩
      by_cases heq : m.id = matrixId'
      · exact ⟨_, List.mem_map_of_mem hm, by simp [heq, ← hid], by simp [heq]⟩
      · exact ⟨_, List.mem_map_of_mem hm, by simp [heq, ← hid],
          by simp [heq, hconfirmed]⟩
  | triage candidateId status =>
      rw [hop] at hexec
      rw [triaged_of_ok hexec]
      exact ⟨⟨m, hm, hid, hconfirmed⟩, rfl⟩

-- ============================================================== every run

/-- A matrix confirmed before a run that reopens none. -/
theorem confirmed_along {events : List ComparisonEvent} {matrixId : String}
    (hok : Along afterComparison LeavesConfirmed store events)
    (hc : Confirmed store matrixId) :
    (run afterComparison store events).cellsOf matrixId
      = store.cellsOf matrixId := by
  induction events generalizing store with
  | nil => rfl
  | cons event events ih =>
      obtain ⟨hnext, hcells⟩ := confirmed_afterComparison hok.1 hc
      exact (ih hok.2 hnext).trans hcells

/-- A case nothing was compared in yet. -/
def CaseStore.beforeComparison (base : CaseStore) : CaseStore :=
  { base with matrices := .empty, cells := .empty }

/-- Along a run the confirmed matrices keep their cells and their mark
exactly when no accepted rebuild reads a version whose matrix is
confirmed. -/
theorem confirmed_stays_iff_not_reopened (base : CaseStore)
    (events : List ComparisonEvent) :
    (ConfirmedCellsStay base.beforeComparison events
        ∧ Always afterComparison ConfirmedAtMarksStatus base.beforeComparison
          events)
      ↔ Along afterComparison LeavesConfirmed base.beforeComparison
          events := by
  have hiff : Always afterComparison ConfirmedAtMarksStatus
      base.beforeComparison events
        ↔ Along afterComparison LeavesConfirmed base.beforeComparison
          events :=
    always_iff_along (W := fun _ => True) (fun _ _ _ => trivial)
      (fun s e _ hs => marks_afterComparison_iff s e hs) trivial
      (fun m hm => nomatch hm)
  rw [hiff]
  refine ⟨fun h => h.2, fun h => ⟨fun es es' hpre matrixId hc => ?_, h⟩⟩
  obtain ⟨rest, rfl⟩ := hpre
  have halong := (along_append.mp (along_append.mp h).1).2
  rw [run_append]
  exact confirmed_along halong hc

/-- A rebuild judging the pair identical, the confirmation of its matrix,
and a rebuild judging the pair different. -/
def rebuiltAfterConfirmation : List ComparisonEvent :=
  [ comparisonAt 9 (fun n => if n = 0 then "m1" else "c1")
      (.rebuild (judgeAll "identical")),
    comparisonAt 10 (fun _ => "") (.confirm "m1"),
    comparisonAt 11 (fun n => if n = 0 then "m2" else "c2")
      (.rebuild (judgeAll "different")) ]

/-- The second rebuild rewrites the confirmed cell and leaves a draft with
a confirmation time. -/
theorem rebuild_rewrites_confirmed_matrix :
    ¬ ConfirmedCellsStay smallCase.beforeComparison rebuiltAfterConfirmation
      ∧ ¬ Always afterComparison ConfirmedAtMarksStatus
        smallCase.beforeComparison rebuiltAfterConfirmation := by
  constructor
  · intro h
    have hcells := h (rebuiltAfterConfirmation.take 2)
      (rebuiltAfterConfirmation.drop 2) (List.prefix_refl _) "m1" (by decide)
    exact absurd hcells (by decide)
  · intro h
    have hmarks := h rebuiltAfterConfirmation (List.prefix_refl _)
    exact absurd hmarks (by decide)

end PatentEvidence.Cases
