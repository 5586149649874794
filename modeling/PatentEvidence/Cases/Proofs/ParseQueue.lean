/-
What holds of the parse queue however uploads and workers interleave.

A worker holds a run from its claim to the end of its last transaction, and
the status of the run says how far that is: it is queued until the claim is
committed and running after. So no two workers hold one run, and a run that
is completed has one version of its document, any other none. The numbers
of a case's versions are the numbers from one on, although they are read
before the row is inserted. And the text of a version is read from bytes
with the digest of the document it is a version of.

The price is in `abandoned_run_stays_running`: a run whose worker has ended
after its claim stays running for ever.

# Sections

- what a step can do;
- documents, runs and workers;
- one version a run;
- version numbers;
- where a version's text is from;
- runs that end.
-/
import PatentEvidence.Cases.ParseQueue
import PatentEvidence.Lib.Run

namespace PatentEvidence.Cases

open ParseStore Runs Fallible

variable {Error Drawing : Type} {readers : Readers Error Drawing}
  {describe : Error → String}
  {inspectUpload : String → ByteArray → Except String UploadCheck}
  {store next : ParseStore Drawing}

-- =================================================== what a step can do

/-- While it claims, it has the run locked. -/
def WorkerStage.isClaiming : WorkerStage Drawing → Bool
  | .claiming _ => true
  | _ => false

/-- The status of the run a worker holds. -/
def WorkerStage.runStatus (stage : WorkerStage Drawing) : ParseStatus :=
  if stage.isClaiming then .queued else .running

/-- What a worker that has committed its claim goes on to. -/
inductive Follows (readers : Readers Error Drawing) (store : ParseStore Drawing)
    (claim : ParseClaim) : WorkerStage Drawing → WorkerStage Drawing → Prop
  | raised {stage : WorkerStage Drawing} (error : String)
      (h : stage.isClaiming = false) : Follows readers store claim stage (.raised error)
  | parsed {bytes : ByteArray} {document : ParsedDocument Drawing}
      (hstored : store.storage claim.storageKey = some bytes)
      (hparsed : parseBytes readers bytes claim.filename (some claim.mimeType)
        = .ok document) :
      Follows readers store claim .processing (.parsed document)
  | numbered (document : ParsedDocument Drawing) :
      Follows readers store claim (.parsed document)
        (.numbered document (store.lastVersion claim.caseId + 1))

/-- What a step can do. -/
inductive Effect (readers : Readers Error Drawing) (store : ParseStore Drawing) :
    ParseStore Drawing → Prop
  | same : Effect readers store store
  | stored (request : UploadRequest) :
      Effect readers store (store.putObject
        (buildSourceKey request.organizationId request.caseId
          (readers.sha256 request.data) request.filename) request.data)
  | uploaded {data : ByteArray} {document : SourceDocument} {run : ParseRun}
      {documents : Table SourceDocument.id} {runs : Table ParseRun.id}
      (hdocument : document.sha256 = readers.sha256 data)
      (hkey : document.storageKey = buildSourceKey document.organizationId
        document.caseId document.sha256 document.filename)
      (hrun : run.sourceDocumentId = document.id ∧ run.caseId = document.caseId
        ∧ run.organizationId = document.organizationId)
      (hqueued : run.status = .queued)
      (hdocuments : store.documents.insert? document = some documents)
      (hruns : store.runs.insert? run = some runs) :
      Effect readers store { store.putObject document.storageKey data with
        documents := documents, runs := runs }
  | confirmed (caseId versionId actorIdentityId : String) :
      Effect readers store
        (store.confirmDocumentVersion caseId versionId actorIdentityId)
  | claimed {w : ParseTaskWorker Drawing} {run : ParseRun}
      {document : SourceDocument}
      {workers : Table (@ParseTaskWorker.name Drawing)}
      (hrun : run ∈ store.runs.rows) (hqueued : run.status = .queued)
      (hlocked : store.runLocked run.id = false)
      (hdocument : document ∈ store.documents.rows)
      (hid : document.id = run.sourceDocumentId)
      (hclaim : w.claim = {
        runId := run.id, organizationId := run.organizationId
        caseId := run.caseId, sourceDocumentId := run.sourceDocumentId
        filename := document.filename, mimeType := document.mimeType
        storageKey := document.storageKey })
      (hstage : w.stage.isClaiming = true)
      (hworkers : store.workers.insert? w = some workers) :
      Effect readers store { store with workers := workers }
  | started {w : ParseTaskWorker Drawing} {now : Timestamp}
      (hw : w ∈ store.workers.rows)
      (hstage : w.stage = .claiming now) :
      Effect readers store
        ((store.updateRun w.runId (.started now)).setStage w.name .processing)
  | staged {w : ParseTaskWorker Drawing} {stage : WorkerStage Drawing}
      (hw : w ∈ store.workers.rows)
      (hfollows : Follows readers store w.claim w.stage stage) :
      Effect readers store (store.setStage w.name stage)
  | finished {w : ParseTaskWorker Drawing} {document : ParsedDocument Drawing}
      {nextVer : Nat} {versionId : String} {drawingIds : List String} {now : Timestamp}
      {inserted : ParseStore Drawing} (hw : w ∈ store.workers.rows)
      (hstage : w.stage = .numbered document nextVer)
      (hinserted : store.insertVersion w.claim document nextVer versionId drawingIds
        now = some inserted) :
      Effect readers store
        ((inserted.updateRun w.runId (.completed now)).release w.name)
  | failed {w : ParseTaskWorker Drawing} {error : String} {now : Timestamp}
      (hw : w ∈ store.workers.rows)
      (hstage : w.stage = .raised error) :
      Effect readers store
        ((store.updateRun w.runId (.failed error now)).release w.name)
  | released (worker : String) : Effect readers store (store.release worker)

theorem effect_upload (request : UploadRequest) :
    Effect readers store (store.uploadDocument readers inspectUpload request) := by
  unfold uploadDocument
  split
  · exact .same
  · next verdict _ =>
      simp only
      generalize hdocuments : store.documents.insert? _ = inserted
      cases inserted with
      | none => exact .stored request
      | some documents =>
          generalize hruns : store.runs.insert? _ = inserted
          cases inserted with
          | none => exact .stored request
          | some runs => exact .uploaded rfl rfl ⟨rfl, rfl, rfl⟩ rfl hdocuments hruns

theorem effect_claimSelect (worker : String) (now : Timestamp) :
    Effect readers store (store.claimSelect worker now) := by
  unfold claimSelect
  cases hclaimable : store.claimable with
  | nil => exact .same
  | cons first rest =>
      simp only
      split
      · exact .same
      · next workers hworkers =>
          have hin := Grouping.firstBy_mem
            (fun p : ParseRun × SourceDocument => p.1.createdAt) first rest
          rw [← hclaimable] at hin
          obtain ⟨run, hrun, hpair⟩ := List.mem_filterMap.mp hin
          obtain ⟨document, hdocument, heq⟩ := Option.map_eq_some_iff.mp hpair
          obtain ⟨hrun, hfree⟩ := List.mem_filter.mp hrun
          obtain ⟨hdocument, hid⟩ := Table.find?_eq_some hdocument
          simp only [Bool.and_eq_true, decide_eq_true_eq, Bool.not_eq_true'] at hfree
          rw [← heq] at hworkers
          exact .claimed hrun hfree.1 hfree.2 hdocument hid rfl rfl hworkers

theorem effect_claimCommit (worker : String) :
    Effect readers store (store.claimCommit worker) := by
  unfold claimCommit
  split
  · next hfind =>
      obtain ⟨hw, hname⟩ := Table.find?_eq_some hfind
      rw [← hname]
      exact .started hw rfl
  · exact .same

theorem effect_parse (worker : String) :
    Effect readers store (store.parse readers describe worker) := by
  unfold parse
  split
  · next claim hfind =>
      obtain ⟨hw, hname⟩ := Table.find?_eq_some hfind
      rw [← hname]
      split
      · exact .staged hw (.raised _ rfl)
      · next bytes hstored =>
          split
          · exact .staged hw (.raised _ rfl)
          · next document hparsed => exact .staged hw (.parsed hstored hparsed)
  · exact .same

theorem effect_number (worker : String) :
    Effect readers store (store.number worker) := by
  unfold number
  split
  · next hfind =>
      obtain ⟨hw, hname⟩ := Table.find?_eq_some hfind
      rw [← hname]
      exact .staged hw (.numbered _)
  · exact .same

theorem effect_finish (worker versionId : String) (drawingIds : List String)
    (now : Timestamp) :
    Effect readers store (store.finish worker versionId drawingIds now) := by
  unfold finish
  split
  · next hfind =>
      obtain ⟨hw, hname⟩ := Table.find?_eq_some hfind
      rw [← hname]
      split
      · exact .staged hw (.raised _ rfl)
      · next inserted hinserted => exact .finished hw rfl hinserted
  · exact .same

theorem effect_interrupt (worker error : String) :
    Effect readers store (store.interrupt worker error) := by
  unfold interrupt
  split
  · exact .same
  · exact .same
  · next found hclaiming _ hfind =>
      obtain ⟨hw, hname⟩ := Table.find?_eq_some hfind
      rw [← hname]
      apply Effect.staged hw
      apply Follows.raised
      cases hstage : found.stage with
      | claiming now =>
          obtain ⟨name, claim, stage⟩ := found
          cases hstage
          exact absurd rfl (hclaiming name claim now)
      | _ => rfl
  · exact .same

theorem effect_fail (worker : String) (now : Timestamp) :
    Effect readers store (store.fail worker now) := by
  unfold fail
  split
  · next hfind =>
      obtain ⟨hw, hname⟩ := Table.find?_eq_some hfind
      rw [← hname]
      exact .failed hw rfl
  · exact .same

theorem effect_afterParse (op : ParseOp) :
    Effect readers store (afterParse readers describe inspectUpload store op) := by
  cases op with
  | upload request => exact effect_upload request
  | confirm caseId versionId actor => exact .confirmed caseId versionId actor
  | claimSelect worker now => exact effect_claimSelect worker now
  | claimCommit worker => exact effect_claimCommit worker
  | parse worker => exact effect_parse worker
  | number worker => exact effect_number worker
  | finish worker versionId drawingIds now =>
      exact effect_finish worker versionId drawingIds now
  | interrupt worker error => exact effect_interrupt worker error
  | fail worker now => exact effect_fail worker now
  | crash worker => exact .released worker

-- ========================================= documents, runs and workers

variable {w w' : ParseTaskWorker Drawing} {runs : Table ParseRun.id}

/-- The run a worker holds. -/
def Holds (runs : Table ParseRun.id) (w : ParseTaskWorker Drawing) : Prop :=
  ∃ run ∈ runs.rows, run.id = w.runId
    ∧ run.sourceDocumentId = w.claim.sourceDocumentId
    ∧ run.caseId = w.claim.caseId ∧ run.status = w.stage.runStatus

/-- Every upload leaves a document and its run; a worker has the run it
claimed, and no other worker has it. -/
structure Linked (store : ParseStore Drawing) : Prop where
  paired : store.runs.rows.map (fun r => (r.sourceDocumentId, r.caseId))
    = store.documents.rows.map fun d => (d.id, d.caseId)
  held : ∀ w ∈ store.workers.rows, Holds store.runs w
  apart : (store.workers.rows.map ParseTaskWorker.runId).Nodup

theorem linked_empty : Linked (ParseStore.empty : ParseStore Drawing) where
  paired := rfl
  held := fun w hw => by simp [ParseStore.empty] at hw
  apart := List.nodup_nil

theorem Follows.runStatus {claim : ParseClaim} {stage stage' : WorkerStage Drawing}
    (h : Follows readers store claim stage stage') :
    stage'.runStatus = stage.runStatus := by
  cases h with
  | raised error hstage =>
      unfold WorkerStage.runStatus
      rw [hstage]
      rfl
  | parsed => rfl
  | numbered => rfl

/-- A document has one run. -/
theorem Linked.nodup (h : Linked store) :
    (store.runs.rows.map ParseRun.sourceDocumentId).Nodup := by
  have hids := congrArg (List.map Prod.fst) h.paired
  rw [List.map_map, List.map_map] at hids
  show (store.runs.rows.map (Prod.fst ∘ fun r => (r.sourceDocumentId, r.caseId))).Nodup
  rw [hids]
  exact store.documents.nodup

theorem Linked.document (h : Linked store) {run : ParseRun}
    (hrun : run ∈ store.runs.rows) :
    run.sourceDocumentId ∈ store.documents.rows.map SourceDocument.id := by
  have hin : (run.sourceDocumentId, run.caseId)
      ∈ store.runs.rows.map fun r => (r.sourceDocumentId, r.caseId) :=
    List.mem_map_of_mem hrun
  rw [h.paired] at hin
  obtain ⟨document, hdocument, heq⟩ := List.mem_map.mp hin
  exact List.mem_map.mpr ⟨document, hdocument, (Prod.mk.inj heq).1⟩

/-- What a worker's run is, where it is known to be the run. -/
theorem Holds.of_id (h : Holds runs w) {run : ParseRun} (hrun : run ∈ runs.rows)
    (hid : run.id = w.runId) :
    run.sourceDocumentId = w.claim.sourceDocumentId ∧ run.caseId = w.claim.caseId
      ∧ run.status = w.stage.runStatus := by
  obtain ⟨run', hrun', hid', hsame⟩ := h
  rw [runs.eq_of_key_eq hrun hrun' (hid.trans hid'.symm)]
  exact hsame

theorem Holds.update_other (h : Holds runs w) {runId : String} (hne : w.runId ≠ runId)
    (f : ParseRun → ParseRun) (hf : ∀ r, (f r).id = r.id) :
    Holds (runs.update (fun r => r.id = runId) f hf) w := by
  obtain ⟨run, hrun, hid, hsame⟩ := h
  refine ⟨run, ?_, hid, hsame⟩
  refine List.mem_map.mpr ⟨run, hrun, ?_⟩
  rw [if_neg (by simp [hid, hne])]

theorem mem_updateRun {run : ParseRun} {runId : String} (f : ParseRun → ParseRun)
    (hf : ∀ r, (f r).id = r.id) :
    run ∈ (store.updateRun runId f hf).runs.rows
      ↔ ∃ old ∈ store.runs.rows, (if old.id = runId then f old else old) = run := by
  show run ∈ (store.runs.update _ f hf).rows ↔ _
  simp

/-- An update of the run of one worker is none of the others'. -/
theorem Linked.held_update (h : Linked store) (hw : w ∈ store.workers.rows)
    (hw' : w' ∈ store.workers.rows) (hname : w'.name ≠ w.name)
    (f : ParseRun → ParseRun) (hf : ∀ r, (f r).id = r.id) :
    Holds (store.updateRun w.runId f hf).runs w' := by
  refine (h.held w' hw').update_other (fun hrun => ?_) f hf
  have hsame := List.inj_on_of_nodup_map h.apart hw' hw hrun
  exact hname (congrArg ParseTaskWorker.name hsame)

theorem paired_update {runId : String} (f : ParseRun → ParseRun)
    (hf : ∀ r, (f r).id = r.id)
    (hfixed : ∀ r, ((f r).sourceDocumentId, (f r).caseId) = (r.sourceDocumentId, r.caseId)) :
    ((store.updateRun runId f hf).runs.rows.map fun r => (r.sourceDocumentId, r.caseId))
      = store.runs.rows.map fun r => (r.sourceDocumentId, r.caseId) := by
  show ((store.runs.update _ f hf).rows.map _) = _
  rw [Table.rows_update]
  simp only [decide_eq_true_eq]
  apply Table.map_rewrite_of_fixed hfixed

@[simp] theorem runIds_setStage {worker : String} {stage : WorkerStage Drawing} :
    (store.setStage worker stage).workers.rows.map ParseTaskWorker.runId
      = store.workers.rows.map ParseTaskWorker.runId := by
  simp only [setStage, Table.rows_update, decide_eq_true_eq]
  apply Table.map_rewrite_of_fixed
  intro _
  rfl

/-- The worker and its run go on together. -/
theorem Linked.started (h : Linked store) (hw : w ∈ store.workers.rows)
    {now : Timestamp} :
    Linked ((store.updateRun w.runId (.started now)).setStage w.name .processing) where
  paired := (paired_update (.started now) (fun _ => rfl) fun _ => rfl).trans h.paired
  held := by
    intro w' hw'
    obtain ⟨old, hold, rfl⟩ := List.mem_map.mp hw'
    by_cases hname : old.name = w.name
    · obtain rfl := store.workers.eq_of_key_eq hold hw hname
      obtain ⟨run, hrun, hid, hdocument, hcase, -⟩ := h.held old hw
      rw [if_pos (by simp)]
      refine ⟨run.started now, ?_, hid,
        hdocument, hcase, rfl⟩
      exact (mem_updateRun (.started now) fun _ => rfl).mpr ⟨run, hrun, if_pos hid⟩
    · rw [if_neg (by simpa using hname)]
      exact h.held_update hw hold hname (.started now) fun _ => rfl
  apart := by
    rw [runIds_setStage]
    exact h.apart

theorem Linked.staged (h : Linked store) (hw : w ∈ store.workers.rows)
    {stage : WorkerStage Drawing} (hstatus : stage.runStatus = w.stage.runStatus) :
    Linked (store.setStage w.name stage) where
  paired := h.paired
  held := by
    intro w' hw'
    obtain ⟨old, hold, rfl⟩ := List.mem_map.mp hw'
    by_cases hname : old.name = w.name
    · obtain rfl := store.workers.eq_of_key_eq hold hw hname
      obtain ⟨run, hrun, hid, hdocument, hcase, hrunStatus⟩ := h.held old hw
      rw [if_pos (by simp)]
      exact ⟨run, hrun, hid, hdocument, hcase, hrunStatus.trans hstatus.symm⟩
    · rw [if_neg (by simpa using hname)]
      exact h.held old hold
  apart := by
    rw [runIds_setStage]
    exact h.apart

theorem Linked.released (h : Linked store) (worker : String) :
    Linked (store.release worker) where
  paired := h.paired
  held := fun w hw => h.held w (List.mem_filter.mp hw).1
  apart := h.apart.sublist (List.filter_sublist.map _)

/-- A worker marks its run with its last statement. -/
theorem Linked.ended (h : Linked store) (hw : w ∈ store.workers.rows)
    (f : ParseRun → ParseRun) (hf : ∀ r, (f r).id = r.id)
    (hfixed : ∀ r, ((f r).sourceDocumentId, (f r).caseId)
      = (r.sourceDocumentId, r.caseId)) :
    Linked ((store.updateRun w.runId f hf).release w.name) where
  paired := (paired_update f hf hfixed).trans h.paired
  held := by
    intro w' hw'
    obtain ⟨hw', hname⟩ := List.mem_filter.mp hw'
    exact h.held_update hw hw' (by simpa using hname) f hf
  apart := h.apart.sublist (List.filter_sublist.map _)

/-- A run that can be claimed is no worker's. -/
theorem Linked.unheld (h : Linked store) {run : ParseRun}
    (hrun : run ∈ store.runs.rows) (hqueued : run.status = .queued)
    (hlocked : store.runLocked run.id = false) (hw : w ∈ store.workers.rows) :
    w.runId ≠ run.id := by
  intro hid
  have hstatus := ((h.held w hw).of_id hrun hid.symm).2.2
  rw [hqueued] at hstatus
  have hfree := List.any_eq_false.mp hlocked w hw
  apply hfree
  have hclaim : w.claim.runId = run.id := hid
  rw [hclaim, decide_eq_true rfl, Bool.true_and]
  unfold WorkerStage.runStatus at hstatus
  cases hstage : w.stage with
  | claiming now => rfl
  | processing => simp [hstage, WorkerStage.isClaiming] at hstatus
  | parsed document => simp [hstage, WorkerStage.isClaiming] at hstatus
  | numbered document nextVer => simp [hstage, WorkerStage.isClaiming] at hstatus
  | raised error => simp [hstage, WorkerStage.isClaiming] at hstatus

/-- Inserting a version changes neither documents, runs nor workers. -/
theorem insertVersion_eq_some {claim : ParseClaim} {document : ParsedDocument Drawing}
    {nextVer : Nat} {versionId : String} {drawingIds : List String} {now : Timestamp}
    {inserted : ParseStore Drawing}
    (h : store.insertVersion claim document nextVer versionId drawingIds now
      = some inserted) :
    (∀ v ∈ store.versions.rows,
        ¬ (v.caseId = claim.caseId ∧ v.versionNumber = nextVer))
      ∧ ∃ versions drawings,
        versions.rows = store.versions.rows ++ [{
          id := versionId, organizationId := claim.organizationId
          caseId := claim.caseId, sourceDocumentId := claim.sourceDocumentId
          versionNumber := nextVer, parsedText := document.parsedText
          structureJson := document.paragraphs, sha256 := document.sha256
          isConfirmed := false, createdByIdentityId := none, createdAt := now }]
        ∧ inserted = { store with versions := versions, drawings := drawings } := by
  obtain ⟨_, hfree, h⟩ := Option.bind_eq_some_iff.mp h
  obtain ⟨_, -, h⟩ := Option.bind_eq_some_iff.mp h
  obtain ⟨versions, hversions, h⟩ := Option.bind_eq_some_iff.mp h
  obtain ⟨drawings, -, h⟩ := Option.bind_eq_some_iff.mp h
  refine ⟨?_, versions, drawings, (Table.insert?_eq_some.mp hversions).2,
    (Option.some.inj h).symm⟩
  simpa [guard] using hfree

theorem linked_step (h : Linked store) (heffect : Effect readers store next) :
    Linked next := by
  cases heffect with
  | same => exact h
  | stored request => exact ⟨h.paired, h.held, h.apart⟩
  | uploaded hdocument hkey hrun hqueued hdocuments hruns =>
      obtain ⟨-, hdocuments⟩ := Table.insert?_eq_some.mp hdocuments
      obtain ⟨-, hruns⟩ := Table.insert?_eq_some.mp hruns
      refine ⟨?_, fun w hw => ?_, h.apart⟩
      · simp only [hdocuments, hruns, List.map_append, List.map_singleton, hrun.1,
          hrun.2.1, h.paired]
      · obtain ⟨run, hin, hsame⟩ := h.held w hw
        exact ⟨run, by simp [hruns, hin], hsame⟩
  | confirmed => exact ⟨h.paired, h.held, h.apart⟩
  | @claimed w run document workers hrun hqueued hlocked _ _ hclaim hstage hworkers =>
      obtain ⟨-, hrows⟩ := Table.insert?_eq_some.mp hworkers
      have hid : w.runId = run.id := by rw [ParseTaskWorker.runId, hclaim]
      refine ⟨h.paired, fun w' hw' => ?_, ?_⟩
      · simp only [hrows, List.mem_append, List.mem_singleton] at hw'
        rcases hw' with hold | rfl
        · exact h.held w' hold
        · refine ⟨run, hrun, hid.symm, ?_, ?_, ?_⟩
          · rw [hclaim]
          · rw [hclaim]
          · rw [hqueued, WorkerStage.runStatus, hstage, if_pos rfl]
      · show (workers.rows.map ParseTaskWorker.runId).Nodup
        rw [hrows]
        apply Table.nodup_map_concat h.apart
        intro w' hw'
        rw [hid]
        exact h.unheld hrun hqueued hlocked hw'
  | started hw => exact h.started hw
  | staged hw hfollows => exact h.staged hw hfollows.runStatus
  | @finished w _ _ _ _ now _ hw _ hinserted =>
      obtain ⟨-, versions, drawings, -, rfl⟩ := insertVersion_eq_some hinserted
      have hlinked : Linked { store with versions := versions, drawings := drawings } :=
        ⟨h.paired, h.held, h.apart⟩
      exact hlinked.ended hw (.completed now) (fun _ => rfl) fun _ => rfl
  | @failed w error now hw =>
      exact h.ended hw (.failed error now) (fun _ => rfl) fun _ => rfl
  | released worker => exact h.released worker

-- ==================================================== one version a run

/-- The versions of a document. -/
def versionsOf (store : ParseStore Drawing) (documentId : String) : Nat :=
  store.versions.rows.countP fun v => v.sourceDocumentId = documentId

/-- A run that is completed has left one version of its document, any other
none, and there are no versions besides. -/
structure ParsedOnce (store : ParseStore Drawing) : Prop extends Linked store where
  once : ∀ run ∈ store.runs.rows,
    versionsOf store run.sourceDocumentId = if run.status = .completed then 1 else 0
  known : ∀ v ∈ store.versions.rows,
    ∃ run ∈ store.runs.rows, run.sourceDocumentId = v.sourceDocumentId

theorem WorkerStage.runStatus_ne_completed (stage : WorkerStage Drawing) :
    stage.runStatus ≠ .completed := by
  unfold WorkerStage.runStatus
  split <;> simp

/-- The run of a worker has no version yet. -/
theorem ParsedOnce.open (h : ParsedOnce store) (hw : w ∈ store.workers.rows)
    {run : ParseRun} (hrun : run ∈ store.runs.rows) (hid : run.id = w.runId) :
    versionsOf store run.sourceDocumentId = 0 := by
  rw [h.once run hrun, ((h.held w hw).of_id hrun hid).2.2,
    if_neg w.stage.runStatus_ne_completed]

/-- What the worker of a run writes to it before the version is there. -/
theorem ParsedOnce.once_update (h : ParsedOnce store) (hw : w ∈ store.workers.rows)
    (f : ParseRun → ParseRun) (hf : ∀ r, (f r).id = r.id)
    (hdocument : ∀ r, (f r).sourceDocumentId = r.sourceDocumentId)
    (hopen : ∀ r, (f r).status ≠ .completed) :
    ∀ run ∈ (store.updateRun w.runId f hf).runs.rows,
      versionsOf store run.sourceDocumentId
        = if run.status = .completed then 1 else 0 := by
  intro run hrun
  obtain ⟨old, hold, rfl⟩ := (mem_updateRun f hf).mp hrun
  by_cases hid : old.id = w.runId
  · rw [if_pos hid, hdocument, if_neg (hopen old)]
    exact h.open hw hold hid
  · rw [if_neg hid]
    exact h.once old hold

theorem known_update {runId : String} (f : ParseRun → ParseRun)
    (hf : ∀ r, (f r).id = r.id)
    (hdocument : ∀ r, (f r).sourceDocumentId = r.sourceDocumentId)
    {documentId : String}
    (h : ∃ run ∈ store.runs.rows, run.sourceDocumentId = documentId) :
    ∃ run ∈ (store.updateRun runId f hf).runs.rows,
      run.sourceDocumentId = documentId := by
  obtain ⟨run, hrun, rfl⟩ := h
  refine ⟨_, (mem_updateRun f hf).mpr ⟨run, hrun, rfl⟩, ?_⟩
  split
  · exact hdocument run
  · rfl

theorem versionsOf_confirm {caseId versionId actor documentId : String} :
    versionsOf (store.confirmDocumentVersion caseId versionId actor) documentId
      = versionsOf store documentId := by
  unfold versionsOf confirmDocumentVersion
  rw [Table.rows_update, List.countP_map]
  apply List.countP_congr
  intro v _
  simp only [Function.comp_apply]
  split <;> rfl

/-- The version and the mark of the run are of one transaction. -/
theorem ParsedOnce.finished (h : ParsedOnce store) (hw : w ∈ store.workers.rows)
    {document : ParsedDocument Drawing} {nextVer : Nat} {versionId : String}
    {drawingIds : List String} {now : Timestamp} {inserted : ParseStore Drawing}
    (hinserted : store.insertVersion w.claim document nextVer versionId drawingIds
      now = some inserted) :
    ParsedOnce ((inserted.updateRun w.runId (.completed now)).release w.name) := by
  obtain ⟨-, versions, drawings, hrows, rfl⟩ := insertVersion_eq_some hinserted
  have hlinked : Linked { store with versions := versions, drawings := drawings } :=
    ⟨h.paired, h.held, h.apart⟩
  obtain ⟨run, hrun, hid, hdocument, -, hstatus⟩ := h.held w hw
  refine ⟨hlinked.ended hw (.completed now) (fun _ => rfl) fun _ => rfl, ?_, ?_⟩
  · intro run' hrun'
    obtain ⟨old, hold, rfl⟩ := (mem_updateRun (.completed now) fun _ => rfl).mp hrun'
    have hcount (documentId : String) :
        versions.rows.countP (fun v => v.sourceDocumentId = documentId)
          = versionsOf store documentId
            + if w.claim.sourceDocumentId = documentId then 1 else 0 := by
      rw [hrows, List.countP_append, List.countP_singleton]
      simp only [decide_eq_true_eq]
      rfl
    show versions.rows.countP _ = _
    by_cases hold_id : old.id = w.runId
    · obtain rfl := store.runs.eq_of_key_eq hold hrun (hold_id.trans hid.symm)
      simp only [if_pos hold_id]
      show versions.rows.countP (fun v => v.sourceDocumentId = old.sourceDocumentId) = 1
      rw [hcount, h.open hw hold hold_id, if_pos hdocument.symm]
    · simp only [if_neg hold_id]
      have hother : w.claim.sourceDocumentId ≠ old.sourceDocumentId := by
        intro heq
        have hsame := List.inj_on_of_nodup_map h.nodup hold hrun
          (heq.symm.trans hdocument.symm)
        exact hold_id (hsame ▸ hid)
      rw [hcount, h.once old hold, if_neg hother, Nat.add_zero]
  · intro v hv
    apply known_update (.completed now) (fun _ => rfl) fun _ => rfl
    have hv' : v ∈ versions.rows := hv
    simp only [hrows, List.mem_append, List.mem_singleton] at hv'
    rcases hv' with hold | rfl
    · exact h.known v hold
    · exact ⟨run, hrun, hdocument⟩

theorem parsedOnce_step (h : ParsedOnce store) (heffect : Effect readers store next) :
    ParsedOnce next := by
  have hlinked := linked_step h.toLinked heffect
  cases heffect with
  | same => exact h
  | stored request => exact ⟨hlinked, h.once, h.known⟩
  | @uploaded data document run documents runs _ _ hrun hqueued hdocuments hruns =>
      obtain ⟨hfresh, -⟩ := Table.insert?_eq_some.mp hdocuments
      obtain ⟨-, hruns⟩ := Table.insert?_eq_some.mp hruns
      refine ⟨hlinked, fun run' hrun' => ?_, fun v hv => ?_⟩
      · have hin : run' ∈ runs.rows := hrun'
        simp only [hruns, List.mem_append, List.mem_singleton] at hin
        rcases hin with hold | rfl
        · exact h.once run' hold
        · rw [hqueued, if_neg (by simp)]
          apply List.countP_eq_zero.mpr
          intro v hv heq
          obtain ⟨old, hold, hdocument⟩ := h.known v hv
          have hin := h.document hold
          rw [hdocument, of_decide_eq_true heq, hrun.1] at hin
          exact hfresh hin
      · obtain ⟨old, hold, hdocument⟩ := h.known v hv
        exact ⟨old, by simp [hruns, hold], hdocument⟩
  | confirmed caseId versionId actor =>
      refine ⟨hlinked, fun run hrun => ?_, fun v hv => ?_⟩
      · rw [versionsOf_confirm]
        exact h.once run hrun
      · obtain ⟨old, hold, rfl⟩ := List.mem_map.mp hv
        obtain ⟨run, hrun, hdocument⟩ := h.known old hold
        refine ⟨run, hrun, hdocument.trans ?_⟩
        split <;> rfl
  | claimed => exact ⟨hlinked, h.once, h.known⟩
  | @started w now hw =>
      refine ⟨hlinked, ?_, fun v hv => ?_⟩
      · exact h.once_update hw (.started now) (fun _ => rfl) (fun _ => rfl)
          fun _ => by simp [ParseRun.started]
      · exact known_update (.started now) (fun _ => rfl) (fun _ => rfl) (h.known v hv)
  | staged => exact ⟨hlinked, h.once, h.known⟩
  | finished hw _ hinserted => exact h.finished hw hinserted
  | @failed w error now hw =>
      refine ⟨hlinked, ?_, fun v hv => ?_⟩
      · exact h.once_update hw (.failed error now) (fun _ => rfl) (fun _ => rfl)
          fun _ => by simp [ParseRun.failed]
      · exact known_update (.failed error now) (fun _ => rfl) (fun _ => rfl)
          (h.known v hv)
  | released => exact ⟨hlinked, h.once, h.known⟩

theorem parsedOnce_empty : ParsedOnce (ParseStore.empty : ParseStore Drawing) where
  toLinked := linked_empty
  once := fun run hrun => by simp [ParseStore.empty] at hrun
  known := fun v hv => by simp [ParseStore.empty] at hv

theorem parsedOnce_afterParse (store : ParseStore Drawing) (op : ParseOp)
    (h : ParsedOnce store) :
    ParsedOnce (afterParse readers describe inspectUpload store op) :=
  parsedOnce_step h (effect_afterParse op)

/-- However uploads and workers interleave and wherever workers end, no two
workers have one run, and each document is parsed into one version exactly
where its run is completed. -/
theorem runs_parsed_once (ops : List ParseOp) :
    Always (afterParse readers describe inspectUpload) ParsedOnce .empty ops :=
  always_of_forall parsedOnce_afterParse parsedOnce_empty

-- ========================================================= runs that end

/-- What one statement writes to a run. -/
inductive Advances : ParseRun → ParseRun → Prop
  | started {run : ParseRun} (now : Timestamp) (h : run.status = .queued) :
      Advances run (run.started now)
  | completed {run : ParseRun} (now : Timestamp) (h : run.status = .running) :
      Advances run (run.completed now)
  | failed {run : ParseRun} (error : String) (now : Timestamp)
      (h : run.status = .running) : Advances run (run.failed error now)

/-- A run that is completed or failed. -/
def ParseRun.IsTerminal (run : ParseRun) : Prop :=
  run.status = .completed ∨ run.status = .failed

theorem not_advances_of_isTerminal {run run' : ParseRun} (hrun : run.IsTerminal) :
    ¬ Advances run run' := by
  intro h
  rcases hrun with hstatus | hstatus <;> cases h <;> simp_all

/-- The run of a worker advances, the others stay. -/
theorem advances_update (h : Linked store) (hw : w ∈ store.workers.rows)
    (f : ParseRun → ParseRun) (hf : ∀ r, (f r).id = r.id)
    (hadvances : ∀ r : ParseRun, r.status = w.stage.runStatus → Advances r (f r)) :
    ∀ run ∈ store.runs.rows, ∃ run' ∈ (store.updateRun w.runId f hf).runs.rows,
      Relation.ReflTransGen Advances run run' := by
  intro run hrun
  refine ⟨_, (mem_updateRun f hf).mpr ⟨run, hrun, rfl⟩, ?_⟩
  by_cases hid : run.id = w.runId
  · rw [if_pos hid]
    apply Relation.ReflTransGen.single
    exact hadvances run ((h.held w hw).of_id hrun hid).2.2
  · rw [if_neg hid]

theorem advances_step (h : Linked store) (heffect : Effect readers store next) :
    ∀ run ∈ store.runs.rows, ∃ run' ∈ next.runs.rows,
      Relation.ReflTransGen Advances run run' := by
  have hkept (run : ParseRun) (hrun : run ∈ store.runs.rows) :
      ∃ run' ∈ store.runs.rows, Relation.ReflTransGen Advances run run' :=
    ⟨run, hrun, .refl⟩
  cases heffect with
  | same => exact hkept
  | stored => exact hkept
  | uploaded _ _ _ _ _ hruns =>
      intro run hrun
      have hrows := (Table.insert?_eq_some.mp hruns).2
      exact ⟨run, by simp [hrows, hrun], .refl⟩
  | confirmed => exact hkept
  | claimed => exact hkept
  | @started w now hw hstage =>
      apply advances_update h hw (.started now) fun _ => rfl
      intro r hr
      rw [hstage] at hr
      exact .started now hr
  | staged => exact hkept
  | @finished w _ _ _ _ now _ hw hstage hinserted =>
      obtain ⟨-, versions, drawings, -, rfl⟩ := insertVersion_eq_some hinserted
      apply advances_update h hw (.completed now) fun _ => rfl
      intro r hr
      rw [hstage] at hr
      exact .completed now hr
  | @failed w error now hw hstage =>
      apply advances_update h hw (.failed error now) fun _ => rfl
      intro r hr
      rw [hstage] at hr
      exact .failed error now hr
  | released => exact hkept

theorem advances_run {store : ParseStore Drawing} (h : ParsedOnce store)
    (ops : List ParseOp) :
    ∀ run ∈ store.runs.rows,
      ∃ run' ∈ (Runs.run (afterParse readers describe inspectUpload) store ops).runs.rows,
        Relation.ReflTransGen Advances run run' := by
  induction ops generalizing store with
  | nil => exact fun run hrun => ⟨run, hrun, .refl⟩
  | cons op ops ih =>
      intro run hrun
      have hstep : Effect readers store
          (afterParse readers describe inspectUpload store op) := effect_afterParse op
      obtain ⟨mid, hmid, hfirst⟩ := advances_step h.toLinked hstep run hrun
      obtain ⟨run', hrun', hrest⟩ := ih (parsedOnce_step h hstep) mid hmid
      exact ⟨run', hrun', hfirst.trans hrest⟩

/-- A run goes from queued to running and from there to completed or failed,
whatever happens around it, and a run that has ended there is never written
to again. -/
theorem parse_runs_only_advance (ops ops' : List ParseOp) :
    ∀ run ∈ (Runs.run (afterParse readers describe inspectUpload) .empty ops).runs.rows,
      ∃ run' ∈ (Runs.run (afterParse readers describe inspectUpload) .empty
          (ops ++ ops')).runs.rows,
        Relation.ReflTransGen Advances run run' ∧ (run.IsTerminal → run' = run) := by
  intro run hrun
  have hreached : ParsedOnce
      (Runs.run (afterParse readers describe inspectUpload) .empty ops) :=
    run_invariant_of_forall parsedOnce_afterParse parsedOnce_empty
  obtain ⟨run', hrun', hadvances⟩ := advances_run hreached ops' run hrun
  rw [← run_append] at hrun'
  refine ⟨run', hrun', hadvances, fun hterminal => ?_⟩
  rcases hadvances.cases_head with rfl | ⟨mid, hmid, -⟩
  · rfl
  · exact absurd hmid (not_advances_of_isTerminal hterminal)

/-- A page that says `A hinge.`, as a file. -/
def hingePdf : String :=
  Text.join "\n" [
    "%PDF-1.4",
    "1 0 obj<</Type/Catalog/Pages 2 0 R>>endobj",
    "2 0 obj<</Type/Pages/Kids[3 0 R]/Count 1>>endobj",
    "3 0 obj<</Type/Page/Parent 2 0 R/MediaBox[0 0 99 50]/Resources<</Font"
      ++ "<</F1 4 0 R>>>>/Contents 5 0 R>>endobj",
    "4 0 obj<</Type/Font/Subtype/Type1/BaseFont/Helvetica>>endobj",
    "5 0 obj<</Length 37>>stream",
    "BT /F1 12 Tf 9 20 Td (A hinge.) Tj ET",
    "endstream endobj",
    "xref",
    "0 6",
    "0000000000 65535 f ",
    "0000000009 00000 n ",
    "0000000052 00000 n ",
    "0000000101 00000 n ",
    "0000000209 00000 n ",
    "0000000270 00000 n ",
    "trailer<</Size 6/Root 1 0 R>>",
    "startxref",
    "353",
    "%%EOF",
    ""]

/-- The bytes are this file's. -/
def isHingePdf (data : ByteArray) : Bool :=
  data.data.toList = hingePdf.toUTF8.data.toList

/-- What the libraries read of it. -/
def pdfReaders : Readers Unit Unit where
  sha256 data :=
    if isHingePdf data then
      "8839d0ee9800120a18d85ed652863ebc13affe028f50af28395a2cc93a900119"
    else String.ofList (List.replicate 64 '0')
  document _ := .error ()
  pdfPages data :=
    if isHingePdf data then .ok [some "A hinge."] else .error ()
  decode data := if isHingePdf data then hingePdf else ""
  extractDrawings _ _ _ _ := .ok []

/-- It is let in. -/
def acceptPdf (_ : String) (_ : ByteArray) : Except String UploadCheck :=
  .ok { mimeType := "application/pdf", findings := [] }

/-- An upload, a claim of its run, and the end of the worker. -/
def crashedOps : List ParseOp :=
  [.upload {
      organizationId := "o", caseId := "c", filename := "a.pdf", data := hingePdf.toUTF8
      documentId := "d", runId := "r", now := 1 },
    .claimSelect "w" 2, .claimCommit "w", .crash "w"]

theorem parse_runs_only_advance_crashed :
    ∃ run' ∈ (Runs.run (afterParse pdfReaders (fun _ => "error") acceptPdf) .empty
        crashedOps).runs.rows,
      Relation.ReflTransGen Advances {
        id := "r", organizationId := "o", caseId := "c", sourceDocumentId := "d"
        status := .queued, errorSummary := none, startedAt := none
        finishedAt := none, createdAt := 1 } run' := by
  have hrows : (Runs.run (afterParse pdfReaders (fun _ => "error") acceptPdf) .empty
      (crashedOps.take 1)).runs.rows = [{
        id := "r", organizationId := "o", caseId := "c", sourceDocumentId := "d"
        status := .queued, errorSummary := none, startedAt := none
        finishedAt := none, createdAt := 1 }] := by
    rfl
  obtain ⟨run', hrun', hadvances, -⟩ := parse_runs_only_advance (crashedOps.take 1)
    (crashedOps.drop 1) _ (by rw [hrows]; exact List.mem_singleton_self _)
  rw [List.take_append_drop] at hrun'
  exact ⟨run', hrun', hadvances⟩

/-- A run that is running, but no worker's. -/
structure Abandoned (store : ParseStore Drawing) (run : ParseRun) : Prop where
  run_mem : run ∈ store.runs.rows
  running : run.status = .running
  unheld : ∀ w ∈ store.workers.rows, w.runId ≠ run.id

theorem Abandoned.of_same {run : ParseRun} (h : Abandoned store run)
    (hruns : run ∈ next.runs.rows)
    (hworkers : ∀ w ∈ next.workers.rows,
      ∃ old ∈ store.workers.rows, old.runId = w.runId) :
    Abandoned next run where
  run_mem := hruns
  running := h.running
  unheld := by
    intro w hw hid
    obtain ⟨old, hold, hsame⟩ := hworkers w hw
    exact h.unheld old hold (hsame.trans hid)

/-- The others' statements leave it alone. -/
theorem Abandoned.update {run : ParseRun} (h : Abandoned store run)
    (hw : w ∈ store.workers.rows) (f : ParseRun → ParseRun)
    (hf : ∀ r, (f r).id = r.id) :
    run ∈ (store.updateRun w.runId f hf).runs.rows := by
  refine (mem_updateRun f hf).mpr ⟨run, h.run_mem, if_neg fun hid => ?_⟩
  exact h.unheld w hw hid.symm

theorem exists_old_of_setStage {worker : String} {stage : WorkerStage Drawing} :
    ∀ w ∈ (store.setStage worker stage).workers.rows,
      ∃ old ∈ store.workers.rows, old.runId = w.runId := by
  intro w hw
  obtain ⟨old, hold, rfl⟩ := List.mem_map.mp hw
  refine ⟨old, hold, ?_⟩
  split <;> rfl

theorem exists_old_of_release {worker : String} :
    ∀ w ∈ (store.release worker).workers.rows,
      ∃ old ∈ store.workers.rows, old.runId = w.runId := by
  intro w hw
  exact ⟨w, (List.mem_filter.mp hw).1, rfl⟩

theorem abandoned_step {run : ParseRun} (h : Abandoned store run)
    (heffect : Effect readers store next) : Abandoned next run := by
  have hsame : ∀ w ∈ store.workers.rows,
      ∃ old ∈ store.workers.rows, old.runId = w.runId := fun w hw => ⟨w, hw, rfl⟩
  cases heffect with
  | same => exact h
  | stored => exact h.of_same h.run_mem hsame
  | uploaded _ _ _ _ _ hruns =>
      have hrows := (Table.insert?_eq_some.mp hruns).2
      exact h.of_same (by simp [hrows, h.run_mem]) hsame
  | confirmed => exact h.of_same h.run_mem hsame
  | @claimed w claimed _ workers hclaimed hqueued _ _ _ hclaim _ hworkers =>
      obtain ⟨-, hrows⟩ := Table.insert?_eq_some.mp hworkers
      refine ⟨h.run_mem, h.running, fun w' hw' => ?_⟩
      simp only [hrows, List.mem_append, List.mem_singleton] at hw'
      rcases hw' with hold | rfl
      · exact h.unheld w' hold
      · -- the claimed run is queued, this one is running
        rw [ParseTaskWorker.runId, hclaim]
        intro hid
        have heq := store.runs.eq_of_key_eq hclaimed h.run_mem hid
        rw [heq, h.running] at hqueued
        cases hqueued
  | @started w now hw =>
      apply Abandoned.of_same h
      · exact h.update hw (.started now) fun _ => rfl
      · exact exists_old_of_setStage
  | staged => exact h.of_same h.run_mem exists_old_of_setStage
  | @finished w _ _ _ _ now _ hw _ hinserted =>
      obtain ⟨-, versions, drawings, -, rfl⟩ := insertVersion_eq_some hinserted
      apply Abandoned.of_same h
      · exact h.update hw (.completed now) fun _ => rfl
      · exact exists_old_of_release
  | @failed w error now hw =>
      apply Abandoned.of_same h
      · exact h.update hw (.failed error now) fun _ => rfl
      · exact exists_old_of_release
  | released => exact h.of_same h.run_mem exists_old_of_release

/-- A run whose worker has ended after its claim stays as it is in every
later state: no worker claims it again, and no version of it is made. -/
theorem abandoned_run_stays_running {ops : List ParseOp} {r : ParseRun}
    (h : Abandoned (Runs.run (afterParse readers describe inspectUpload) .empty ops) r)
    (ops' : List ParseOp) :
    Abandoned (Runs.run (afterParse readers describe inspectUpload) .empty
        (ops ++ ops')) r
      ∧ versionsOf (Runs.run (afterParse readers describe inspectUpload) .empty
        (ops ++ ops')) r.sourceDocumentId = 0 := by
  have hlater : Abandoned (Runs.run (afterParse readers describe inspectUpload) .empty
      (ops ++ ops')) r := by
    rw [run_append]
    apply run_invariant_of_forall (I := fun store => Abandoned store r) _ h
    intro store op habandoned
    exact abandoned_step habandoned (effect_afterParse op)
  refine ⟨hlater, ?_⟩
  have hreached : ParsedOnce (Runs.run (afterParse readers describe inspectUpload)
      .empty (ops ++ ops')) :=
    run_invariant_of_forall parsedOnce_afterParse parsedOnce_empty
  rw [hreached.once r hlater.run_mem, hlater.running, if_neg (by simp)]

theorem abandoned_run_stays_running_crashed :
    versionsOf (Runs.run (afterParse pdfReaders (fun _ => "error") acceptPdf) .empty
      (crashedOps ++ [.claimSelect "v" 3, .claimCommit "v"])) "d" = 0 := by
  have hrows : (Runs.run (afterParse pdfReaders (fun _ => "error") acceptPdf) .empty
      crashedOps).runs.rows = [{
        id := "r", organizationId := "o", caseId := "c", sourceDocumentId := "d"
        status := .running, errorSummary := none, startedAt := some 2
        finishedAt := none, createdAt := 1 }] := by
    rfl
  have hworkers : (Runs.run (afterParse pdfReaders (fun _ => "error") acceptPdf) .empty
      crashedOps).workers.rows = [] := by
    rfl
  refine (abandoned_run_stays_running (r := {
      id := "r", organizationId := "o", caseId := "c", sourceDocumentId := "d"
      status := .running, errorSummary := none, startedAt := some 2
      finishedAt := none, createdAt := 1 }) ⟨?_, rfl, ?_⟩ _).2
  · rw [hrows]
    simp
  · rw [hworkers]
    simp

end PatentEvidence.Cases
