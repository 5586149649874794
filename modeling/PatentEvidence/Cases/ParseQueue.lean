/-
Uploads and the workers that parse them (`DocumentService.upload_document`
and `confirm_document_version` of apps/api/…/cases/services.py,
apps/worker/…/parse_worker.py, adapters/object_storage/client.py and
migration 0004).

A worker claims a queued run in one transaction: its `SELECT` takes the
oldest queued run that no other transaction has locked (`FOR UPDATE … SKIP
LOCKED`), and its `UPDATE` shows at the commit. It then works without any
lock, in a second transaction that reads the next version number, inserts
its rows and marks the run; the number is checked by a unique index when
the row is inserted. An exception on the way is written to the run by a
third. Statements of other workers and requests come in between, and a
worker may end anywhere. A commit that raises has not happened.

Object storage is a map from keys to bytes. The objects of drawings, which
are under other keys, are left out.
-/
import PatentEvidence.Cases.Parser
import PatentEvidence.Cases.Store
import PatentEvidence.Lib.Date
import PatentEvidence.Lib.Grouping

namespace PatentEvidence.Cases

open Fallible Grouping

-- ======================================================= object storage

/-- `Path(filename).name`. -/
def pathName (filename : String) : String :=
  let parts := (filename.toList.splitOn '/').filter fun part =>
    part ≠ [] && part ≠ ['.']
  String.ofList (parts.getLast?.getD [])

/-- `[a-zA-Z0-9_\.\-\u4e00-\u9fa5]`. -/
def isSafeChar (c : Char) : Bool :=
  c.isAlphanum || c ∈ ['_', '.', '-'] || ('\u4e00' ≤ c && c ≤ '\u9fa5')

/-- `sanitize_filename`. -/
def sanitizeFilename (filename : String) : String :=
  let cleaned := (pathName filename).toList.map fun c =>
    if isSafeChar c then c else '_'
  if cleaned = [] then "document" else String.ofList (cleaned.take 128)

/-- `build_source_key`. -/
def buildSourceKey (organizationId caseId sha256 filename : String) : String :=
  "org/" ++ organizationId ++ "/case/" ++ caseId ++ "/source/" ++ sha256 ++ "_"
    ++ sanitizeFilename filename

-- ================================================================= rows

structure SourceDocument where
  id : String
  organizationId : String
  caseId : String
  filename : String
  fileSize : Nat
  mimeType : String
  sha256 : String
  storageKey : String
  securityFindings : List String
  createdAt : Timestamp

inductive ParseStatus
  | queued
  | running
  | completed
  | failed
  deriving DecidableEq

structure ParseRun where
  id : String
  organizationId : String
  caseId : String
  sourceDocumentId : String
  status : ParseStatus
  errorSummary : Option String
  startedAt : Option Timestamp
  finishedAt : Option Timestamp
  createdAt : Timestamp

/-- `SET status='running', started_at=:now`. -/
def ParseRun.started (now : Timestamp) (run : ParseRun) : ParseRun :=
  { run with status := .running, startedAt := some now }

/-- `SET status='completed', finished_at=:now`. -/
def ParseRun.completed (now : Timestamp) (run : ParseRun) : ParseRun :=
  { run with status := .completed, finishedAt := some now }

/-- `SET status='failed', error_summary=:err, finished_at=:now`. -/
def ParseRun.failed (error : String) (now : Timestamp) (run : ParseRun) : ParseRun :=
  { run with
    status := .failed, errorSummary := some (String.ofList (error.toList.take 500))
    finishedAt := some now }

/-- A row of `document_versions`. -/
structure DocumentVersionRow where
  id : String
  organizationId : String
  caseId : String
  sourceDocumentId : String
  versionNumber : Nat
  parsedText : String
  structureJson : List ParagraphBlock
  sha256 : String
  isConfirmed : Bool
  createdByIdentityId : Option String
  createdAt : Timestamp

/-- A row of `case_drawings` as the parser leaves it. -/
structure CaseDrawing (Drawing : Type) where
  id : String
  organizationId : String
  caseId : String
  sourceDocumentId : String
  documentVersionId : String
  drawing : Drawing
  createdAt : Timestamp

-- ============================================================== workers

/-- What a claim has read. -/
structure ParseClaim where
  runId : String
  organizationId : String
  caseId : String
  sourceDocumentId : String
  filename : String
  mimeType : String
  storageKey : String

/-- How far a worker is. While it is claiming, it has the run locked. -/
inductive WorkerStage (Drawing : Type)
  | claiming (now : Timestamp)
  | processing
  | parsed (document : ParsedDocument Drawing)
  | numbered (document : ParsedDocument Drawing) (nextVer : Nat)
  | raised (error : String)

structure ParseTaskWorker (Drawing : Type) where
  name : String
  claim : ParseClaim
  stage : WorkerStage Drawing

def ParseTaskWorker.runId {Drawing : Type} (worker : ParseTaskWorker Drawing) :
    String := worker.claim.runId

structure ParseStore (Drawing : Type) where
  storage : String → Option ByteArray
  documents : Table SourceDocument.id
  runs : Table ParseRun.id
  versions : Table DocumentVersionRow.id
  drawings : Table (@CaseDrawing.id Drawing)
  workers : Table (@ParseTaskWorker.name Drawing)

def ParseStore.empty {Drawing : Type} : ParseStore Drawing where
  storage := fun _ => none
  documents := .empty
  runs := .empty
  versions := .empty
  drawings := .empty
  workers := .empty

-- ============================================================= requests

/-- What `inspect_upload` returns. -/
structure UploadCheck where
  mimeType : String
  findings : List String

structure UploadRequest where
  organizationId : String
  caseId : String
  filename : String
  data : ByteArray
  /-- drawn for the rows -/
  documentId : String
  runId : String
  now : Timestamp

inductive ParseOp
  | upload (request : UploadRequest)
  | confirm (caseId versionId actorIdentityId : String)
  | claimSelect (worker : String) (now : Timestamp)
  | claimCommit (worker : String)
  | parse (worker : String)
  | number (worker : String)
  | finish (worker versionId : String) (drawingIds : List String) (now : Timestamp)
  /-- any other exception while the run is processed -/
  | interrupt (worker error : String)
  | fail (worker : String) (now : Timestamp)
  /-- the worker ends; what it had not committed is gone -/
  | crash (worker : String)

section Steps

variable {Error Drawing : Type} (readers : Readers Error Drawing)
  (describe : Error → String)
  (inspectUpload : String → ByteArray → Except String UploadCheck)

namespace ParseStore

variable (store : ParseStore Drawing)

-- ============================================================== uploads

/-- `put_object`. -/
def putObject (storageKey : String) (data : ByteArray) : ParseStore Drawing :=
  { store with
    storage := fun key => if key = storageKey then some data else store.storage key }

/-- `upload_document`: the object stays even where the rows do not. -/
def uploadDocument (request : UploadRequest) : ParseStore Drawing :=
  match inspectUpload request.filename request.data with
  | .error _ => store
  | .ok verdict =>
      let sha256 := readers.sha256 request.data
      let storageKey := buildSourceKey request.organizationId request.caseId sha256
        request.filename
      let stored := store.putObject storageKey request.data
      let inserted := do
        let documents ← store.documents.insert? {
          id := request.documentId, organizationId := request.organizationId
          caseId := request.caseId, filename := request.filename
          fileSize := request.data.size, mimeType := verdict.mimeType
          sha256 := sha256, storageKey := storageKey
          securityFindings := verdict.findings, createdAt := request.now }
        let runs ← store.runs.insert? {
          id := request.runId, organizationId := request.organizationId
          caseId := request.caseId, sourceDocumentId := request.documentId
          status := .queued, errorSummary := none, startedAt := none
          finishedAt := none, createdAt := request.now }
        return { stored with documents := documents, runs := runs }
      inserted.getD stored

/-- `confirm_document_version`, of the version. -/
def confirmDocumentVersion (caseId versionId actorIdentityId : String) :
    ParseStore Drawing :=
  { store with
    versions := store.versions.update
      (fun v => v.id = versionId && v.caseId = caseId)
      fun v => { v with
        isConfirmed := true, createdByIdentityId := some actorIdentityId } }

-- =============================================================== claims

/-- A worker has the row of the run locked. -/
def runLocked (runId : String) : Bool :=
  store.workers.rows.any fun w =>
    w.claim.runId = runId && match w.stage with
      | .claiming _ => true
      | _ => false

/-- The queued runs that no transaction has locked, with their documents. -/
def claimable : List (ParseRun × SourceDocument) :=
  (store.runs.rows.filter fun run =>
    run.status = .queued && !store.runLocked run.id).filterMap fun run =>
      (store.documents.find? run.sourceDocumentId).map fun document =>
        (run, document)

/-- `SELECT … ORDER BY pr.created_at ASC LIMIT 1 FOR UPDATE OF pr SKIP
LOCKED`. -/
def claimSelect (worker : String) (now : Timestamp) : ParseStore Drawing :=
  match store.claimable with
  | [] => store
  | first :: rest =>
      let (run, document) := firstBy (fun p => p.1.createdAt) first rest
      let inserted := store.workers.insert? {
        name := worker
        claim := {
          runId := run.id, organizationId := run.organizationId
          caseId := run.caseId, sourceDocumentId := run.sourceDocumentId
          filename := document.filename, mimeType := document.mimeType
          storageKey := document.storageKey }
        stage := .claiming now }
      match inserted with
      | none => store
      | some workers => { store with workers := workers }

def setStage (worker : String) (stage : WorkerStage Drawing) : ParseStore Drawing :=
  { store with
    workers := store.workers.update (fun w => w.name = worker)
      fun w => { w with stage := stage } }

def release (worker : String) : ParseStore Drawing :=
  { store with workers := store.workers.delete fun w => w.name = worker }

def updateRun (runId : String) (f : ParseRun → ParseRun)
    (hf : ∀ r, (f r).id = r.id := by intro r; rfl) : ParseStore Drawing :=
  { store with runs := store.runs.update (fun r => r.id = runId) f hf }

/-- The `UPDATE` of a claim, and its commit. -/
def claimCommit (worker : String) : ParseStore Drawing :=
  match store.workers.find? worker with
  | some { claim := claim, stage := .claiming now, .. } =>
      (store.updateRun claim.runId (.started now)).setStage worker .processing
  | _ => store

-- ============================================================ processing

/-- `get_object` and `parse_bytes`. -/
def parse (worker : String) : ParseStore Drawing :=
  match store.workers.find? worker with
  | some { claim := claim, stage := .processing, .. } =>
      match store.storage claim.storageKey with
      | none => store.setStage worker (.raised
          ("source file not found in storage at " ++ claim.storageKey))
      | some rawBytes =>
          match parseBytes readers rawBytes claim.filename (some claim.mimeType) with
          | .error error => store.setStage worker (.raised (describe error))
          | .ok parsed => store.setStage worker (.parsed parsed)
  | _ => store

/-- `COALESCE(MAX(version_number), 0)` of a case. -/
def lastVersion (caseId : String) : Nat :=
  ((store.versions.rows.filter fun v => v.caseId = caseId).map
    DocumentVersionRow.versionNumber).foldl max 0

/-- The second transaction, its `SELECT`. -/
def number (worker : String) : ParseStore Drawing :=
  match store.workers.find? worker with
  | some { claim := claim, stage := .parsed document, .. } =>
      store.setStage worker (.numbered document (store.lastVersion claim.caseId + 1))
  | _ => store

/-- Its `INSERT`s: a case has each version number once. -/
def insertVersion (claim : ParseClaim) (document : ParsedDocument Drawing)
    (nextVer : Nat) (versionId : String) (drawingIds : List String)
    (now : Timestamp) : Option (ParseStore Drawing) := do
  guard (∀ v ∈ store.versions.rows,
    ¬ (v.caseId = claim.caseId ∧ v.versionNumber = nextVer))
  guard (drawingIds.length = document.drawings.length)
  let versions ← store.versions.insert? {
    id := versionId, organizationId := claim.organizationId
    caseId := claim.caseId, sourceDocumentId := claim.sourceDocumentId
    versionNumber := nextVer, parsedText := document.parsedText
    structureJson := document.paragraphs, sha256 := document.sha256
    isConfirmed := false, createdByIdentityId := none, createdAt := now }
  let drawings ← store.drawings.insertAll?
    ((drawingIds.zip document.drawings).map fun d => {
      id := d.1, organizationId := claim.organizationId, caseId := claim.caseId
      sourceDocumentId := claim.sourceDocumentId, documentVersionId := versionId
      drawing := d.2, createdAt := now })
  return { store with versions := versions, drawings := drawings }

/-- Its inserts, the mark of the run and the commit; where a row is
refused, the transaction is gone. -/
def finish (worker versionId : String) (drawingIds : List String)
    (now : Timestamp) : ParseStore Drawing :=
  match store.workers.find? worker with
  | some { claim := claim, stage := .numbered document nextVer, .. } =>
      match store.insertVersion claim document nextVer versionId drawingIds now with
      | none => store.setStage worker (.raised "IntegrityError")
      | some inserted =>
          (inserted.updateRun claim.runId (.completed now)).release worker
  | _ => store

/-- Any other exception while the run is processed. -/
def interrupt (worker error : String) : ParseStore Drawing :=
  match store.workers.find? worker with
  | some { stage := .claiming _, .. } => store
  | some { stage := .raised _, .. } => store
  | some _ => store.setStage worker (.raised error)
  | none => store

/-- The third transaction. -/
def fail (worker : String) (now : Timestamp) : ParseStore Drawing :=
  match store.workers.find? worker with
  | some { claim := claim, stage := .raised error, .. } =>
      (store.updateRun claim.runId (.failed error now)).release worker
  | _ => store

end ParseStore

/-- The queue after one step. -/
def afterParse (store : ParseStore Drawing) : ParseOp → ParseStore Drawing
  | .upload request => store.uploadDocument readers inspectUpload request
  | .confirm caseId versionId actorIdentityId =>
      store.confirmDocumentVersion caseId versionId actorIdentityId
  | .claimSelect worker now => store.claimSelect worker now
  | .claimCommit worker => store.claimCommit worker
  | .parse worker => store.parse readers describe worker
  | .number worker => store.number worker
  | .finish worker versionId drawingIds now =>
      store.finish worker versionId drawingIds now
  | .interrupt worker error => store.interrupt worker error
  | .fail worker now => store.fail worker now
  | .crash worker => store.release worker

end Steps

end PatentEvidence.Cases
