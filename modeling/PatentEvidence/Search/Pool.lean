/-
The candidates of a case (apps/api/…/search/services.py,
modules/search/scorer.py, adapters/search/base.py and migrations 0006 and
0012).

Searches and imports propose candidates, and a unique constraint on the
organization, the case and the normalized number decides whether a proposal
is a new row or changes some columns of the one there is. Every candidate
gets a triage record with it, which a triage request then rewrites.

A request runs in one transaction, under the lock of its organization: it
is either done as a whole or refused and gone. What it draws and reads (the
ids of new rows, the clock, the strategy in use, the adapter's answer) comes
with it. The sums of `compute_score` are of whole numbers, so a score is a
natural number here. What the database makes of a payload (the text of its
`jsonb`, which it may refuse, and the digest of that) are parameters.
-/
import PatentEvidence.Lib.AsciiJson
import PatentEvidence.Lib.Date
import PatentEvidence.Lib.Pool
import PatentEvidence.Lib.Table
import PatentEvidence.Search.Importer

namespace PatentEvidence.Search

open Text

-- =============================================================== scoring

structure Strategy where
  id : String
  booleanQueryStandard : String
  keywordsMatrix : List (String × List String)
  ipcClasses : List (List (String × String))

variable {ν : Type _} [Casing]

/-- The root terms with a synonym in the text. -/
def keywordMatches (keywordsMatrix : List (String × List String))
    (lowered : String) : Nat :=
  keywordsMatrix.countP fun entry =>
    entry.2.any fun s => occursIn (Casing.lower s) lowered

/-- The loop over the target classes: one of them is in the text. -/
def ipcMatch (lowered : String) :
    List (List (String × String)) → Except SearchError Bool
  | [] => .ok false
  | targetIpc :: rest =>
      match words ((targetIpc.lookup "code").getD "") with
      | [] => .error .indexError
      | code :: _ =>
          let codePrefix := Casing.lower code
          if codePrefix ≠ "" ∧ occursIn codePrefix lowered then .ok true
          else ipcMatch lowered rest

/-- `compute_score`. -/
def computeScore (title abstract : String) (ipc : Option String)
    (keywordsMatrix : List (String × List String))
    (targetIpcClasses : List (List (String × String))) :
    Except SearchError Nat := do
  let titleMatches := keywordMatches keywordsMatrix (Casing.lower title)
  let absMatches := keywordMatches keywordsMatrix (Casing.lower abstract)
  let ipcLower := Casing.lower (ipc.getD "")
  let matched ← (if ipcLower ≠ "" then ipcMatch ipcLower targetIpcClasses
    else .ok false)
  let score := 10 + min (titleMatches * 15) 45 + min (absMatches * 8) 30
    + if matched then 15 else 0
  return min score 100

-- ============================================================= providers

/-- `ProviderRecordSnapshot`, with what its constructor checks; the time is
aware. -/
structure ProviderRecordSnapshot (ν : Type _) [JsonNumber ν] where
  sourceType : String
  sourceIdentifier : String
  sourceUrl : Option String
  retrievedAt : Timestamp
  payloadJson : String
  typed : ¬ Blank sourceType
  identified : ¬ Blank sourceIdentifier
  canonical : ∃ record : List (String × Json ν),
    payloadJson = String.ofList (Json.dumps Json.compact (.obj record))

/-- `SearchResultItem`, with what its constructor checks. -/
structure SearchResultItem (ν : Type _) [JsonNumber ν] where
  publicationNumber : String
  title : String
  abstract : String
  publicationDate : Option String := none
  applicant : Option String := none
  ipcClassification : Option String := none
  sourceType : String := "google_patents"
  rawMetadata : Option (List (String × Json ν)) := none
  providerSnapshot : Option (ProviderRecordSnapshot ν) := none
  sameType : ∀ s ∈ providerSnapshot, s.sourceType = sourceType
  sameIdentifier : ∀ s ∈ providerSnapshot, s.sourceIdentifier = publicationNumber
  sameUrl : ∀ s ∈ providerSnapshot, ∀ m ∈ rawMetadata,
    ∀ url ∈ m.lookup "source_url", url = (s.sourceUrl.elim .null .str)

-- ================================================================== rows

inductive TriageStatus
  | pending
  | included
  | excluded
  deriving DecidableEq

def TriageStatus.text : TriageStatus → String
  | .pending => "pending"
  | .included => "included"
  | .excluded => "excluded"

/-- A row of `search_candidates`. -/
structure SearchCandidateRow (ν : Type _) where
  id : String
  organizationId : String
  caseId : String
  publicationNumber : String
  publicationNumberNormalized : String
  title : String
  abstract : String
  publicationDate : Option String
  applicant : Option String
  ipcClassification : Option String
  sourceType : String
  rawMetadata : List (String × Json ν)
  relevanceScore : Nat
  createdAt : Timestamp

/-- What `uq_search_candidates_tenant_case_pub` compares. -/
structure PoolKey where
  organizationId : String
  caseId : String
  publicationNumberNormalized : String
  deriving DecidableEq

def SearchCandidateRow.poolKey (c : SearchCandidateRow ν) : PoolKey :=
  ⟨c.organizationId, c.caseId, c.publicationNumberNormalized⟩

/-- A row of `candidate_triage_records`. -/
structure TriageRecord where
  id : String
  organizationId : String
  caseId : String
  candidateId : String
  triageStatus : TriageStatus
  exclusionReason : Option String
  notes : Option String
  triagedByIdentityId : String
  triagedAt : Timestamp

inductive JobStatus
  | running
  | completed
  | failed
  deriving DecidableEq

/-- A row of `search_jobs`. -/
structure SearchJobRow where
  id : String
  organizationId : String
  caseId : String
  strategyId : Option String
  sourceType : String
  queryText : String
  status : JobStatus
  resultsCount : Nat
  errorMessage : Option String
  createdAt : Timestamp
  finishedAt : Option Timestamp

/-- A row of `source_result_snapshots`. -/
structure SourceSnapshotRow where
  id : String
  organizationId : String
  caseId : String
  searchJobId : String
  candidateId : String
  sourceType : String
  sourceIdentifier : String
  sourceUrl : Option String
  payload : String
  payloadSha256 : String
  retrievedAt : Timestamp

structure PoolStore (ν : Type _) where
  /-- the cases, each with its organization -/
  cases : List (String × String)
  jobs : Table SearchJobRow.id
  candidates : Table (@SearchCandidateRow.id ν)
  snapshots : Table SourceSnapshotRow.id
  triage : Table TriageRecord.id

def PoolStore.empty : PoolStore ν where
  cases := []
  jobs := .empty
  candidates := .empty
  snapshots := .empty
  triage := .empty

-- ============================================================= requests

/-- The ids drawn for the rows of one item. -/
structure DrawnIds where
  candidateId : String
  snapshotId : String
  triageId : String

structure SearchRequest (ν : Type _) [JsonNumber ν] where
  organizationId : String
  caseId : String
  /-- what `get_active_strategy` returned -/
  strategy : Option Strategy
  /-- what the adapter returned, or the text of what it raised -/
  answer : Except String (List (SearchResultItem ν))
  actorIdentityId : String
  sourceType : String
  jobId : String
  drawn : Nat → DrawnIds
  startedAt : Timestamp
  resultsReceivedAt : Timestamp
  finishedAt : Timestamp

structure ImportRequest where
  organizationId : String
  caseId : String
  rawContent : String
  actorIdentityId : String
  strategy : Option Strategy
  drawn : Nat → DrawnIds
  now : Timestamp

structure TriageRequest where
  organizationId : String
  caseId : String
  candidateId : String
  triageStatus : String
  exclusionReason : Option String
  notes : Option String
  actorIdentityId : String
  drawnId : String
  now : Timestamp

inductive PoolRequest (ν : Type _) [JsonNumber ν]
  | openCase (organizationId caseId : String)
  | search (request : SearchRequest ν)
  | importCnipr (request : ImportRequest)
  | triage (request : TriageRequest)

/-- A statement, which a constraint may refuse. -/
def execute {α : Type _} (result : Option α) : Except SearchError α :=
  result.elim (.error .integrityError) .ok

/-- `VARCHAR(n)`. -/
def fits (n : Nat) (s : String) : Bool := s.length ≤ n

namespace PoolStore

variable (store : PoolStore ν)

-- =========================================================== statements

/-- `INSERT INTO search_candidates … ON CONFLICT … DO UPDATE SET … RETURNING
id`. -/
def putCandidate
    (merge : SearchCandidateRow ν → SearchCandidateRow ν → SearchCandidateRow ν)
    (hmerge : ∀ x r, (merge x r).id = r.id) (row : SearchCandidateRow ν) :
    Option (PoolStore ν × String) := do
  guard (fits 128 row.publicationNumber && fits 128 row.publicationNumberNormalized
    && row.publicationDate.all (fits 32) && fits 32 row.sourceType)
  guard (row.caseId ∈ store.cases.map Prod.snd)
  let candidates ← store.candidates.upsert? SearchCandidateRow.poolKey merge hmerge row
  let put ← candidates.rows.find? fun c => c.poolKey = row.poolKey
  return ({ store with candidates := candidates }, put.id)

/-- `INSERT INTO candidate_triage_records … ON CONFLICT (candidate_id) …`. -/
def putTriage (merge : TriageRecord → TriageRecord → TriageRecord)
    (hmerge : ∀ x r, (merge x r).id = r.id) (record : TriageRecord) :
    Option (PoolStore ν) := do
  guard (record.exclusionReason.all (fits 128))
  guard (record.candidateId ∈ store.candidates.rows.map SearchCandidateRow.id)
  let triage ← store.triage.upsert? TriageRecord.candidateId merge hmerge record
  return { store with triage := triage }

/-- The first triage record of a candidate, `ON CONFLICT … DO NOTHING`. -/
def initTriage (organizationId caseId candidateId actorIdentityId id : String)
    (now : Timestamp) : Option (PoolStore ν) :=
  store.putTriage (fun _ r => r) (fun _ _ => rfl) {
    id := id, organizationId := organizationId, caseId := caseId
    candidateId := candidateId, triageStatus := .pending
    exclusionReason := none, notes := none
    triagedByIdentityId := actorIdentityId, triagedAt := now }

/-- `INSERT INTO source_result_snapshots`: its case, job and candidate are
of one organization and case. -/
def addSnapshot (row : SourceSnapshotRow) : Option (PoolStore ν) := do
  guard (fits 32 row.sourceType && fits 256 row.sourceIdentifier)
  guard (store.cases.any fun c => c.1 = row.organizationId && c.2 = row.caseId)
  guard (store.jobs.rows.any fun j => j.id = row.searchJobId
    && j.organizationId = row.organizationId && j.caseId = row.caseId)
  guard (store.candidates.rows.any fun c => c.id = row.candidateId
    && c.organizationId = row.organizationId && c.caseId = row.caseId)
  let snapshots ← store.snapshots.insert? row
  return { store with snapshots := snapshots }

-- ============================================================== searches

section Database

variable [JsonNumber ν] (jsonbText : String → Option String)
  (sha256 : String → String)

/-- `INSERT INTO search_jobs`. -/
def startJob (request : SearchRequest ν) (strategy : Strategy) :
    Option (PoolStore ν) := do
  guard (fits 32 request.sourceType)
  guard (request.caseId ∈ store.cases.map Prod.snd)
  let jobs ← store.jobs.insert? {
    id := request.jobId, organizationId := request.organizationId
    caseId := request.caseId
    strategyId := if strategy.id = "" then none else some strategy.id
    sourceType := request.sourceType
    queryText := strategy.booleanQueryStandard, status := .running
    resultsCount := 0, errorMessage := none, createdAt := request.startedAt
    finishedAt := none }
  return { store with jobs := jobs }

/-- The row a search proposes for an item. -/
def searchRow (request : SearchRequest ν) (item : SearchResultItem ν)
    (id : String) (score : Nat) : SearchCandidateRow ν where
  id := id
  organizationId := request.organizationId
  caseId := request.caseId
  publicationNumber := item.publicationNumber
  publicationNumberNormalized := normalizePubNumber item.publicationNumber
  title := item.title
  abstract := item.abstract
  publicationDate := item.publicationDate
  applicant := item.applicant
  ipcClassification := item.ipcClassification
  sourceType := item.sourceType
  rawMetadata := item.rawMetadata.getD []
  relevanceScore := score
  createdAt := request.resultsReceivedAt

/-- `DO UPDATE SET relevance_score = …, raw_metadata = …`. -/
def rescored (x r : SearchCandidateRow ν) : SearchCandidateRow ν :=
  { r with relevanceScore := x.relevanceScore, rawMetadata := x.rawMetadata }

/-- The snapshot a search stores for an item that has one; `payload` is the
text of the stored `jsonb`. -/
def snapshotRow (request : SearchRequest ν) (snapshot : ProviderRecordSnapshot ν)
    (id candidateId payload : String) : SourceSnapshotRow where
  id := id
  organizationId := request.organizationId
  caseId := request.caseId
  searchJobId := request.jobId
  candidateId := candidateId
  sourceType := snapshot.sourceType
  sourceIdentifier := snapshot.sourceIdentifier
  sourceUrl := snapshot.sourceUrl
  payload := payload
  payloadSha256 := sha256 payload
  retrievedAt := snapshot.retrievedAt

/-- `if item.provider_snapshot is not None`. -/
def addItemSnapshot (request : SearchRequest ν) (item : SearchResultItem ν)
    (snapshotId candidateId : String) : Except SearchError (PoolStore ν) :=
  match item.providerSnapshot with
  | none => .ok store
  | some snapshot => execute do
      let payload ← jsonbText snapshot.payloadJson
      store.addSnapshot
        (snapshotRow sha256 request snapshot snapshotId candidateId payload)

/-- One turn of the loop of `execute_public_search`. -/
def addSearchItem (request : SearchRequest ν) (strategy : Strategy)
    (item : SearchResultItem ν × Nat) : Except SearchError (PoolStore ν) := do
  let (item, i) := item
  let ids := request.drawn i
  let score ← computeScore item.title item.abstract item.ipcClassification
    strategy.keywordsMatrix strategy.ipcClasses
  let (store, candidateId) ← execute (store.putCandidate rescored
    (fun _ _ => rfl) (searchRow request item ids.candidateId score))
  let store ← store.addItemSnapshot jsonbText sha256 request item ids.snapshotId
    candidateId
  execute (store.initTriage request.organizationId request.caseId candidateId
    request.actorIdentityId ids.triageId request.resultsReceivedAt)

/-- `UPDATE search_jobs SET status = 'completed', …`. -/
def finishJob (jobId : String) (count : Nat) (now : Timestamp) : PoolStore ν :=
  { store with
    jobs := store.jobs.update (fun j => j.id = jobId) fun j => { j with
      status := .completed, resultsCount := count, finishedAt := some now } }

/-- `execute_public_search`: an adapter that raises refuses the request, and
with it the job that was marked as failed. -/
def executePublicSearch (request : SearchRequest ν) :
    Except SearchError (PoolStore ν) := do
  match request.strategy with
  | none => .error .attributeError
  | some strategy =>
      let started ← execute (store.startJob request strategy)
      match request.answer with
      | .error raised => .error (.http 502 ("search_adapter_failed: " ++ raised))
      | .ok items =>
          let added ← items.zipIdx.foldlM
            (fun store item => store.addSearchItem jsonbText sha256 request strategy item)
            started
          return added.finishJob request.jobId items.length request.finishedAt

-- =============================================================== imports

/-- What an import reads: a table, or else lines of text. -/
def importedCandidates (rawContent : String) :
    Except SearchError (List (ImportedCandidate ν)) := do
  match ← importFromCsv rawContent with
  | [] => importFromText rawContent
  | candidates => return candidates

/-- The row an import proposes for a candidate. -/
def importRow (request : ImportRequest) (item : ImportedCandidate ν)
    (id : String) (score : Nat) : SearchCandidateRow ν where
  id := id
  organizationId := request.organizationId
  caseId := request.caseId
  publicationNumber := item.publicationNumber
  publicationNumberNormalized := item.publicationNumberNormalized
  title := item.title
  abstract := item.abstract
  publicationDate := item.publicationDate
  applicant := item.applicant
  ipcClassification := item.ipcClassification
  sourceType := item.sourceType
  rawMetadata := item.rawMetadata.getD []
  relevanceScore := score
  createdAt := request.now

/-- `DO UPDATE SET relevance_score = …, title = …, abstract = …`. -/
def retitled (x r : SearchCandidateRow ν) : SearchCandidateRow ν :=
  { r with
    relevanceScore := x.relevanceScore, title := x.title, abstract := x.abstract }

/-- One turn of the loop of `import_cnipr_candidates`. -/
def addImportItem (request : ImportRequest)
    (item : ImportedCandidate ν × Nat) : Except SearchError (PoolStore ν) := do
  let (item, i) := item
  let ids := request.drawn i
  let score ← computeScore item.title item.abstract item.ipcClassification
    (request.strategy.elim [] Strategy.keywordsMatrix)
    (request.strategy.elim [] Strategy.ipcClasses)
  let (store, candidateId) ← execute (store.putCandidate retitled
    (fun _ _ => rfl) (importRow request item ids.candidateId score))
  execute (store.initTriage request.organizationId request.caseId candidateId
    request.actorIdentityId ids.triageId request.now)

/-- `import_cnipr_candidates`. -/
def importCniprCandidates (request : ImportRequest) :
    Except SearchError (PoolStore ν) := do
  let candidates ← importedCandidates request.rawContent
  if candidates.isEmpty then
    .error (.http 422 "no_valid_patents_found_in_upload")
  else candidates.zipIdx.foldlM (fun store item => store.addImportItem request item) store

end Database

-- ================================================================ triage

/-- One entry of `list_candidates`. -/
structure ListedCandidate (ν : Type _) where
  candidate : SearchCandidateRow ν
  triageStatus : TriageStatus
  exclusionReason : Option String
  notes : Option String
  triagedAt : Option Timestamp

/-- A candidate with its triage records, `LEFT JOIN`. -/
def listed (c : SearchCandidateRow ν) : List (ListedCandidate ν) :=
  match store.triage.rows.filter fun t => t.candidateId = c.id with
  | [] => [⟨c, .pending, none, none, none⟩]
  | records => records.map fun t =>
      ⟨c, t.triageStatus, t.exclusionReason, t.notes, some t.triagedAt⟩

/-- `ORDER BY c.relevance_score DESC, c.created_at DESC`. -/
def before (a b : ListedCandidate ν) : Prop :=
  b.candidate.relevanceScore < a.candidate.relevanceScore
    ∨ b.candidate.relevanceScore = a.candidate.relevanceScore
      ∧ b.candidate.createdAt ≤ a.candidate.createdAt

instance : DecidableRel (before (ν := ν)) := fun a b =>
  inferInstanceAs (Decidable (b.candidate.relevanceScore < a.candidate.relevanceScore
    ∨ b.candidate.relevanceScore = a.candidate.relevanceScore
      ∧ b.candidate.createdAt ≤ a.candidate.createdAt))

/-- `if triage_status and triage_status != "all"`, and then of that
status. -/
def hasStatus (triageStatus : Option String) (l : ListedCandidate ν) : Bool :=
  triageStatus.all fun status =>
    status = "" || status = "all" || status = l.triageStatus.text

/-- `list_candidates`. -/
def listCandidates (organizationId caseId : String)
    (triageStatus : Option String) : List (ListedCandidate ν) :=
  let joined := (store.candidates.rows.filter fun c =>
    c.caseId = caseId && c.organizationId = organizationId).flatMap store.listed
  (joined.filter (hasStatus triageStatus)).insertionSort before

/-- `triage_status not in ("pending", "included", "excluded")`. -/
def triageStatusOf (triageStatus : String) : Option TriageStatus :=
  [TriageStatus.pending, .included, .excluded].find? (·.text = triageStatus)

/-- `DO UPDATE SET triage_status = …`: everything but the ids. -/
def retriaged (x r : TriageRecord) : TriageRecord :=
  { r with
    triageStatus := x.triageStatus, exclusionReason := x.exclusionReason
    notes := x.notes, triagedByIdentityId := x.triagedByIdentityId
    triagedAt := x.triagedAt }

/-- `update_triage`: a candidate that the listing of the case does not have
refuses the request. -/
def updateTriage (request : TriageRequest) :
    Except SearchError (PoolStore ν × ListedCandidate ν) := do
  match triageStatusOf request.triageStatus with
  | none => .error (.http 422 "invalid_triage_status")
  | some status =>
      let after ← execute (store.putTriage retriaged (fun _ _ => rfl) {
        id := request.drawnId, organizationId := request.organizationId
        caseId := request.caseId, candidateId := request.candidateId
        triageStatus := status, exclusionReason := request.exclusionReason
        notes := request.notes
        triagedByIdentityId := request.actorIdentityId
        triagedAt := request.now })
      match (after.listCandidates request.organizationId request.caseId none).find?
          fun l => l.candidate.id = request.candidateId with
      | none => .error (.http 404 "candidate_not_found")
      | some listed => return (after, listed)

/-- A new case. -/
def openCase (organizationId caseId : String) : Except SearchError (PoolStore ν) :=
  if caseId ∈ store.cases.map Prod.snd then .error .integrityError
  else .ok { store with cases := store.cases ++ [(organizationId, caseId)] }

end PoolStore

section Steps

variable [JsonNumber ν] (jsonbText : String → Option String)
  (sha256 : String → String)

/-- What a request leaves, where it is not refused. -/
def PoolStore.handle (store : PoolStore ν) :
    PoolRequest ν → Except SearchError (PoolStore ν)
  | .openCase organizationId caseId => store.openCase organizationId caseId
  | .search request => store.executePublicSearch jsonbText sha256 request
  | .importCnipr request => store.importCniprCandidates request
  | .triage request => (store.updateTriage request).map Prod.fst

/-- The tables after a request. -/
def afterPool : PoolStore ν → PoolRequest ν → PoolStore ν :=
  Runs.after (PoolStore.handle jsonbText sha256)

end Steps

end PatentEvidence.Search
