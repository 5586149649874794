/-
Submitting and deciding assessment versions
(apps/api/…/assessment/services.py).

Both entry points look the version up, read its decision sequence back
from the append-only review table, ask the engine, and insert the record
they get. The versions themselves never change here, so they are a
parameter; the state is the review table. A request comes with what its
environment decides: the clock reading, the row's `created_at` default
and whether the transaction commits.
-/
import Mathlib.Data.List.Sort
import Mathlib.Data.Prod.Lex
import PatentEvidence.Assessment.Approval
import PatentEvidence.Lib.Run

namespace PatentEvidence.Assessment

-- =============================================================== records

/-- The columns of a version these entry points read. -/
structure VersionRecord where
  id : String
  organizationId : String
  caseId : String
  versionNumber : Nat
  payloadSha256 : String
  blockers : List String
  deriving DecidableEq

/-- The versions of the database; ids are primary keys. -/
structure VersionTable where
  rows : List VersionRecord
  nodup : (rows.map VersionRecord.id).Nodup

/-- A row of `assessment_version_reviews`. -/
structure ReviewRow where
  organizationId : String
  caseId : String
  record : DecisionRecord
  createdAt : Instant
  deriving DecidableEq

abbrev ReviewTable := List ReviewRow

inductive DecisionOp
  | submit
  | decide (decision comments : String) (acceptsInsufficientEvidence : Bool)

structure DecisionRequest where
  organizationId : String
  caseId : String
  versionNumber : Nat
  actorIdentityId : Option String
  op : DecisionOp

/-- A request and what its environment decides. -/
structure DecisionEvent where
  request : DecisionRequest
  now : Instant
  createdAt : Instant
  commits : Bool

inductive ServiceError
  | http (status : Nat) (detail : String)
  | approval (error : ApprovalError)
  | database

-- ============================================================== queries

/-- `get_version`. -/
def VersionTable.getVersion (versions : VersionTable)
    (request : DecisionRequest) : Except ServiceError VersionRecord :=
  match versions.rows.find? fun v =>
      v.organizationId = request.organizationId ∧ v.caseId = request.caseId
        ∧ v.versionNumber = request.versionNumber with
  | some version => .ok version
  | none => .error (.http 404 "assessment_version_not_found")

/-- The version's rows. -/
def ReviewTable.ofVersion (log : ReviewTable) (version : VersionRecord) :
    List ReviewRow :=
  log.filter fun row => row.organizationId = version.organizationId
    ∧ row.record.versionId = version.id

/-- `ORDER BY decided_at, created_at`. -/
def reviewOrder (a b : ReviewRow) : Prop :=
  toLex (a.record.decidedAt, a.createdAt)
    ≤ toLex (b.record.decidedAt, b.createdAt)

instance : DecidableRel reviewOrder := fun a b =>
  inferInstanceAs (Decidable (toLex (a.record.decidedAt, a.createdAt)
    ≤ toLex (b.record.decidedAt, b.createdAt)))

/-- `_decision_sequence`. -/
def decisionSequence (log : ReviewTable) (version : VersionRecord) :
    List Decision :=
  ((log.ofVersion version).insertionSort reviewOrder).map
    fun row => row.record.decision

-- ============================================================= services

section Services

variable (sha256 : String → String) (versions : VersionTable)

def VersionRecord.facts (version : VersionRecord) : VersionFacts :=
  { versionId := version.id, versionNumber := version.versionNumber
    payloadSha256 := version.payloadSha256 }

/-- An engine refusal as the service passes it on. -/
def liftApproval {α : Type} : Except ApprovalError α → Except ServiceError α
  | .ok a => .ok a
  | .error e => .error (.approval e)

/-- The record `submit_version` or `decide_version` is about to insert. -/
def decisionRecord (log : ReviewTable) (event : DecisionEvent)
    (version : VersionRecord) : Except ServiceError DecisionRecord :=
  let current := deriveStatus (decisionSequence log version)
  let actor := event.request.actorIdentityId
  match event.request.op with
  | .submit => do
      liftApproval (assertTransition current .submitted)
      return generateSubmissionRecord sha256 version.facts actor event.now
  | .decide decision comments accepts =>
      if decision = "approved" then
        liftApproval (approve sha256 version.facts current version.blockers
          actor comments accepts event.now)
      else if decision = "rejected" then
        liftApproval (reject sha256 version.facts current actor comments
          event.now)
      else if decision = "changes_requested" then
        liftApproval (requestChanges sha256 version.facts current actor comments
          event.now)
      else .error (.http 422 "unsupported_decision")

/-- `_insert_decision`, committed or not. -/
def insertDecision (log : ReviewTable) (event : DecisionEvent)
    (record : DecisionRecord) : Except ServiceError ReviewTable :=
  if event.commits then
    .ok (log ++ [{ organizationId := event.request.organizationId
                   caseId := event.request.caseId
                   record, createdAt := event.createdAt }])
  else .error .database

/-- One request: the table it leaves, or why it was refused. -/
def serve (log : ReviewTable) (event : DecisionEvent) :
    Except ServiceError ReviewTable := do
  let version ← versions.getVersion event.request
  let record ← decisionRecord sha256 log event version
  insertDecision log event record

/-- The review table after one request. -/
def afterRequest (log : ReviewTable) (event : DecisionEvent) : ReviewTable :=
  match serve sha256 versions log event with
  | .ok log => log
  | .error _ => log

end Services

end PatentEvidence.Assessment
