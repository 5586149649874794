/-
Review rounds of a case (apps/api/…/review/services.py, api.py).

Submitting is one transaction. Deciding is two: the first reads the latest
round's submission, the second decides the submission the first has read.
The second transactions, and the submissions, run under the
organization's lock, so each is one step here; a first one takes no lock
and is a step of its own, whose result its request keeps.

The state is one case's rows. Statuses are the values the service writes.
-/
import Mathlib.Logic.Function.Basic
import PatentEvidence.Cases.Store
import PatentEvidence.Lib.Fallible
import PatentEvidence.Lib.Grouping

namespace PatentEvidence.Review

open Cases (Env Refusal orDatabase)
open Grouping

-- ============================================================== records

/-- `status` of a submission: pending, or as decided. -/
inductive ReviewStatus
  | pending
  | approved
  | changesRequested
  | rejected
  deriving DecidableEq

structure EvidenceSnapshot where
  id : String
  rootSha256 : String
  createdAt : Instant

structure AnalysisReport where
  id : String
  createdAt : Instant

structure ReviewSubmission where
  id : String
  roundNumber : Nat
  evidenceSnapshotId : Option String
  reportId : Option String
  submitterIdentityId : String
  submitterNotes : String
  status : ReviewStatus
  createdAt : Instant
  updatedAt : Instant

structure ItemizedFeedbackItem where
  featureId : String
  featureCode : String
  comment : String
  suggestedJudgment : Option String

structure ReviewDecision where
  id : String
  reviewSubmissionId : String
  reviewerIdentityId : String
  decision : ReviewStatus
  overallComments : String
  itemizedFeedback : List ItemizedFeedbackItem
  isSelfAudit : Bool
  decisionSignature : String
  createdAt : Instant

/-- The rows of one case; `reading` is what each decide request has read
and not yet decided. -/
structure ReviewStore where
  caseId : String
  status : String
  updatedAt : Instant
  snapshots : List EvidenceSnapshot
  reports : List AnalysisReport
  submissions : Table ReviewSubmission.id
  decisions : Table ReviewDecision.id
  reading : String → Option String

-- ============================================================= requests

structure ReviewDecideBody where
  decision : String
  overallComments : String := ""
  itemizedFeedback : List ItemizedFeedbackItem := []
  isSelfAudit : Bool := false

inductive ReviewOp
  | submit (submitterNotes : String)
  /-- the first transaction of a decide request -/
  | read (request : String)
  /-- and its second -/
  | decide (request : String) (body : ReviewDecideBody)

variable (sha256 : String → String)

namespace ReviewStore

variable (store : ReviewStore)

/-- `ORDER BY created_at DESC LIMIT 1`, of the snapshots. -/
def latestSnapshot : Option EvidenceSnapshot :=
  match store.snapshots with
  | [] => none
  | s :: ss => some (firstBy (fun s => OrderDual.toDual s.createdAt) s ss)

/-- And of the reports. -/
def latestReport : Option AnalysisReport :=
  match store.reports with
  | [] => none
  | r :: rs => some (firstBy (fun r => OrderDual.toDual r.createdAt) r rs)

/-- `MAX(round_number)`, 0 where there is none. -/
def lastRound : Nat :=
  (store.submissions.rows.map ReviewSubmission.roundNumber).foldl max 0

/-- `submit_case_for_review`. -/
def submitCaseForReview (env : Env) (submitterNotes : String) :
    Except Refusal ReviewStore := do
  let submissions ← orDatabase (store.submissions.insert? {
    id := env.uuids 0
    roundNumber := store.lastRound + 1
    evidenceSnapshotId := store.latestSnapshot.map EvidenceSnapshot.id
    reportId := store.latestReport.map AnalysisReport.id
    submitterIdentityId := env.actorIdentityId
    submitterNotes := submitterNotes
    status := .pending
    createdAt := env.now
    updatedAt := env.now })
  return { store with
    submissions := submissions, status := "in_review", updatedAt := env.now }

/-- `get_current_review`: the submission of the latest round. -/
def currentReview : Option ReviewSubmission :=
  match store.submissions.rows with
  | [] => none
  | s :: ss => some (firstBy (fun s => OrderDual.toDual s.roundNumber) s ss)

/-- The first transaction of `record_case_review_decision`. -/
def readCurrent (request : String) : Except Refusal ReviewStore :=
  match store.currentReview with
  | none => .error (.http 404 "no_active_review_submission")
  | some current =>
      .ok { store with
        reading := Function.update store.reading request (some current.id) }

/-- The decisions a body may ask for. -/
def decisionOf (decision : String) : Option ReviewStatus :=
  if decision = "approved" then some .approved
  else if decision = "changes_requested" then some .changesRequested
  else if decision = "rejected" then some .rejected
  else none

/-- `new_case_status`. -/
def newCaseStatus : ReviewStatus → String
  | .approved => "approved"
  | .changesRequested => "changes_requested"
  | _ => "draft"

/-- `generate_decision_signature`. -/
def decisionSignature (submissionId caseId reviewerIdentityId decision
    rootSha256 decidedAt : String) : String :=
  sha256 ("submission:" ++ submissionId ++ "|case:" ++ caseId
    ++ "|reviewer:" ++ reviewerIdentityId ++ "|decision:" ++ decision
    ++ "|merkle_root:" ++ rootSha256 ++ "|timestamp:" ++ decidedAt)

/-- The root digest of a submission's snapshot; 64 zeros where there is
none. -/
def rootSha256Of (submission : ReviewSubmission) : String :=
  let found := submission.evidenceSnapshotId.bind fun id =>
    store.snapshots.find? fun s => s.id = id
  match found with
  | some snapshot =>
      if snapshot.rootSha256 ≠ "" then snapshot.rootSha256
      else String.ofList (List.replicate 64 '0')
  | none => String.ofList (List.replicate 64 '0')

/-- `record_review_decision`. -/
def recordReviewDecision (env : Env) (submissionId : String)
    (body : ReviewDecideBody) : Except Refusal ReviewStore :=
  match decisionOf body.decision with
  | none => .error (.http 422 "invalid_decision_type")
  | some decision =>
      match store.submissions.find? submissionId with
      | none => .error (.http 404 "review_submission_not_found")
      | some submission => do
          let decisions ← orDatabase (store.decisions.insert? {
            id := env.uuids 0
            reviewSubmissionId := submissionId
            reviewerIdentityId := env.actorIdentityId
            decision := decision
            overallComments := body.overallComments
            itemizedFeedback := body.itemizedFeedback
            isSelfAudit := body.isSelfAudit
              || submission.submitterIdentityId = env.actorIdentityId
            decisionSignature := decisionSignature sha256 submissionId
              store.caseId env.actorIdentityId body.decision
              (store.rootSha256Of submission) env.now.isoformat
            createdAt := env.now })
          return { store with
            decisions := decisions
            submissions := store.submissions.update (fun s => s.id = submissionId)
              fun s => { s with status := decision, updatedAt := env.now }
            status := newCaseStatus decision
            updatedAt := env.now }

/-- The second transaction of `record_case_review_decision`, of a request
that has read. -/
def decideRead (env : Env) (request : String) (body : ReviewDecideBody) :
    Except Refusal ReviewStore :=
  match store.reading request with
  | none => .error (.http 404 "no_active_review_submission")
  | some submissionId => do
      let store ← store.recordReviewDecision sha256 env submissionId body
      return { store with
        reading := Function.update store.reading request none }

/-- What a step does, up to its commit. -/
def execute (env : Env) : ReviewOp → Except Refusal ReviewStore
  | .submit submitterNotes => store.submitCaseForReview env submitterNotes
  | .read request => store.readCurrent request
  | .decide request body => store.decideRead sha256 env request body

/-- One transaction: it commits or leaves nothing. -/
def serve (event : ReviewOp × Env) : Except Refusal ReviewStore := do
  let next ← store.execute sha256 event.2 event.1
  if event.2.commits then return next else throw .database

end ReviewStore

/-- The case after one transaction. -/
def afterReview (store : ReviewStore) (event : ReviewOp × Env) : ReviewStore :=
  Fallible.settle store (store.serve sha256 event)

end PatentEvidence.Review
