/-
The approval state machine of one assessment version
(modules/assessment/approval.py).

Status is never stored: `deriveStatus` reads it off the last decision of
the version's append-only log. The engine checks a transition against
that status and builds the record of the decision; the digest in a
record's signature is a parameter.
-/
import PatentEvidence.Lib.Date
import PatentEvidence.Lib.Text

namespace PatentEvidence.Assessment

open Text

inductive VersionStatus
  | draft
  | submitted
  | approved
  | rejected
  deriving DecidableEq

def VersionStatus.value : VersionStatus → String
  | .draft => "draft"
  | .submitted => "submitted"
  | .approved => "approved"
  | .rejected => "rejected"

/-- What a log record can say. -/
inductive Decision
  | submitted
  | approved
  | changesRequested
  | rejected
  deriving DecidableEq

def Decision.value : Decision → String
  | .submitted => "submitted"
  | .approved => "approved"
  | .changesRequested => "changes_requested"
  | .rejected => "rejected"

/-- `TERMINAL_STATUSES`. -/
def VersionStatus.terminal (status : VersionStatus) : Bool :=
  status == .approved || status == .rejected

/-- `ALLOWED_TRANSITIONS`. -/
def allowedTransitions : VersionStatus → List VersionStatus
  | .draft => [.submitted]
  | .submitted => [.approved, .rejected, .draft]
  | _ => []

/-- `derive_status`. -/
def deriveStatus (decisions : List Decision) : VersionStatus :=
  match decisions.getLast? with
  | none => .draft
  | some .changesRequested => .draft
  | some .approved => .approved
  | some .rejected => .rejected
  | some .submitted => .submitted

/-- `AssessmentApprovalError`. -/
structure ApprovalError where
  code : String
  message : String
  deriving DecidableEq

structure DecisionRecord where
  versionId : String
  versionNumber : Nat
  payloadSha256 : String
  decision : Decision
  reviewerIdentityId : Option String
  comments : String
  openBlockers : List String
  acceptsInsufficientEvidence : Bool
  decisionSignature : String
  decidedAt : Instant
  deriving DecidableEq

/-- `can_transit`. -/
def canTransit (current target : VersionStatus) : Bool :=
  target ∈ allowedTransitions current

/-- `assert_transition`. -/
def assertTransition (current target : VersionStatus) :
    Except ApprovalError Unit :=
  if current.terminal then
    .error {
      code := "version_frozen"
      message := "评估版本已处于终态 " ++ current.value
        ++ "，不可再变更；修订请生成新版本。" }
  else if !canTransit current target then
    .error {
      code := "invalid_transition"
      message := "不允许的状态流转：" ++ current.value ++ " -> " ++ target.value }
  else .ok ()

/-- What a decision says about the version it is on. -/
structure VersionFacts where
  versionId : String
  versionNumber : Nat
  payloadSha256 : String

/-- The text `generate_decision_signature` digests. -/
def signaturePreimage (facts : VersionFacts) (decision : Decision)
    (reviewerIdentityId : Option String) (decidedAt : String) : String :=
  "assessment_version:" ++ facts.versionId ++ "|version:"
    ++ toString facts.versionNumber ++ "|payload_sha256:" ++ facts.payloadSha256
    ++ "|decision:" ++ decision.value ++ "|reviewer:"
    ++ reviewerIdentityId.getD "None" ++ "|timestamp:" ++ decidedAt

section Engine

variable (sha256 : String → String)

/-- `generate_decision_signature`. -/
def generateDecisionSignature (facts : VersionFacts) (decision : Decision)
    (reviewerIdentityId : Option String) (decidedAt : String) : String :=
  sha256 (signaturePreimage facts decision reviewerIdentityId decidedAt)

/-- A record as all four engine methods build it. -/
def signedRecord (facts : VersionFacts) (decision : Decision)
    (reviewerIdentityId : Option String) (comments : String)
    (openBlockers : List String) (acceptsInsufficientEvidence : Bool)
    (decidedAt : Instant) : DecisionRecord :=
  { versionId := facts.versionId
    versionNumber := facts.versionNumber
    payloadSha256 := facts.payloadSha256
    decision, reviewerIdentityId, comments, openBlockers
    acceptsInsufficientEvidence
    decisionSignature := generateDecisionSignature sha256 facts decision
      reviewerIdentityId decidedAt.isoformat
    decidedAt }

/-- `generate_submission_record`. -/
def generateSubmissionRecord (facts : VersionFacts)
    (submitterIdentityId : Option String) (submittedAt : Instant) :
    DecisionRecord :=
  signedRecord sha256 facts .submitted submitterIdentityId "" [] false
    submittedAt

/-- `approve`. -/
def approve (facts : VersionFacts) (currentStatus : VersionStatus)
    (blockers : List String) (reviewerIdentityId : Option String)
    (comments : String) (acceptsInsufficientEvidence : Bool)
    (decidedAt : Instant) : Except ApprovalError DecisionRecord := do
  assertTransition currentStatus .approved
  let openBlockers := blockers.filter fun item => decide (¬ Blank item)
  if openBlockers ≠ [] ∧ acceptsInsufficientEvidence = false then
    .error {
      code := "blockers_open"
      message := "该评估版本存在未解决的阻塞项，不得批准："
        ++ join "；" openBlockers
        ++ "。如确需以「证据不足」作为结论，须显式确认并写明理由。" }
  else if openBlockers ≠ [] ∧ acceptsInsufficientEvidence = true
      ∧ Blank comments then
    .error {
      code := "acceptance_reason_required"
      message := "以「证据不足」结论批准时必须写明理由。" }
  else
    .ok (signedRecord sha256 facts .approved reviewerIdentityId comments
      openBlockers acceptsInsufficientEvidence decidedAt)

/-- `reject`. -/
def reject (facts : VersionFacts) (currentStatus : VersionStatus)
    (reviewerIdentityId : Option String) (comments : String)
    (decidedAt : Instant) : Except ApprovalError DecisionRecord := do
  assertTransition currentStatus .rejected
  .ok (signedRecord sha256 facts .rejected reviewerIdentityId comments [] false
    decidedAt)

/-- `request_changes`. -/
def requestChanges (facts : VersionFacts) (currentStatus : VersionStatus)
    (reviewerIdentityId : Option String) (comments : String)
    (decidedAt : Instant) : Except ApprovalError DecisionRecord := do
  assertTransition currentStatus .draft
  .ok (signedRecord sha256 facts .changesRequested reviewerIdentityId comments
    [] false decidedAt)

end Engine

end PatentEvidence.Assessment
