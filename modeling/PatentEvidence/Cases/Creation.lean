/-
The creation of cases under an organization's quota
(apps/api/…/cases/services.py `create_case`, behind
organization/access.py `OrganizationAccess.mutation`).

A request is one transaction of several statements, each a step here, and
statements of other requests come between them. What it has done by then
is in its `CaseCreation`; its row is in `cases` from the commit on. The
organization's authority lock is taken first and held to the end, by these
requests and by those that administer the organization. `create_case` reads
its clock before it asks for the lock, which it has by then, so `now` is
whatever the clock says, in any order.

The quota is written when the organization is provisioned, and nothing
writes it afterwards.
-/
import PatentEvidence.Lib.Locks
import PatentEvidence.Lib.Text
import PatentEvidence.Organization.Invitations

namespace PatentEvidence.Cases

open Organization

-- ================================================================= rows

/-- `organization_plan_quotas`, with the checks of its columns. -/
structure OrganizationPlanQuota where
  monthlyCaseAllowance : Int
  currentPeriodStart : Timestamp
  currentPeriodEnd : Timestamp
  nonneg : 0 ≤ monthlyCaseAllowance
  ordered : currentPeriodStart < currentPeriodEnd

/-- A row of `cases`. -/
structure CaseRow where
  id : String
  caseNumber : String
  title : String
  technicalField : String
  targetJurisdiction : String
  status : String
  createdByIdentityId : String
  createdAt : Timestamp
  updatedAt : Timestamp
  deriving DecidableEq

structure CaseCreateBody where
  caseNumber : String
  title : String
  technicalField : String
  targetJurisdiction : String := "CN"
  deriving DecidableEq

/-- The lengths the request model accepts. -/
def CaseCreateBody.accepted (body : CaseCreateBody) : Bool :=
  let within (least most : Nat) (s : String) : Bool :=
    least ≤ s.length && s.length ≤ most
  within 1 128 body.caseNumber && within 1 256 body.title
    && within 1 128 body.technicalField && within 2 32 body.targetJurisdiction

/-- What `create_case` goes on with: the stripped texts, and its `now`. -/
structure CaseDraft where
  now : Timestamp
  caseNumber : String
  title : String
  technicalField : String
  targetJurisdiction : String
  deriving DecidableEq

/-- How far a request is. -/
inductive CreationStage
  | started
  | locked
  | authorized
  | drafted (draft : CaseDraft)
  | counted (draft : CaseDraft)
  | unseen (draft : CaseDraft)
  | inserted (row : CaseRow)
  deriving DecidableEq

structure CaseCreation where
  request : String
  actorIdentityId : String
  /-- the JSON, where it has the fields of the request model -/
  body : Option CaseCreateBody
  stage : CreationStage

inductive CreationResponse
  | waits
  | proceeds
  | refused (reason : Refusal)
  | created (row : CaseRow)
  /-- another service has updated a case -/
  | updated
  deriving DecidableEq

/-- One organization with its cases. -/
structure CaseRegister where
  organizationId : String
  organization : OrganizationStore
  quota : Option OrganizationPlanQuota
  cases : Table CaseRow.id
  creations : Table CaseCreation.request
  locks : AdvisoryLocks String String

namespace CaseRegister

variable (register : CaseRegister)

-- ========================================================== transactions

/-- The key of `lock_organization_authority`. -/
def authorityKey : String :=
  "organization-admin-invariant:" ++ register.organizationId

/-- The transaction ends. -/
def close (request : String) : CaseRegister :=
  { register with
    creations := register.creations.delete fun c => c.request = request
    locks := register.locks.release request }

def refuse (request : String) (reason : Refusal) :
    CaseRegister × CreationResponse :=
  (register.close request, .refused reason)

def proceed (request : String) (stage : CreationStage) :
    CaseRegister × CreationResponse :=
  ({ register with
      creations := register.creations.update (fun c => c.request = request)
        fun c => { c with stage := stage } }, .proceeds)

/-- The next step of a request, from the stage it is at. -/
def advance (request : String)
    (step : CaseCreation → CaseRegister × CreationResponse) :
    CaseRegister × CreationResponse :=
  match register.creations.find? request with
  | none => (register, .waits)
  | some creation => step creation

/-- A transaction begins. -/
def start (request actorIdentityId : String) (body : Option CaseCreateBody) :
    CaseRegister × CreationResponse :=
  match register.creations.insert? {
      request := request, actorIdentityId := actorIdentityId, body := body
      stage := .started } with
  | none => (register, .waits)
  | some creations => ({ register with creations := creations }, .proceeds)

/-- `lock_organization_authority`. -/
def lockAuthority (creation : CaseCreation) :
    CaseRegister × CreationResponse :=
  match creation.stage with
  | .started =>
      match register.locks.acquire? creation.request register.authorityKey with
      | none => (register, .waits)
      | some locks =>
          { register with locks := locks }.proceed creation.request .locked
  | _ => (register, .waits)

/-- `_authorize`, of the acting identity. -/
def authorizeCreation (now : Timestamp) (creation : CaseCreation) :
    CaseRegister × CreationResponse :=
  match creation.stage with
  | .locked =>
      let env : RequestEnv :=
        { clock := fun _ => now, uuids := fun _ => "", token := ""
          actorIdentityId := creation.actorIdentityId, commits := true }
      match register.organization.authorize env with
      | .error reason => register.refuse creation.request reason
      | .ok _ => register.proceed creation.request .authorized
  | _ => (register, .waits)

-- ============================================================ create_case

/-- `parse_json_body`, then `create_case` up to its lock. -/
def draft (now : Timestamp) (creation : CaseCreation) :
    CaseRegister × CreationResponse :=
  match creation.stage with
  | .authorized =>
      match creation.body with
      | none => register.refuse creation.request (.http 422 "invalid_request")
      | some body =>
          if body.accepted = false then
            register.refuse creation.request (.http 422 "invalid_request")
          else
            let cleanCaseNum := Text.strip body.caseNumber
            let cleanTitle := Text.strip body.title
            let cleanField := Text.strip body.technicalField
            if cleanCaseNum = "" ∨ cleanTitle = "" ∨ cleanField = "" then
              register.refuse creation.request
                (.http 422 "missing_case_required_fields")
            else
              register.proceed creation.request (.drafted {
                now := now, caseNumber := cleanCaseNum, title := cleanTitle
                technicalField := cleanField
                targetJurisdiction := body.targetJurisdiction })
  | _ => (register, .waits)

/-- `created_at` in the period. -/
def inPeriod (quota : OrganizationPlanQuota) (row : CaseRow) : Bool :=
  quota.currentPeriodStart ≤ row.createdAt
    && row.createdAt < quota.currentPeriodEnd

/-- The cases of the period. -/
def caseCount (quota : OrganizationPlanQuota) : Nat :=
  register.cases.rows.countP (inPeriod quota)

/-- The quota, and the count of the current period's cases. -/
def checkQuota (creation : CaseCreation) : CaseRegister × CreationResponse :=
  match creation.stage with
  | .drafted draft =>
      match register.quota with
      | none => register.proceed creation.request (.counted draft)
      | some quota =>
          if register.caseCount quota ≥ quota.monthlyCaseAllowance then
            register.refuse creation.request (.http 422
              ("monthly_case_quota_exceeded_limit_"
                ++ toString quota.monthlyCaseAllowance))
          else register.proceed creation.request (.counted draft)
  | _ => (register, .waits)

/-- Is the case number taken? -/
def checkCaseNumber (creation : CaseCreation) :
    CaseRegister × CreationResponse :=
  match creation.stage with
  | .counted draft =>
      if draft.caseNumber ∈ register.cases.rows.map CaseRow.caseNumber then
        register.refuse creation.request (.http 409 "case_number_already_exists")
      else register.proceed creation.request (.unseen draft)
  | _ => (register, .waits)

/-- The `INSERT`, of an id not in use. -/
def insertCase (caseId : String) (creation : CaseCreation) :
    CaseRegister × CreationResponse :=
  match creation.stage with
  | .unseen draft =>
      register.proceed creation.request (.inserted {
        id := caseId, caseNumber := draft.caseNumber, title := draft.title
        technicalField := draft.technicalField
        targetJurisdiction := draft.targetJurisdiction, status := "draft"
        createdByIdentityId := creation.actorIdentityId
        createdAt := draft.now, updatedAt := draft.now })
  | _ => (register, .waits)

/-- The commit. The unique index is over the committed rows. -/
def commit (creation : CaseCreation) : CaseRegister × CreationResponse :=
  match creation.stage with
  | .inserted row =>
      if row.caseNumber ∈ register.cases.rows.map CaseRow.caseNumber then
        register.refuse creation.request .database
      else
        match register.cases.insert? row with
        | none => register.refuse creation.request .database
        | some cases =>
            ({ register.close creation.request with cases := cases },
              .created row)
  | _ => (register, .waits)

-- ================================================================= steps

/-- A step administers the organization, and takes its lock. -/
def administers : OrganizationOp → Bool
  | .setRole .. | .setStatus .. | .create .. | .revoke .. | .resend ..
  | .accept .. => true
  | .inspect .. | .startAcceptance .. | .identityCreated ..
  | .identityStatus .. => false

end CaseRegister

/-- What can happen next: a statement of a creation, its failure, a step of
the organization's administration, or an update of a case by the services
that move its status. -/
inductive CreationOp
  | start (request actorIdentityId : String) (body : Option CaseCreateBody)
  | lockAuthority (request : String)
  | authorize (request : String) (now : Timestamp)
  | draft (request : String) (now : Timestamp)
  | checkQuota (request : String)
  | checkCaseNumber (request : String)
  | insert (request caseId : String)
  | commit (request : String)
  | abort (request : String)
  | administer (event : OrganizationOp × RequestEnv)
  | setCaseStatus (caseId status : String) (now : Timestamp)

/-- The request a step is of. -/
def CreationOp.request? : CreationOp → Option String
  | .start request .. | .lockAuthority request | .authorize request _
  | .draft request _ | .checkQuota request | .checkCaseNumber request
  | .insert request _ | .commit request | .abort request => some request
  | .administer _ | .setCaseStatus .. => none

namespace CaseRegister

variable (digestSecret lower : String → String) (register : CaseRegister)

def serve : CreationOp → CaseRegister × CreationResponse
  | .start request actor body => register.start request actor body
  | .lockAuthority request => register.advance request register.lockAuthority
  | .authorize request now =>
      register.advance request (register.authorizeCreation now)
  | .draft request now => register.advance request (register.draft now)
  | .checkQuota request => register.advance request register.checkQuota
  | .checkCaseNumber request =>
      register.advance request register.checkCaseNumber
  | .insert request caseId =>
      register.advance request (register.insertCase caseId)
  | .commit request => register.advance request register.commit
  | .abort request => register.refuse request .database
  | .administer event =>
      if administers event.1
          ∧ (register.locks.find? register.authorityKey).isSome then
        (register, .waits)
      else
        ({ register with
            organization :=
              afterAdministration digestSecret lower register.organization event },
          .proceeds)
  | .setCaseStatus caseId status now =>
      ({ register with
          cases := register.cases.update (fun c => c.id = caseId)
            fun c => { c with status := status, updatedAt := now } }, .updated)

/-- The register after a step. -/
def afterCreation (register : CaseRegister) (op : CreationOp) : CaseRegister :=
  (register.serve digestSecret lower op).1

end CaseRegister

/-- An organization as it is provisioned: it has no cases. -/
def provisioned (organizationId : String) (organization : OrganizationStore)
    (quota : OrganizationPlanQuota) : CaseRegister where
  organizationId := organizationId
  organization := organization
  quota := some quota
  cases := .empty
  creations := .empty
  locks := .empty

end PatentEvidence.Cases
