/-
Opening organizations (apps/api/…/platform/organizations.py,
`OrganizationOpening` and `OrganizationProvisioner.open`).

A call is one transaction of several statements, each a step here, and the
statements of other calls come between them (READ COMMITTED: a statement
sees what was committed before it). A call locks its actor and idempotency
key before it looks for an earlier request of theirs, and its slug before
it looks for an organization of that slug, and holds both locks to its end.
Its rows are in the tables from the commit on, and its answer goes out with
the commit.

SHA-256 is a parameter: the hexadecimal digest of a text in UTF-8.
-/
import PatentEvidence.Cases.Creation
import PatentEvidence.Lib.AsciiJson
import PatentEvidence.Lib.Aware

namespace PatentEvidence.Platform

open Cases (Refusal OrganizationPlanQuota)
open Organization (OrganizationInvitation OrganizationStatus)

-- =============================================================== openings

structure OrganizationOpening where
  slug : String
  displayName : String
  adminEmail : String
  planKey : String
  monthlyCaseAllowance : Int
  currentPeriodStart : AwareDatetime
  currentPeriodEnd : AwareDatetime
  expiresAt : Option AwareDatetime
  deriving DecidableEq

namespace OrganizationOpening

/-- The dict `fingerprint` is taken of. -/
def payload (opening : OrganizationOpening) :
    List (String × Json.Scalar Int) :=
  [("slug", .str opening.slug),
    ("display_name", .str opening.displayName),
    ("admin_email", .str opening.adminEmail),
    ("plan_key", .str opening.planKey),
    ("monthly_case_allowance", .num opening.monthlyCaseAllowance),
    ("current_period_start", .str opening.currentPeriodStart.isoformat),
    ("current_period_end", .str opening.currentPeriodEnd.isoformat),
    ("expires_at",
      match opening.expiresAt with
      | some expiresAt => .str expiresAt.isoformat
      | none => .null)]

def canonical (opening : OrganizationOpening) : String :=
  String.ofList (Json.flatDumps opening.payload)

def fingerprint (sha256 : String → String) (opening : OrganizationOpening) :
    String := sha256 opening.canonical

/-- `==` of two openings: their datetimes compare as points in time. -/
structure Equal (a b : OrganizationOpening) : Prop where
  slug : a.slug = b.slug
  displayName : a.displayName = b.displayName
  adminEmail : a.adminEmail = b.adminEmail
  planKey : a.planKey = b.planKey
  allowance : a.monthlyCaseAllowance = b.monthlyCaseAllowance
  start : a.currentPeriodStart.timestamp = b.currentPeriodStart.timestamp
  stop : a.currentPeriodEnd.timestamp = b.currentPeriodEnd.timestamp
  expires :
    a.expiresAt.map AwareDatetime.timestamp
      = b.expiresAt.map AwareDatetime.timestamp

end OrganizationOpening

/-- The arguments of `open`. -/
structure OpenRequest where
  actorIdentityId : String
  idempotencyKey : String
  opening : OrganizationOpening
  deriving DecidableEq

-- ================================================================= rows

/-- A row of `organizations`. -/
structure OrganizationRecord where
  id : String
  slug : String
  displayName : String
  status : OrganizationStatus
  expiresAt : Option Timestamp
  createdBy : String
  createdAt : Timestamp
  updatedAt : Timestamp

structure QuotaRecord where
  organizationId : String
  planKey : String
  quota : OrganizationPlanQuota
  status : OrganizationStatus
  createdAt : Timestamp
  updatedAt : Timestamp

structure InvitationRecord where
  organizationId : String
  invitation : OrganizationInvitation

def InvitationRecord.id (row : InvitationRecord) : String := row.invitation.id

structure ProvisioningRecord where
  id : String
  organizationId : String
  initialInvitationId : String
  createdBy : String
  status : String
  createdAt : Timestamp

structure OrganizationPart where
  id : String
  slug : String
  displayName : String
  status : String
  expiresAt : Option String
  createdAt : String
  deriving DecidableEq

structure QuotaPart where
  planKey : String
  monthlyCaseAllowance : Int
  currentPeriodStart : String
  currentPeriodEnd : String
  status : String
  deriving DecidableEq

structure InvitationPart where
  id : String
  email : String
  role : String
  expiresAt : String
  deriving DecidableEq

/-- What `open` answers. -/
structure OpenResponse where
  organization : OrganizationPart
  quota : QuotaPart
  invitation : InvitationPart
  invitationToken : Option String
  deriving DecidableEq

/-- `{**response, "invitation_token": None}`. -/
def OpenResponse.withoutToken (response : OpenResponse) : OpenResponse :=
  { response with invitationToken := none }

structure ProvisioningRequest where
  id : String
  actorIdentityId : String
  idempotencyKey : String
  requestFingerprint : String
  organizationId : String
  responseSnapshot : OpenResponse
  createdAt : Timestamp

structure PlatformTables where
  organizations : Table OrganizationRecord.id
  quotas : Table QuotaRecord.organizationId
  invitations : Table InvitationRecord.id
  records : Table ProvisioningRecord.id
  requests : Table ProvisioningRequest.id

/-- The rows of one opening, and its answer. -/
structure OpenRows where
  organization : OrganizationRecord
  quota : QuotaRecord
  invitation : InvitationRecord
  record : ProvisioningRecord
  request : ProvisioningRequest
  response : OpenResponse

/-- What an opening draws: its `now`, its ids and its token. -/
structure OpenDraw where
  now : AwareDatetime
  organizationId : String
  invitationId : String
  recordId : String
  requestId : String
  invitationToken : String

-- ============================================================== progress

/-- How far a call is. `found` has an earlier request's snapshot. -/
inductive OpenStage
  | started
  | keyLocked
  | found (response : OpenResponse) (organizationId : String)
  | unseen
  | slugLocked
  | free
  | inserted (rows : OpenRows)

structure OpenCall where
  call : String
  request : OpenRequest
  stage : OpenStage

inductive OpenOutcome
  | waits
  | proceeds
  | refused (request : OpenRequest) (reason : Refusal)
  | answered (status : Nat) (request : OpenRequest) (response : OpenResponse)
      (organizationId : String)
  /-- the organization's status or expiry was changed -/
  | administered
  deriving DecidableEq

structure PlatformStore where
  tables : PlatformTables
  calls : Table OpenCall.call
  locks : AdvisoryLocks String String

def PlatformStore.empty : PlatformStore where
  tables :=
    { organizations := .empty, quotas := .empty, invitations := .empty
      records := .empty, requests := .empty }
  calls := .empty
  locks := .empty

-- ============================================================== the rows

/-- `validate_opening`, at a reading of the clock. -/
def validateOpening (opening : OrganizationOpening) (clock : Timestamp) :
    Except Refusal Unit :=
  if opening.currentPeriodEnd.timestamp
      ≤ opening.currentPeriodStart.timestamp then
    .error (.http 422 "invalid_quota_period")
  else
    match opening.expiresAt with
    | none => .ok ()
    | some expiresAt =>
        if expiresAt.timestamp ≤ clock then
          .error (.http 422 "invalid_organization_expiry")
        else .ok ()

/-- `INVITATION_LIFETIME`, in days. -/
def invitationLifetime : Int := 3

/-- The answer to an opening, with the token. -/
def openResponse (opening : OrganizationOpening) (draw : OpenDraw)
    (invitationExpiresAt : AwareDatetime) : OpenResponse where
  organization :=
    { id := draw.organizationId, slug := opening.slug
      displayName := opening.displayName, status := "active"
      expiresAt := opening.expiresAt.map AwareDatetime.isoformat
      createdAt := draw.now.isoformat }
  quota :=
    { planKey := opening.planKey
      monthlyCaseAllowance := opening.monthlyCaseAllowance
      currentPeriodStart := opening.currentPeriodStart.isoformat
      currentPeriodEnd := opening.currentPeriodEnd.isoformat
      status := "active" }
  invitation :=
    { id := draw.invitationId, email := opening.adminEmail
      role := "organization_admin", expiresAt := invitationExpiresAt.isoformat }
  invitationToken := some draw.invitationToken

section Rows

variable (sha256 : String → String)

/-- `digest_secret`. -/
def digestSecret (value : String) : String := sha256 value

/-- The five `INSERT`s, with the checks of the columns. -/
def openRows (request : OpenRequest) (draw : OpenDraw) :
    Except Refusal OpenRows :=
  let opening := request.opening
  let now := draw.now.timestamp
  match draw.now.addDays invitationLifetime with
  | none => .error (.http 500 "Internal Server Error")
  | some invitationExpiresAt =>
      if hquota : 0 ≤ opening.monthlyCaseAllowance
          ∧ opening.currentPeriodStart.timestamp
            < opening.currentPeriodEnd.timestamp then
        if 8 ≤ request.idempotencyKey.length
            ∧ request.idempotencyKey.length ≤ 128
            ∧ (opening.fingerprint sha256).length = 64 then
          let response := openResponse opening draw invitationExpiresAt
          .ok {
            organization :=
              { id := draw.organizationId, slug := opening.slug
                displayName := opening.displayName, status := .active
                expiresAt := opening.expiresAt.map AwareDatetime.timestamp
                createdBy := request.actorIdentityId
                createdAt := now, updatedAt := now }
            quota :=
              { organizationId := draw.organizationId
                planKey := opening.planKey
                quota :=
                  { monthlyCaseAllowance := opening.monthlyCaseAllowance
                    currentPeriodStart := opening.currentPeriodStart.timestamp
                    currentPeriodEnd := opening.currentPeriodEnd.timestamp
                    nonneg := hquota.1, ordered := hquota.2 }
                status := .active, createdAt := now, updatedAt := now }
            invitation :=
              { organizationId := draw.organizationId
                invitation :=
                  { id := draw.invitationId
                    emailNormalized := opening.adminEmail
                    role := .organizationAdmin
                    tokenHash := digestSecret sha256 draw.invitationToken
                    status := .pending, invitedBy := request.actorIdentityId
                    expiresAt := invitationExpiresAt.timestamp
                    acceptedAt := none, revokedAt := none
                    createdAt := now, updatedAt := now } }
            record :=
              { id := draw.recordId, organizationId := draw.organizationId
                initialInvitationId := draw.invitationId
                createdBy := request.actorIdentityId, status := "ready"
                createdAt := now }
            request :=
              { id := draw.requestId
                actorIdentityId := request.actorIdentityId
                idempotencyKey := request.idempotencyKey
                requestFingerprint := opening.fingerprint sha256
                organizationId := draw.organizationId
                responseSnapshot := response.withoutToken
                createdAt := now }
            response := response }
        else .error .database
      else .error .database

end Rows

namespace PlatformTables

variable (tables : PlatformTables)

/-- The earlier request of an actor and a key. -/
def prior (actorIdentityId idempotencyKey : String) :
    Option ProvisioningRequest :=
  tables.requests.rows.find? fun r =>
    r.actorIdentityId = actorIdentityId && r.idempotencyKey = idempotencyKey

def slugs : List String := tables.organizations.rows.map OrganizationRecord.slug

/-- The rows meet none of an earlier opening in a unique column. -/
structure Distinct (rows : OpenRows) : Prop where
  slug : rows.organization.slug ∉ tables.slugs
  token : ∀ row ∈ tables.invitations.rows,
    row.invitation.tokenHash ≠ rows.invitation.invitation.tokenHash
  organization : ∀ row ∈ tables.records.rows,
    row.organizationId ≠ rows.record.organizationId
  request : ∀ row ∈ tables.requests.rows,
    ¬ (row.actorIdentityId = rows.request.actorIdentityId
      ∧ row.idempotencyKey = rows.request.idempotencyKey)

instance (rows : OpenRows) : Decidable (tables.Distinct rows) :=
  decidable_of_iff
    (rows.organization.slug ∉ tables.slugs
      ∧ (∀ row ∈ tables.invitations.rows,
        row.invitation.tokenHash ≠ rows.invitation.invitation.tokenHash)
      ∧ (∀ row ∈ tables.records.rows,
        row.organizationId ≠ rows.record.organizationId)
      ∧ ∀ row ∈ tables.requests.rows,
        ¬ (row.actorIdentityId = rows.request.actorIdentityId
          ∧ row.idempotencyKey = rows.request.idempotencyKey))
    ⟨fun ⟨hslug, htoken, horganization, hrequest⟩ =>
        ⟨hslug, htoken, horganization, hrequest⟩,
      fun h => ⟨h.slug, h.token, h.organization, h.request⟩⟩

/-- The rows come into the tables, unless a unique column refuses one. -/
def install? (rows : OpenRows) : Option PlatformTables :=
  if tables.Distinct rows then do
    let organizations ← tables.organizations.insert? rows.organization
    let quotas ← tables.quotas.insert? rows.quota
    let invitations ← tables.invitations.insert? rows.invitation
    let records ← tables.records.insert? rows.record
    let requests ← tables.requests.insert? rows.request
    return {
      organizations := organizations, quotas := quotas
      invitations := invitations, records := records, requests := requests }
  else none

end PlatformTables

-- ============================================================ statements

namespace PlatformStore

variable (sha256 : String → String) (store : PlatformStore)

/-- The transaction of a call ends. -/
def close (call : String) : PlatformStore :=
  { store with
    calls := store.calls.delete fun c => c.call = call
    locks := store.locks.release call }

def refuse (c : OpenCall) (reason : Refusal) : PlatformStore × OpenOutcome :=
  (store.close c.call, .refused c.request reason)

def proceed (c : OpenCall) (stage : OpenStage) : PlatformStore × OpenOutcome :=
  ({ store with
      calls := store.calls.update (fun c' => c'.call = c.call)
        fun c' => { c' with stage := stage } }, .proceeds)

/-- The next statement of a call in progress. -/
def advance (call : String) (step : OpenCall → PlatformStore × OpenOutcome) :
    PlatformStore × OpenOutcome :=
  match store.calls.find? call with
  | none => (store, .waits)
  | some c => step c

/-- `pg_advisory_xact_lock`. -/
def lock (key : String) (next : OpenStage) (c : OpenCall) :
    PlatformStore × OpenOutcome :=
  match store.locks.acquire? c.call key with
  | none => (store, .waits)
  | some locks => { store with locks := locks }.proceed c next

/-- `open`, up to its first statement. -/
def start (call : String) (request : OpenRequest) (clock : Timestamp) :
    PlatformStore × OpenOutcome :=
  match store.calls.insert?
      { call := call, request := request, stage := .started } with
  | none => (store, .waits)
  | some calls =>
      match validateOpening request.opening clock with
      | .error reason => (store, .refused request reason)
      | .ok _ => ({ store with calls := calls }, .proceeds)

end PlatformStore

def OpenRequest.lockKey (request : OpenRequest) : String :=
  request.actorIdentityId ++ ":" ++ request.idempotencyKey

def OrganizationOpening.lockKey (opening : OrganizationOpening) : String :=
  "organization-slug:" ++ opening.slug

namespace PlatformStore

variable (sha256 : String → String) (store : PlatformStore)

def lockRequest (c : OpenCall) : PlatformStore × OpenOutcome :=
  match c.stage with
  | .started => store.lock c.request.lockKey .keyLocked c
  | _ => (store, .waits)

/-- The earlier request of the actor and the key. -/
def lookUp (c : OpenCall) : PlatformStore × OpenOutcome :=
  match c.stage with
  | .keyLocked =>
      match store.tables.prior c.request.actorIdentityId
          c.request.idempotencyKey with
      | none => store.proceed c .unseen
      | some prior =>
          if prior.requestFingerprint ≠ c.request.opening.fingerprint sha256 then
            store.refuse c (.http 409 "idempotency_conflict")
          else
            store.proceed c
              (.found prior.responseSnapshot.withoutToken prior.organizationId)
  | _ => (store, .waits)

def lockSlug (c : OpenCall) : PlatformStore × OpenOutcome :=
  match c.stage with
  | .unseen => store.lock c.request.opening.lockKey .slugLocked c
  | _ => (store, .waits)

def checkSlug (c : OpenCall) : PlatformStore × OpenOutcome :=
  match c.stage with
  | .slugLocked =>
      if c.request.opening.slug ∈ store.tables.slugs then
        store.refuse c (.http 409 "organization_slug_conflict")
      else store.proceed c .free
  | _ => (store, .waits)

def insert (draw : OpenDraw) (c : OpenCall) : PlatformStore × OpenOutcome :=
  match c.stage with
  | .free =>
      match openRows sha256 c.request draw with
      | .error reason => store.refuse c reason
      | .ok rows => store.proceed c (.inserted rows)
  | _ => (store, .waits)

/-- The commit, with the answer. -/
def commit (c : OpenCall) : PlatformStore × OpenOutcome :=
  match c.stage with
  | .found response organizationId =>
      (store.close c.call, .answered 200 c.request response organizationId)
  | .inserted rows =>
      match store.tables.install? rows with
      | none => store.refuse c .database
      | some tables =>
          ({ store.close c.call with tables := tables },
            .answered 201 c.request rows.response rows.organization.id)
  | _ => (store, .waits)

/-- `set_status` and `set_expiry` of the directory. -/
def setLifecycle (organizationId : String) (status : OrganizationStatus)
    (expiresAt : Option Timestamp) (now : Timestamp) : PlatformStore :=
  { store with
    tables := { store.tables with
      organizations :=
        store.tables.organizations.update (fun o => o.id = organizationId)
          fun o => { o with
            status := status, expiresAt := expiresAt, updatedAt := now } } }

end PlatformStore

/-- What can happen next: a statement of a call, its failure, or a change of
an organization's status or expiry. -/
inductive OpenOp
  | start (call : String) (request : OpenRequest) (clock : Timestamp)
  | lockRequest (call : String)
  | lookUp (call : String)
  | lockSlug (call : String)
  | checkSlug (call : String)
  | insert (call : String) (draw : OpenDraw)
  | commit (call : String)
  | abort (call : String)
  | setLifecycle (organizationId : String) (status : OrganizationStatus)
      (expiresAt : Option Timestamp) (now : Timestamp)

namespace PlatformStore

variable (sha256 : String → String) (store : PlatformStore)

def serve : OpenOp → PlatformStore × OpenOutcome
  | .start call request clock => store.start call request clock
  | .lockRequest call => store.advance call store.lockRequest
  | .lookUp call => store.advance call (store.lookUp sha256)
  | .lockSlug call => store.advance call store.lockSlug
  | .checkSlug call => store.advance call store.checkSlug
  | .insert call draw => store.advance call (store.insert sha256 draw)
  | .commit call => store.advance call store.commit
  | .abort call => store.advance call fun c => store.refuse c .database
  | .setLifecycle organizationId status expiresAt now =>
      (store.setLifecycle organizationId status expiresAt now, .administered)

/-- The store after a step. -/
def afterOpening (store : PlatformStore) (op : OpenOp) : PlatformStore :=
  (store.serve sha256 op).1

end PlatformStore

end PatentEvidence.Platform
