/-
Invitations: creating, revoking and resending them, and their acceptance
(apps/api/…/organization/invitations.py), and the steps of an
organization's administration.

Accepting is not a mutation of an administrator: whoever has the token
accepts. It is three steps. `inspect` finds the invitation by the token's
digest; then the request checks its credentials and reads the clock; and
its transaction runs with the reading made before. The transaction waits for
locks: the organization's and the row of the invitation, then the lock of
the email, the row of the identity and that of the membership. The
environment's readings of the clock are the moments it obtains them
(`AcceptanceLock.obtained`). From the first lock on nothing changes the
invitations, and what is read of the identity is read at the end, so the
transaction is one step at its last lock.

The database refuses a second pending invitation of one email, an
invitation of a known digest, a membership of an identity that has one,
and an identity of a known email.
-/
import PatentEvidence.Lib.Text
import PatentEvidence.Organization.Members

namespace PatentEvidence.Organization

open Auth (IdentityStatus)
open Cases (Refusal orDatabase)
open Fallible

def invitationLifetime : Timestamp := 72 * 3600 * 1000000

variable (digestSecret lower : String → String)

namespace OrganizationStore

variable (store : OrganizationStore)

-- ============================================================= creating

/-- A pending invitation that the clock has overtaken. -/
def lapsed (email : String) (now : Timestamp) (i : OrganizationInvitation) :
    Bool :=
  i.emailNormalized = email && i.status = .pending && i.expiresAt ≤ now

/-- The identity of the email has a membership that is not removed. -/
def membershipExists (email : String) : Bool :=
  store.memberships.rows.any fun m =>
    m.status ≠ .removed && store.identities.rows.any fun i =>
      i.id = m.globalIdentityId && i.emailNormalized = email

/-- `INSERT INTO organization_invitations`. -/
def insertInvitation (invitation : OrganizationInvitation) :
    Except Refusal OrganizationStore := do
  raiseIf (∃ i ∈ store.invitations.rows, i.tokenHash = invitation.tokenHash)
    .database
  raiseIf (∃ i ∈ store.invitations.rows,
    i.emailNormalized = invitation.emailNormalized ∧ i.status = .pending) .database
  let invitations ← orDatabase (store.invitations.insert? invitation)
  return { store with invitations := invitations }

/-- `_create_locked`, from a given reading of the clock on. -/
def createLocked (env : RequestEnv) (reading : Nat) (email : String)
    (role : OrganizationRole) : Except Refusal OrganizationStore := do
  let swept := { store with
    invitations := store.invitations.update (lapsed email (env.clock reading))
      fun i => { i with status := .expired, updatedAt := env.clock reading } }
  raiseIf (store.membershipExists email) (.http 409 "membership_already_exists")
  raiseIf (∃ i ∈ swept.invitations.rows, i.emailNormalized = email
    ∧ i.status = .pending ∧ env.clock (reading + 1) < i.expiresAt)
    (.http 409 "invitation_already_pending")
  swept.insertInvitation {
    id := env.uuids 0
    emailNormalized := email
    role := role
    tokenHash := digestSecret env.token
    status := .pending
    invitedBy := env.actorIdentityId
    expiresAt := env.clock (reading + 2) + invitationLifetime
    acceptedAt := none
    revokedAt := none
    createdAt := env.clock (reading + 2)
    updatedAt := env.clock (reading + 2) }

/-- `InvitationService.create`. -/
def createInvitation (env : RequestEnv) (email : String)
    (role : OrganizationRole) : Except Refusal OrganizationStore := do
  store.authorize env
  let normalized := lower (Text.strip email)
  raiseIf ('@' ∉ normalized.toList) (.http 422 "invalid_invitation_email")
  store.createLocked digestSecret env 1 normalized role

/-- `InvitationService.revoke`. -/
def revokeInvitation (env : RequestEnv) (invitationId : String) :
    Except Refusal OrganizationStore := do
  store.authorize env
  match store.invitations.find? invitationId with
  | none => throw (.http 404 "invitation_not_found")
  | some row =>
      raiseIf (row.status ≠ .pending ∨ row.expiresAt ≤ env.clock 1)
        (.http 409 "invitation_not_pending")
      return { store with
        invitations := store.invitations.update (fun i => i.id = invitationId)
          fun i => { i with
            status := .revoked, revokedAt := some (env.clock 1)
            updatedAt := env.clock 1 } }

/-- The status an invitation shows: a lapsed one is expired. -/
def effectiveInvitationStatus (row : OrganizationInvitation) (now : Timestamp) :
    InvitationStatus :=
  if row.status = .pending ∧ row.expiresAt ≤ now then .expired else row.status

/-- The `UPDATE` of `resend`. -/
def replaceInvitation (invitationId : String)
    (effectiveStatus : InvitationStatus) (now : Timestamp) : OrganizationStore :=
  { store with
    invitations := store.invitations.update (fun i => i.id = invitationId)
      fun i => { i with
        status := if effectiveStatus = .expired then .expired else .revoked
        revokedAt := if effectiveStatus = .pending then some now else none
        updatedAt := now } }

/-- `InvitationService.resend`. -/
def resendInvitation (env : RequestEnv) (invitationId : String) :
    Except Refusal OrganizationStore := do
  store.authorize env
  match store.invitations.find? invitationId with
  | none => throw (.http 404 "invitation_not_found")
  | some row =>
      let effectiveStatus := effectiveInvitationStatus row (env.clock 1)
      raiseIf (effectiveStatus ≠ .pending ∧ effectiveStatus ≠ .expired)
        (.http 409 "invitation_not_resendable")
      (store.replaceInvitation invitationId effectiveStatus
        (env.clock 1)).createLocked digestSecret env 2 row.emailNormalized row.role

-- ============================================================ accepting

/-- `InvitationAcceptance.inspect`, for an accept request. -/
def inspectInvitation (request token : String) :
    Except Refusal OrganizationStore := do
  match store.invitations.rows.find? fun i => i.tokenHash = digestSecret token with
  | none => throw (.http 404 "invitation_not_found")
  | some row =>
      let previews ← orDatabase (store.previews.insert? {
        request := request
        invitationId := row.id
        tokenHash := digestSecret token
        existingIdentity := store.identities.rows.any fun i =>
          i.emailNormalized = row.emailNormalized
        start := none })
      return { store with previews := previews }

/-- The `new_password_hash` of `accept_invitation`: none where the email has
an identity. -/
def newPasswordHash (existingIdentity : Bool) (displayName : Option String)
    (password : Option PasswordHashing) : Except Refusal (Option String) :=
  if existingIdentity then .ok none
  else if displayName.getD "" = "" then
    .error (.http 422 "new_identity_credentials_required")
  else
    match password with
    | none => .error (.http 422 "new_identity_credentials_required")
    | some .policyFailed => .error (.http 422 "password_policy_failed")
    | some .capacityExceeded =>
        .error (.http 503 "authentication_temporarily_unavailable")
    | some (.hashed passwordHash) => .ok (some passwordHash)

/-- `accept_invitation` between its transactions, and the first line of
`_accept`. -/
def startAcceptance (env : RequestEnv) (request : String)
    (displayName : Option String) (password : Option PasswordHashing) :
    Except Refusal OrganizationStore := do
  match store.previews.find? request with
  | none => throw (.http 404 "invitation_not_found")
  | some preview =>
      let passwordHash ←
        newPasswordHash preview.existingIdentity displayName password
      return { store with
        previews := store.previews.update (fun p => p.request = request)
          fun p => { p with
            start := some {
              now := env.clock 0
              displayName := displayName
              newPasswordHash := passwordHash } } }

/-- The identity an acceptance is for: the one of the email, or a new
one. -/
def acceptingIdentity (env : RequestEnv) (start : AcceptanceStart)
    (email : String) : Except Refusal (OrganizationStore × String) := do
  match store.identities.rows.find? fun i => i.emailNormalized = email with
  | some identity =>
      raiseIf (identity.status ≠ .active) (.http 409 "identity_unavailable")
      return (store, identity.id)
  | none =>
      let name := Text.strip (start.displayName.getD "")
      match start.newPasswordHash with
      | none => throw (.http 422 "new_identity_credentials_required")
      | some passwordHash =>
          raiseIf (name = "") (.http 422 "new_identity_credentials_required")
          let identities ← orDatabase (store.identities.insert? {
            id := env.uuids 0, emailNormalized := email, displayName := name
            status := .active, passwordHash := some passwordHash })
          return ({ store with identities := identities }, env.uuids 0)

/-- The membership an acceptance leaves: a new one, or the removed one
active again. -/
def acceptMembership (env : RequestEnv) (now : Timestamp) (identityId : String)
    (role : OrganizationRole) : Except Refusal OrganizationStore := do
  match store.membershipOf identityId with
  | none =>
      let memberships ← orDatabase (store.memberships.insert? {
        id := env.uuids 1, globalIdentityId := identityId, role := role
        status := .active, createdAt := now, updatedAt := now })
      return { store with memberships := memberships }
  | some membership =>
      raiseIf (membership.status ≠ .removed)
        (.http 409 "membership_already_exists")
      return { store with
        memberships := store.memberships.update (fun m => m.id = membership.id)
          fun m => { m with
            role := role, status := .active, updatedAt := now } }

/-- `InvitationAcceptance._accept`. -/
def acceptInvitation (env : RequestEnv) (request : String) :
    Except Refusal OrganizationStore := do
  match store.previews.find? request with
  | none => throw (.http 404 "invitation_not_found")
  | some preview =>
      match preview.start with
      | none => throw (.http 404 "invitation_not_found")
      | some start =>
          -- behind the organization's lock, and the row of the invitation
          let found := store.invitations.rows.find? fun i =>
            i.id = preview.invitationId && i.tokenHash = preview.tokenHash
          match found with
          | none => throw (.http 404 "invitation_not_found")
          | some invitation =>
              raiseIf (invitation.status ≠ .pending)
                (.http 409 "invitation_not_pending")
              raiseIf (invitation.expiresAt ≤ start.now)
                (.http 410 "invitation_expired")
              raiseIf (store.organization.effectiveStatus start.now ≠ .active)
                (.http 409 "organization_unavailable")
              -- behind the lock of the email, and the row of the identity
              let (store, identityId) ←
                store.acceptingIdentity env start invitation.emailNormalized
              -- behind the row of the membership
              let store ← store.acceptMembership env start.now identityId
                invitation.role
              return { store with
                invitations := store.invitations.update
                  (fun i => i.id = invitation.id)
                  fun i => { i with
                    status := .accepted, acceptedAt := some start.now
                    updatedAt := start.now } }

end OrganizationStore

/-- The locks `_accept` waits for, in order. -/
inductive AcceptanceLock
  | organization
  | invitation
  | email
  | identity
  | membership

/-- The moment an acceptance obtains a lock. -/
def AcceptanceLock.obtained (env : RequestEnv) : AcceptanceLock → Timestamp
  | .organization => env.clock 0
  | .invitation => env.clock 1
  | .email => env.clock 2
  | .identity => env.clock 3
  | .membership => env.clock 4

/-- The moments of an acceptance: its own reading of the clock, and those it
obtains its locks. -/
def acceptanceMoments (start : AcceptanceStart) (env : RequestEnv) :
    List Timestamp :=
  start.now :: [.organization, .invitation, .email, .identity, .membership].map
    (AcceptanceLock.obtained env)

/-- And when it is executed: with the last lock. -/
def acceptanceExecuted (env : RequestEnv) : Timestamp :=
  AcceptanceLock.membership.obtained env

-- ================================================================ steps

inductive OrganizationOp
  | setRole (membershipId : String) (role : OrganizationRole)
  | setStatus (membershipId : String) (change : StatusTransition)
  | create (email : String) (role : OrganizationRole)
  | revoke (invitationId : String)
  | resend (invitationId : String)
  | inspect (request token : String)
  | startAcceptance (request : String) (displayName : Option String)
      (password : Option PasswordHashing)
  | accept (request : String)
  /-- an identity that comes to be elsewhere -/
  | identityCreated (identity : IdentityRow)
  /-- and one whose status changes there -/
  | identityStatus (identityId : String) (status : IdentityStatus)

namespace OrganizationStore

variable (store : OrganizationStore)

/-- What a step does, up to its commit. -/
def execute (env : RequestEnv) : OrganizationOp → Except Refusal OrganizationStore
  | .setRole membershipId role => store.setRole env membershipId role
  | .setStatus membershipId change => store.setStatus env membershipId change
  | .create email role => store.createInvitation digestSecret lower env email role
  | .revoke invitationId => store.revokeInvitation env invitationId
  | .resend invitationId => store.resendInvitation digestSecret env invitationId
  | .inspect request token => store.inspectInvitation digestSecret request token
  | .startAcceptance request displayName password =>
      store.startAcceptance env request displayName password
  | .accept request => store.acceptInvitation env request
  | .identityCreated identity => do
      raiseIf (∃ i ∈ store.identities.rows,
        i.emailNormalized = identity.emailNormalized) .database
      let identities ← orDatabase (store.identities.insert? identity)
      return { store with identities := identities }
  | .identityStatus identityId status =>
      return { store with
        identities := store.identities.update (fun i => i.id = identityId)
          fun i => { i with status := status } }

/-- One transaction: it commits or leaves nothing. -/
def serve (event : OrganizationOp × RequestEnv) :
    Except Refusal OrganizationStore := do
  let next ← store.execute digestSecret lower event.2 event.1
  raiseIf (event.2.commits = false) .database
  return next

end OrganizationStore

/-- The organization after one step. -/
def afterAdministration (store : OrganizationStore)
    (event : OrganizationOp × RequestEnv) : OrganizationStore :=
  Fallible.settle store (store.serve digestSecret lower event)

end PatentEvidence.Organization
