/-
One organization's administration: rows, lifecycle and access
(apps/api/…/organization/access.py, core/organization_lifecycle.py).

Every mutation of an organization runs under its authority lock, taken
first and held to the commit, and asks again under the lock whether the
organization is active and the actor one of its active administrators
(`authorize`). So a mutation is one step on these rows. Global identities
are shared with other organizations and change under their own locks.

Columns checked by the database against a fixed set are enumerations here.
-/
import PatentEvidence.Auth.Reset
import PatentEvidence.Cases.Store

namespace PatentEvidence.Organization

open Auth (IdentityStatus)
open Cases (Refusal)

-- ================================================================= rows

inductive OrganizationRole
  | organizationAdmin
  | patentAgent
  | reviewer
  deriving DecidableEq

inductive OrganizationStatus
  | active
  | suspended
  | expired
  deriving DecidableEq

inductive MembershipStatus
  | active
  | suspended
  | removed
  deriving DecidableEq

inductive InvitationStatus
  | pending
  | accepted
  | revoked
  | expired
  deriving DecidableEq

structure OrganizationRow where
  status : OrganizationStatus
  expiresAt : Option Timestamp

structure IdentityRow where
  id : String
  emailNormalized : String
  displayName : String
  status : IdentityStatus
  passwordHash : Option String

structure OrganizationMembership where
  id : String
  globalIdentityId : String
  role : OrganizationRole
  status : MembershipStatus
  createdAt : Timestamp
  updatedAt : Timestamp

structure OrganizationInvitation where
  id : String
  emailNormalized : String
  role : OrganizationRole
  tokenHash : String
  status : InvitationStatus
  invitedBy : String
  expiresAt : Timestamp
  acceptedAt : Option Timestamp
  revokedAt : Option Timestamp
  createdAt : Timestamp
  updatedAt : Timestamp
  deriving DecidableEq

/-- What hashing the password of an accept request comes to. -/
inductive PasswordHashing
  | hashed (passwordHash : String)
  | policyFailed
  | capacityExceeded

/-- The credentials an accept request came with, and its `now`, read before
the lock. -/
structure AcceptanceStart where
  now : Timestamp
  displayName : Option String
  newPasswordHash : Option String
  deriving DecidableEq

/-- What an accept request has read of its invitation. -/
structure InvitationPreview where
  request : String
  invitationId : String
  tokenHash : String
  existingIdentity : Bool
  start : Option AcceptanceStart
  deriving DecidableEq

structure OrganizationStore where
  organization : OrganizationRow
  identities : Table IdentityRow.id
  memberships : Table OrganizationMembership.id
  invitations : Table OrganizationInvitation.id
  previews : Table InvitationPreview.request

/-- What the environment decides about a request: the readings of the
clock, in order, the ids `uuid4` and the token it draws, who asks, and
whether the transaction commits. -/
structure RequestEnv where
  clock : Nat → Timestamp
  uuids : Nat → String
  token : String
  actorIdentityId : String
  commits : Bool

-- ============================================================ lifecycle

namespace OrganizationRow

/-- `OrganizationLifecycle.effective_status`. -/
def effectiveStatus (organization : OrganizationRow) (now : Timestamp) :
    OrganizationStatus :=
  match organization.expiresAt with
  | none => organization.status
  | some expiresAt => if expiresAt ≤ now then .expired else organization.status

end OrganizationRow

-- =============================================================== access

namespace OrganizationStore

variable (store : OrganizationStore)

/-- The membership of an identity. -/
def membershipOf (identityId : String) : Option OrganizationMembership :=
  store.memberships.rows.find? fun m => m.globalIdentityId = identityId

/-- A row of an active administrator. -/
def isActiveAdmin (m : OrganizationMembership) : Bool :=
  m.role = .organizationAdmin && m.status = .active

/-- `OrganizationAccess._authorize`, under the lock. -/
def authorize (env : RequestEnv) : Except Refusal Unit :=
  match store.membershipOf env.actorIdentityId with
  | none => .error (.http 404 "organization_not_found")
  | some membership =>
      if store.organization.effectiveStatus (env.clock 0) ≠ .active
          ∨ isActiveAdmin membership = false then
        .error (.http 403 "forbidden")
      else .ok ()

end OrganizationStore

end PatentEvidence.Organization
