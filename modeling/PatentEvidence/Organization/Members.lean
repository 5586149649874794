/-
Role and status changes of members (apps/api/…/organization/members.py).
-/
import PatentEvidence.Lib.Fallible
import PatentEvidence.Organization.Model

namespace PatentEvidence.Organization

open Cases (Refusal)
open Fallible

/-- The transitions of a membership's status. -/
inductive StatusTransition
  | suspend
  | reactivate
  | remove
  deriving DecidableEq

namespace OrganizationStore

variable (store : OrganizationStore)

/-- `_locked_target`. -/
def lockedTarget (actorIdentityId membershipId : String) :
    Except Refusal OrganizationMembership :=
  let actorAuthorized := store.memberships.rows.any fun m =>
    m.globalIdentityId = actorIdentityId && isActiveAdmin m
  if actorAuthorized = false then .error (.http 403 "forbidden")
  else
    match store.memberships.find? membershipId with
    | none => .error (.http 404 "membership_not_found")
    | some target => .ok target

/-- The count of active administrators. -/
def activeAdmins : Nat :=
  (store.memberships.rows.filter isActiveAdmin).length

/-- `_protect_last_admin`. -/
def protectLastAdmin (target : OrganizationMembership) : Except Refusal Unit :=
  if isActiveAdmin target = false then .ok ()
  else if store.activeAdmins ≤ 1 then
    .error (.http 409 "last_active_organization_admin")
  else .ok ()

/-- `set_role`. -/
def setRole (env : RequestEnv) (membershipId : String)
    (role : OrganizationRole) : Except Refusal OrganizationStore := do
  store.authorize env
  let target ← store.lockedTarget env.actorIdentityId membershipId
  raiseIf (target.status = .removed) (.http 409 "membership_removed")
  runIf (role ≠ .organizationAdmin) (store.protectLastAdmin target)
  return { store with
    memberships := store.memberships.update (fun m => m.id = membershipId)
      fun m => { m with role := role, updatedAt := env.clock 1 } }

/-- The status a transition is made from, and the one it leads to. -/
def transition (target : OrganizationMembership) :
    StatusTransition → MembershipStatus × MembershipStatus
  | .suspend => (.active, .suspended)
  | .reactivate => (.suspended, .active)
  | .remove =>
      (if target.status = .suspended then .suspended else .active, .removed)

/-- `set_status`. -/
def setStatus (env : RequestEnv) (membershipId : String)
    (change : StatusTransition) : Except Refusal OrganizationStore := do
  store.authorize env
  let target ← store.lockedTarget env.actorIdentityId membershipId
  raiseIf (target.status ≠ (transition target change).1)
    (.http 409 "invalid_membership_transition")
  let status := (transition target change).2
  runIf (status ≠ .active) (store.protectLastAdmin target)
  return { store with
    memberships := store.memberships.update (fun m => m.id = membershipId)
      fun m => { m with status := status, updatedAt := env.clock 1 } }

end OrganizationStore

end PatentEvidence.Organization
