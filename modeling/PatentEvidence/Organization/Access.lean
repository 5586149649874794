/-
Audited mutations of one organization (apps/api/…/organization/access.py,
`OrganizationAccess.mutation`, organization/audit.py, and the routes of
organization/api.py).

A mutation first finds its principal, in a transaction of its own, and asks
for a recent second factor. Then its transaction takes the organization's
authority lock, asks for the administrator's rights again, does the work
and writes its entry; an exception there, or before, is recorded by one
more transaction. These are the steps of `Audited`, whose data are the rows
of the organization.

An exception that is not an answer to the client is recorded as a failure,
except where the principal is being found: there nothing is recorded. The
id and the time of an entry are left out, and so are the entries that
acceptances of invitations make, which are not mutations.
-/
import PatentEvidence.Lib.Audited
import PatentEvidence.Organization.Invitations

namespace PatentEvidence.Organization

open Cases (Refusal)
open Audited

-- =============================================================== entries

inductive AuditResult
  | allowed
  | denied
  | failed
  deriving DecidableEq

structure OrganizationAuditEvent where
  actorIdentityId : Option String
  action : String
  targetType : String
  targetId : Option String
  result : AuditResult
  requestCorrelationId : String
  safeSummary : String
  deriving DecidableEq

/-- `s[:n]`. -/
def clip (n : Nat) (s : String) : String := String.ofList (s.toList.take n)

/-- `OrganizationAuditWriter.append`: what it writes of an event. -/
def append (event : OrganizationAuditEvent) : OrganizationAuditEvent :=
  { event with
    requestCorrelationId := clip 128 event.requestCorrelationId
    safeSummary := clip 500 event.safeSummary }

-- ============================================================= mutations

/-- The bodies of the routes; an identifier that is no UUID is `none`, and
so is a body that does not validate. -/
inductive OrganizationWork
  | createInvitation (body : Option (String × OrganizationRole))
  | revokeInvitation (target : Option String)
  | resendInvitation (target : Option String)
  | changeMemberRole (target : Option String) (body : Option OrganizationRole)
  | changeMemberStatus (target : Option String) (transition : StatusTransition)

def StatusTransition.name : StatusTransition → String
  | .suspend => "suspend"
  | .reactivate => "reactivate"
  | .remove => "remove"

namespace OrganizationWork

def action : OrganizationWork → String
  | .createInvitation _ => "organization.invitation.create"
  | .revokeInvitation _ => "organization.invitation.revoke"
  | .resendInvitation _ => "organization.invitation.resend"
  | .changeMemberRole _ _ => "organization.member.role_change"
  | .changeMemberStatus _ transition => "organization.member." ++ transition.name

def targetType : OrganizationWork → String
  | .changeMemberRole _ _ => "organization_membership"
  | .changeMemberStatus _ _ => "organization_membership"
  | _ => "organization_invitation"

/-- The `target_id` a mutation is opened with. -/
def targetId : OrganizationWork → Option String
  | .createInvitation _ => none
  | .revokeInvitation target => target
  | .resendInvitation target => target
  | .changeMemberRole target _ => target
  | .changeMemberStatus target _ => target

/-- The step of the administration that the work is, where it is well
formed. -/
def op : OrganizationWork → Option OrganizationOp
  | .createInvitation (some (email, role)) => some (.create email role)
  | .revokeInvitation (some target) => some (.revoke target)
  | .resendInvitation (some target) => some (.resend target)
  | .changeMemberRole (some target) (some role) => some (.setRole target role)
  | .changeMemberStatus (some target) transition =>
      some (.setStatus target transition)
  | _ => none

end OrganizationWork

/-- `OrganizationMutation`, and the principal once there is one. -/
structure OrganizationMutation where
  work : OrganizationWork
  principal : Option String
  correlationId : String

variable (digestSecret lower : String → String)

/-- The block a route runs under its mutation, with what it describes: the
target and the summary. -/
def OrganizationStore.perform (store : OrganizationStore) (env : RequestEnv) :
    OrganizationWork → Except Refusal (OrganizationStore × Option String × String)
  | .createInvitation none => do
      store.authorize env
      throw (.http 422 "invalid_organization_mutation_request")
  | .createInvitation (some (email, role)) => do
      let next ← store.createInvitation digestSecret lower env email role
      return (next, some (env.uuids 0), "Created organization invitation")
  | .revokeInvitation none => do
      store.authorize env
      throw (.http 422 "invalid_invitation_id")
  | .revokeInvitation (some target) => do
      let next ← store.revokeInvitation env target
      return (next, some target, "Revoked organization invitation")
  | .resendInvitation none => do
      store.authorize env
      throw (.http 422 "invalid_invitation_id")
  | .resendInvitation (some target) => do
      let next ← store.resendInvitation digestSecret env target
      return (next, some (env.uuids 0), "Replaced organization invitation")
  | .changeMemberRole none _ => do
      store.authorize env
      throw (.http 422 "invalid_membership_id")
  | .changeMemberRole (some _) none => do
      store.authorize env
      throw (.http 422 "invalid_organization_mutation_request")
  | .changeMemberRole (some target) (some role) => do
      let next ← store.setRole env target role
      return (next, some target, "Changed organization member role")
  | .changeMemberStatus none _ => do
      store.authorize env
      throw (.http 422 "invalid_membership_id")
  | .changeMemberStatus (some target) transition => do
      let next ← store.setStatus env target transition
      return (next, some target,
        "Changed organization member status: " ++ transition.name)

/-- The environment of a mutation's transaction: its actor is the
principal. -/
def OrganizationMutation.env (mutation : OrganizationMutation)
    (env : RequestEnv) : RequestEnv :=
  { env with actorIdentityId := mutation.principal.getD "" }

/-- The transaction: the work and its entry, which commit together. What is
raised comes with the target described by then. -/
def attempt (store : OrganizationStore) (mutation : OrganizationMutation)
    (env : RequestEnv) :
    Except (Refusal × Option String) (OrganizationStore × OrganizationAuditEvent) :=
  match store.perform digestSecret lower (mutation.env env) mutation.work with
  | .error refusal => .error (refusal, mutation.work.targetId)
  | .ok (next, targetId, safeSummary) =>
      if env.commits then
        .ok (next, append {
          actorIdentityId := mutation.principal
          action := mutation.work.action
          targetType := mutation.work.targetType
          targetId := targetId
          result := .allowed
          requestCorrelationId := mutation.correlationId
          safeSummary := safeSummary })
      else .error (.database, targetId)

/-- The two `except` clauses of `mutation`. -/
def reject (mutation : OrganizationMutation) (raised : Refusal × Option String) :
    OrganizationAuditEvent :=
  let (result, safeSummary) := match raised.1 with
    | .http _ _ => (AuditResult.denied, "Organization mutation rejected")
    | _ => (AuditResult.failed, "Organization mutation failed")
  append {
    actorIdentityId := mutation.principal
    action := mutation.work.action
    targetType := mutation.work.targetType
    targetId := raised.2
    result := result
    requestCorrelationId := mutation.correlationId
    safeSummary := safeSummary }

def protocol : Protocol OrganizationStore OrganizationMutation RequestEnv
    (Refusal × Option String) OrganizationAuditEvent where
  attempt := attempt digestSecret lower
  reject := reject

-- ================================================================= steps

/-- What finding the principal comes to. -/
inductive PrincipalOutcome
  /-- an `HTTPException` -/
  | refused (status : Nat) (detail : String)
  /-- any other exception -/
  | raised
  | resolved (identityId : String) (recentMfa : Bool)

inductive AccessOp
  | begin (request : String) (work : OrganizationWork) (correlationId : String)
      (outcome : PrincipalOutcome)
  | transact (request : String) (env : RequestEnv)
  | record (request : String) (kept : Bool)
  /-- the process of a request ends -/
  | lose (request : String)
  /-- a step of an acceptance, or of an identity elsewhere -/
  | elsewhere (event : OrganizationOp × RequestEnv)

/-- The steps that are mutations of an administrator. -/
def OrganizationOp.isMutation : OrganizationOp → Bool
  | .setRole _ _ => true
  | .setStatus _ _ => true
  | .create _ _ => true
  | .revoke _ => true
  | .resend _ => true
  | _ => false

abbrev AccessEvent :=
  Event OrganizationMutation RequestEnv (Refusal × Option String)
    (OrganizationOp × RequestEnv)

/-- The audited step; none where the principal's transaction fails. -/
def AccessOp.event? : AccessOp → Option AccessEvent
  | .begin request work correlationId outcome =>
      match outcome with
      | .refused status detail => some (.refuse request
          { work := work, principal := none, correlationId := correlationId }
          (.http status detail, work.targetId))
      | .raised => none
      | .resolved identityId false => some (.refuse request
          { work := work, principal := some identityId
            correlationId := correlationId }
          (.http 403 "mfa_required", work.targetId))
      | .resolved identityId true => some (.allow request
          { work := work, principal := some identityId
            correlationId := correlationId })
  | .transact request env => some (.transact request env)
  | .record request kept => some (.record request kept)
  | .lose request => some (.lose request)
  | .elsewhere event =>
      if event.1.isMutation then none else some (.elsewhere event)

abbrev AccessSystem :=
  System OrganizationStore OrganizationMutation OrganizationAuditEvent

/-- The organization, its trail and its requests after one step. -/
def afterAccess (system : AccessSystem) (op : AccessOp) : AccessSystem :=
  match op.event? with
  | none => system
  | some event => step (protocol digestSecret lower)
      (afterAdministration digestSecret lower) system event

/-- An organization whose trail is empty and that no request is at. -/
def unaudited (store : OrganizationStore) : AccessSystem :=
  { data := store, trail := [], inProgress := .empty }

end PatentEvidence.Organization
