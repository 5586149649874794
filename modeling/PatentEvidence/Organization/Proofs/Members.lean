/-
An organization keeps an active administrator, whatever its members do.

A change that takes an active administrator away is refused while there is
no second one, and the second stays: the change touches one row. Every
other change leaves the active administrators there are, or makes one
more. This is the step (`hasAdmin_execute`); the run is its induction
(`admin_remains`), and on the way every change of a role or a status was
asked for by an active administrator of that moment.

An acceptance is made by whoever the invitation is for, who need not be a
member, so "every change" has that one exception (`newcomer_accepts`).

# Sections

- what is asked before a change;
- what the other steps leave;
- the step, and runs;
- an acceptance by a newcomer.
-/
import PatentEvidence.Lib.Run
import PatentEvidence.Organization.Proofs.Steps

namespace PatentEvidence.Organization

open Auth (IdentityStatus)
open Cases (Refusal orDatabase orDatabase_eq_ok)
open Fallible OrganizationStore Runs

variable {digestSecret lower : String → String}
  {store next : OrganizationStore} {env : RequestEnv}

-- ======================================= what is asked before a change

/-- The organization has an active administrator. -/
def HasAdmin (store : OrganizationStore) : Prop :=
  ∃ m ∈ store.memberships.rows, isActiveAdmin m = true

/-- The identity is one. -/
def IsAdmin (store : OrganizationStore) (identityId : String) : Prop :=
  ∃ m ∈ store.memberships.rows,
    m.globalIdentityId = identityId ∧ isActiveAdmin m = true

theorem lockedTarget_eq_ok {actorIdentityId membershipId : String}
    {target : OrganizationMembership}
    (h : store.lockedTarget actorIdentityId membershipId = .ok target) :
    IsAdmin store actorIdentityId ∧ target ∈ store.memberships.rows
      ∧ target.id = membershipId := by
  unfold lockedTarget at h
  dsimp only at h
  split at h
  · cases h
  · next hactor =>
      split at h
      · cases h
      · next hfind =>
          cases h
          rw [Bool.not_eq_false, List.any_eq_true] at hactor
          obtain ⟨m, hm, hadmin⟩ := hactor
          rw [Bool.and_eq_true, decide_eq_true_eq] at hadmin
          exact ⟨⟨m, hm, hadmin⟩, Table.find?_eq_some hfind⟩

/-- An administrator that may be lost is not the only one. -/
theorem protectLastAdmin_eq_ok {target : OrganizationMembership} {u : Unit}
    (h : store.protectLastAdmin target = .ok u)
    (hadmin : isActiveAdmin target = true) : 2 ≤ store.activeAdmins := by
  unfold protectLastAdmin at h
  rw [if_neg (by simp [hadmin])] at h
  split at h
  · cases h
  · omega

/-- Of two administrators one is another than a given row. -/
theorem exists_other_admin (h : 2 ≤ store.activeAdmins)
    (target : OrganizationMembership) :
    ∃ m ∈ store.memberships.rows, isActiveAdmin m = true ∧ m ≠ target := by
  have hnodup : (store.memberships.rows.filter isActiveAdmin).Nodup :=
    (List.Nodup.of_map _ store.memberships.nodup).filter _
  obtain ⟨m, hm, hne⟩ := Table.exists_ne_of_two_le hnodup h target
  obtain ⟨hin, hadmin⟩ := List.mem_filter.mp hm
  exact ⟨m, hin, hadmin, hne⟩

/-- A change of one membership, which its actor was an administrator for:
where it takes an administrator away there is a second one. -/
structure Changes (store next : OrganizationStore) (actorIdentityId : String)
    (change : OrganizationMembership → OrganizationMembership) : Prop where
  actor : IsAdmin store actorIdentityId
  target : ∃ target ∈ store.memberships.rows,
    (isActiveAdmin target = true → isActiveAdmin (change target) = false →
      2 ≤ store.activeAdmins)
    ∧ next.memberships.rows = store.memberships.rows.map fun m =>
        if m.id = target.id then change m else m
  identities : next.identities = store.identities
  invitations : next.invitations = store.invitations

theorem setRole_eq_ok {membershipId : String} {role : OrganizationRole}
    (h : store.setRole env membershipId role = .ok next) :
    Changes store next env.actorIdentityId
      fun m => { m with role := role, updatedAt := env.clock 1 } := by
  obtain ⟨-, -, h⟩ := bind_eq_ok.mp h
  obtain ⟨target, htarget, h⟩ := bind_eq_ok.mp h
  obtain ⟨-, -, h⟩ := bind_eq_ok.mp h
  obtain ⟨u, hprotect, h⟩ := bind_eq_ok.mp h
  rw [pure_eq_ok] at h
  subst h
  obtain ⟨hactor, hin, rfl⟩ := lockedTarget_eq_ok htarget
  refine ⟨hactor, ⟨target, hin, fun hadmin hlost => ?_, by simp⟩, rfl, rfl⟩
  -- only a role other than the administrator's takes one away
  have hrole : role ≠ .organizationAdmin := by
    rintro rfl
    simp [isActiveAdmin] at hadmin hlost
    exact hlost hadmin.2
  exact protectLastAdmin_eq_ok (runIf_eq_ok.mp hprotect hrole) hadmin

theorem setStatus_eq_ok {membershipId : String} {change : StatusTransition}
    (h : store.setStatus env membershipId change = .ok next) :
    ∃ status, Changes store next env.actorIdentityId
      fun m => { m with status := status, updatedAt := env.clock 1 } := by
  obtain ⟨-, -, h⟩ := bind_eq_ok.mp h
  obtain ⟨target, htarget, h⟩ := bind_eq_ok.mp h
  obtain ⟨-, -, h⟩ := bind_eq_ok.mp h
  obtain ⟨u, hprotect, h⟩ := bind_eq_ok.mp h
  rw [pure_eq_ok] at h
  subst h
  obtain ⟨hactor, hin, rfl⟩ := lockedTarget_eq_ok htarget
  refine ⟨(transition target change).2, hactor,
    ⟨target, hin, fun hadmin hlost => ?_, by simp⟩, rfl, rfl⟩
  -- only a status other than active takes one away
  have hstatus : (transition target change).2 ≠ .active := by
    intro hactive
    simp [isActiveAdmin, hactive] at hadmin hlost
    exact hlost hadmin.1
  exact protectLastAdmin_eq_ok (runIf_eq_ok.mp hprotect hstatus) hadmin

theorem Changes.hasAdmin {actorIdentityId : String}
    {change : OrganizationMembership → OrganizationMembership}
    (h : Changes store next actorIdentityId change) (hs : HasAdmin store) :
    HasAdmin next := by
  obtain ⟨target, hin, hsecond, hrows⟩ := h.target
  -- a row other than the target is as it was
  have hkept {m : OrganizationMembership} (hm : m ∈ store.memberships.rows)
      (hadmin : isActiveAdmin m = true) (hne : m ≠ target) : HasAdmin next := by
    refine ⟨m, ?_, hadmin⟩
    rw [hrows]
    refine List.mem_map.mpr ⟨m, hm, if_neg fun hid => hne ?_⟩
    exact store.memberships.eq_of_key_eq hm hin hid
  obtain ⟨m, hm, hadmin⟩ := hs
  by_cases hne : m = target
  · subst hne
    cases hchange : isActiveAdmin (change m) with
    | true =>
        refine ⟨change m, ?_, hchange⟩
        rw [hrows]
        exact List.mem_map.mpr ⟨m, hm, if_pos rfl⟩
    | false =>
        obtain ⟨other, hother, hadmin', hne⟩ :=
          exists_other_admin (hsecond hadmin hchange) m
        exact hkept hother hadmin' hne
  · exact hkept hm hadmin hne

-- ========================================== what the other steps leave

/-- Whoever joins, the administrators stay: only a removed membership is
written over. -/
theorem Joins.hasAdmin {identityId email : String} {role : OrganizationRole}
    (h : Joins store next identityId email role) (hs : HasAdmin store) :
    HasAdmin next := by
  obtain ⟨m, hm, hadmin⟩ := hs
  rcases h.memberships with ⟨-, added, -, -, -, hrows⟩
    | ⟨removed, hin, -, hremoved, now, hrows⟩
  · exact ⟨m, hrows ▸ List.mem_append_left _ hm, hadmin⟩
  · refine ⟨m, ?_, hadmin⟩
    rw [hrows]
    refine List.mem_map.mpr ⟨m, hm, if_neg fun hid => ?_⟩
    rw [store.memberships.eq_of_key_eq hm hin hid] at hadmin
    simp [isActiveAdmin, hremoved] at hadmin

theorem hasAdmin_of_eq (h : next.memberships = store.memberships)
    (hs : HasAdmin store) : HasAdmin next := by
  obtain ⟨m, hm, hadmin⟩ := hs
  exact ⟨m, h ▸ hm, hadmin⟩

-- ================================================== the step, and runs

theorem hasAdmin_execute {op : OrganizationOp} (hs : HasAdmin store)
    (h : store.execute digestSecret lower env op = .ok next) : HasAdmin next := by
  cases op with
  | setRole membershipId role => exact (setRole_eq_ok h).hasAdmin hs
  | setStatus membershipId change =>
      obtain ⟨status, hchanges⟩ := setStatus_eq_ok h
      exact hchanges.hasAdmin hs
  | create email role =>
      exact hasAdmin_of_eq (createInvitation_eq_ok h).1.memberships hs
  | revoke invitationId =>
      exact hasAdmin_of_eq (revokeInvitation_eq_ok h).1.memberships hs
  | resend invitationId =>
      exact hasAdmin_of_eq (resendInvitation_eq_ok h).1.memberships hs
  | inspect request token =>
      exact hasAdmin_of_eq (inspectInvitation_eq_ok h).2.1 hs
  | startAcceptance request displayName password =>
      exact hasAdmin_of_eq (startAcceptance_eq_ok h).2.1 hs
  | accept request =>
      obtain ⟨start, invitation, identityId, haccepts⟩ := acceptInvitation_eq_ok h
      exact haccepts.joins.hasAdmin hs
  | identityCreated identity =>
      obtain ⟨-, -, h⟩ := bind_eq_ok.mp h
      obtain ⟨identities, -, h⟩ := bind_eq_ok.mp h
      rw [pure_eq_ok] at h
      exact hasAdmin_of_eq (by rw [← h]) hs
  | identityStatus identityId status =>
      have hnext := pure_eq_ok.mp h
      exact hasAdmin_of_eq (by rw [← hnext]) hs

/-- Who asks for a change of a member's role or status. -/
def askedBy : OrganizationOp × RequestEnv → Option String
  | (.setRole .., env) | (.setStatus .., env) => some env.actorIdentityId
  | _ => none

/-- Who has accepted an invitation, by the rows an acceptance leaves. -/
def acceptedBy (next : OrganizationStore) :
    OrganizationOp × RequestEnv → Option String
  | (.accept request, _) => do
      let preview ← next.previews.find? request
      let invitation ← next.invitations.find? preview.invitationId
      let identity ← next.identities.rows.find? fun i =>
        i.emailNormalized = invitation.emailNormalized
      return identity.id
  | _ => none

/-- An accepted change of a role or status is an active administrator's. -/
def AskedByAdmin (digestSecret lower : String → String)
    (store : OrganizationStore) (event : OrganizationOp × RequestEnv) : Prop :=
  ∀ next, store.serve digestSecret lower event = .ok next →
    ∀ actor ∈ askedBy event, IsAdmin store actor

/-- And an accepted invitation an active administrator's. -/
def AcceptedByAdmin (digestSecret lower : String → String)
    (store : OrganizationStore) (event : OrganizationOp × RequestEnv) : Prop :=
  ∀ next, store.serve digestSecret lower event = .ok next →
    ∀ actor ∈ acceptedBy next event, IsAdmin store actor

theorem askedByAdmin (store : OrganizationStore)
    (event : OrganizationOp × RequestEnv) :
    AskedByAdmin digestSecret lower store event := by
  intro next hserve actor hactor
  obtain ⟨op, env⟩ := event
  obtain ⟨h, -⟩ := serve_eq_ok.mp hserve
  cases op with
  | setRole membershipId role =>
      cases hactor
      exact (setRole_eq_ok h).actor
  | setStatus membershipId change =>
      cases hactor
      obtain ⟨status, hchanges⟩ := setStatus_eq_ok h
      exact hchanges.actor
  | _ => cases hactor

/-- An organization that has an active administrator has one in every state
of every run, and in the run every change of a role or a status that was
accepted was asked for by an active administrator of the state it was made
in. -/
theorem admin_remains (digestSecret lower : String → String)
    (store : OrganizationStore) (hadmin : HasAdmin store)
    (events : List (OrganizationOp × RequestEnv)) :
    Always (afterAdministration digestSecret lower) HasAdmin store events
      ∧ Along (afterAdministration digestSecret lower)
        (AskedByAdmin digestSecret lower) store events := by
  refine ⟨always_of_forall (fun s event hs => ?_) hadmin,
    along_of_forall askedByAdmin⟩
  exact settle_of_forall hs fun _ h => hasAdmin_execute hs (serve_eq_ok.mp h).1

-- ================================== a newcomer accepts, and takes over

def invitationOfBob : OrganizationInvitation where
  id := "i-bob"
  emailNormalized := "bob@example.test"
  role := .reviewer
  tokenHash := "token"
  status := .pending
  invitedBy := "alice"
  expiresAt := 100
  acceptedAt := none
  revokedAt := none
  createdAt := 0
  updatedAt := 0

/-- An organization of one administrator, who has invited a reviewer. -/
def oneAdmin : OrganizationStore where
  organization := { status := .active, expiresAt := none }
  identities := ⟨[{ id := "alice", emailNormalized := "alice@example.test"
                    displayName := "Alice", status := .active
                    passwordHash := some "hash" }], by decide⟩
  memberships := ⟨[{ id := "m-alice", globalIdentityId := "alice"
                     role := .organizationAdmin, status := .active
                     createdAt := 0, updatedAt := 0 }], by decide⟩
  invitations := ⟨[invitationOfBob], by decide⟩
  previews := .empty

def requestOf (actor : String) (now : Timestamp) : RequestEnv where
  clock _ := now
  uuids n := if n = 0 then "bob" else "m-bob"
  token := ""
  actorIdentityId := actor
  commits := true

/-- The invited accepts. -/
def bobAccepts : List (OrganizationOp × RequestEnv) :=
  [(.inspect "request" "token", requestOf "" 1),
   (.startAcceptance "request" (some "Bob") (some (.hashed "hash")), requestOf "" 2),
   (.accept "request", requestOf "" 3)]

/-- He becomes an administrator, and the first one is removed. -/
def bobTakesOver : List (OrganizationOp × RequestEnv) :=
  bobAccepts ++ [(.setRole "m-bob" .organizationAdmin, requestOf "alice" 4),
    (.setStatus "m-alice" .remove, requestOf "bob" 5)]

theorem admin_remains_bobTakesOver :
    (Always (afterAdministration id id) HasAdmin oneAdmin bobTakesOver
        ∧ Along (afterAdministration id id) (AskedByAdmin id id) oneAdmin
          bobTakesOver)
      ∧ (run (afterAdministration id id) oneAdmin bobTakesOver).activeAdmins
        = 1 :=
  ⟨admin_remains id id oneAdmin ⟨_, List.mem_cons_self, by decide⟩ bobTakesOver,
    by decide⟩

/-- The newcomer's membership is a change an administrator did not make. -/
theorem newcomer_accepts :
    ¬ Along (afterAdministration id id)
      (fun store event => AskedByAdmin id id store event
        ∧ AcceptedByAdmin id id store event) oneAdmin bobAccepts := by
  intro h
  obtain ⟨-, -, ⟨-, haccepted⟩, -⟩ := h
  let store := run (afterAdministration id id) oneAdmin (bobAccepts.take 2)
  let event : OrganizationOp × RequestEnv := (.accept "request", requestOf "" 3)
  have hok : (store.serve id id event).isOk = true := by decide
  have hactor : acceptedBy (afterAdministration id id store event) event
      = some "bob" := by decide
  have hnot : ¬ ∃ m ∈ store.memberships.rows,
      m.globalIdentityId = "bob" ∧ isActiveAdmin m = true := by decide
  unfold afterAdministration at hactor
  cases hserve : store.serve id id event with
  | error e =>
      rw [hserve] at hok
      cases hok
  | ok next =>
      rw [hserve] at hactor
      exact hnot (haccepted next hserve "bob" hactor)

end PatentEvidence.Organization
