/-
What holds of an organization's invitations, and when none is accepted
after its expiry.

A token is used up by the acceptance, the revocation or the resend of its
invitation: each ends the invitation, no step makes an ended one pending
again, and an acceptance needs a pending one of the token's digest. The
database keeps digests, pending emails, emails of identities and members
apart (`Constraints`), and each step keeps them so; an acceptance then
leaves one membership for its email, and no two invitations of one email
are pending.

Expiry is another matter. An acceptance compares it with the clock as it
was before it waited for its locks, so one that waits past the expiry still
goes through. Of those that go through, the ones in time are those during
none of whose waits the expiry comes (`InTimeIff`); the condition is that no
wait outlasts a pending invitation (`Timely`).

# Sections

- what the database keeps;
- tokens, statuses and memberships;
- deadlines and waits;
- runs;
- an acceptance that waits.
-/
import PatentEvidence.Organization.Proofs.Members

namespace PatentEvidence.Organization

open Cases (Refusal orDatabase orDatabase_eq_ok)
open Fallible OrganizationStore Runs

variable {digestSecret lower : String → String}
  {store next : OrganizationStore} {env : RequestEnv}

-- ============================================== what the database keeps

/-- The unique constraints and indexes on these tables. -/
structure Constraints (store : OrganizationStore) : Prop where
  emails : (store.identities.rows.map IdentityRow.emailNormalized).Nodup
  members : (store.memberships.rows.map
    OrganizationMembership.globalIdentityId).Nodup
  digests : (store.invitations.rows.map OrganizationInvitation.tokenHash).Nodup
  pending : ∀ i ∈ store.invitations.rows, ∀ j ∈ store.invitations.rows,
    i.status = .pending → j.status = .pending →
    i.emailNormalized = j.emailNormalized → i = j

theorem Moves.digests (h : Moves store next)
    (hs : (store.invitations.rows.map OrganizationInvitation.tokenHash).Nodup) :
    (next.invitations.rows.map OrganizationInvitation.tokenHash).Nodup := by
  obtain ⟨f, added, hrows, hf, hone, hadded⟩ := h
  have hold : (store.invitations.rows.map f).map OrganizationInvitation.tokenHash
      = store.invitations.rows.map OrganizationInvitation.tokenHash := by
    rw [List.map_map]
    exact List.map_congr_left fun row hrow => (hf row hrow).digest
  rw [hrows, List.map_append, hold]
  match added with
  | [] => rwa [List.map_nil, List.append_nil]
  | [i] =>
      obtain ⟨-, hdigest, -⟩ := hadded i List.mem_cons_self
      rw [← List.map_append]
      exact Table.nodup_map_concat hs hdigest
  | _ :: _ :: _ => simp at hone

theorem Moves.pending (h : Moves store next) (hs : Constraints store) :
    ∀ i ∈ next.invitations.rows, ∀ j ∈ next.invitations.rows,
      i.status = .pending → j.status = .pending →
      i.emailNormalized = j.emailNormalized → i = j := by
  obtain ⟨f, added, hrows, hf, hone, hadded⟩ := h
  -- an old one against the one added
  have happart {row i : OrganizationInvitation}
      (hrow : row ∈ store.invitations.rows) (hi : i ∈ added)
      (hp : (f row).status = .pending)
      (hemail : (f row).emailNormalized = i.emailNormalized) : False :=
    (hadded i hi).2.2 row hrow hp ((hf row hrow).email.symm.trans hemail)
  rw [hrows]
  intro i hi j hj hpi hpj hemail
  rcases List.mem_append.mp hi with hi | hi
  · obtain ⟨a, ha, rfl⟩ := List.mem_map.mp hi
    rcases List.mem_append.mp hj with hj | hj
    · obtain ⟨b, hb, rfl⟩ := List.mem_map.mp hj
      rw [(hf a ha).email, (hf b hb).email] at hemail
      rw [hs.pending a ha b hb ((hf a ha).pending hpi) ((hf b hb).pending hpj)
        hemail]
    · exact (happart ha hj hpi hemail).elim
  · rcases List.mem_append.mp hj with hj | hj
    · obtain ⟨b, hb, rfl⟩ := List.mem_map.mp hj
      exact (happart hb hi hpj hemail.symm).elim
    · match added with
      | [] => cases hi
      | [k] => exact (List.mem_singleton.mp hi).trans (List.mem_singleton.mp hj).symm
      | _ :: _ :: _ => simp at hone

theorem Constraints.of_moves (hs : Constraints store) (h : Moves store next)
    (hidentities : next.identities = store.identities)
    (hmemberships : next.memberships = store.memberships) : Constraints next where
  emails := hidentities ▸ hs.emails
  members := hmemberships ▸ hs.members
  digests := h.digests hs.digests
  pending := h.pending hs

theorem Joins.emails {identityId email : String} {role : OrganizationRole}
    (h : Joins store next identityId email role) (hs : Constraints store) :
    (next.identities.rows.map IdentityRow.emailNormalized).Nodup := by
  rcases h.identities with ⟨hsame, -⟩ | ⟨hnone, i, -, hemail, hrows⟩
  · exact hsame ▸ hs.emails
  · rw [hrows]
    exact Table.nodup_map_concat hs.emails fun j hj heq =>
      hnone j hj (heq.trans hemail)

theorem Joins.members {identityId email : String} {role : OrganizationRole}
    (h : Joins store next identityId email role) (hs : Constraints store) :
    (next.memberships.rows.map OrganizationMembership.globalIdentityId).Nodup := by
  rcases h.memberships with ⟨hnone, m, hidentity, -, -, hrows⟩
    | ⟨m, -, -, -, now, hrows⟩
  · rw [hrows]
    exact Table.nodup_map_concat hs.members fun m' hm' heq =>
      hnone m' hm' (heq.trans hidentity)
  · have hsame : next.memberships.rows.map OrganizationMembership.globalIdentityId
        = store.memberships.rows.map OrganizationMembership.globalIdentityId := by
      rw [hrows]
      apply Table.map_rewrite_of_fixed
      intro m'
      rfl
    rw [hsame]
    exact hs.members

/-- A change of a membership keeps whose it is. -/
theorem Constraints.of_changes {actorIdentityId : String}
    {change : OrganizationMembership → OrganizationMembership}
    (hs : Constraints store) (h : Changes store next actorIdentityId change)
    (hchange : ∀ m, (change m).globalIdentityId = m.globalIdentityId) :
    Constraints next := by
  obtain ⟨target, -, -, hrows⟩ := h.target
  have hsame : next.memberships.rows.map OrganizationMembership.globalIdentityId
      = store.memberships.rows.map OrganizationMembership.globalIdentityId := by
    rw [hrows]
    exact Table.map_rewrite_of_fixed hchange _ _
  exact {
    emails := h.identities ▸ hs.emails
    members := hsame ▸ hs.members
    digests := h.invitations ▸ hs.digests
    pending := h.invitations ▸ hs.pending }

theorem constraints_execute {op : OrganizationOp} (hs : Constraints store)
    (h : store.execute digestSecret lower env op = .ok next) :
    Constraints next := by
  cases op with
  | setRole membershipId role =>
      exact hs.of_changes (setRole_eq_ok h) fun _ => rfl
  | setStatus membershipId change =>
      obtain ⟨status, hchanges⟩ := setStatus_eq_ok h
      exact hs.of_changes hchanges fun _ => rfl
  | create email role =>
      obtain ⟨honly, hmoves⟩ := createInvitation_eq_ok h
      exact hs.of_moves hmoves honly.identities honly.memberships
  | revoke invitationId =>
      obtain ⟨honly, hmoves, -⟩ := revokeInvitation_eq_ok h
      exact hs.of_moves hmoves honly.identities honly.memberships
  | resend invitationId =>
      obtain ⟨honly, hmoves, -⟩ := resendInvitation_eq_ok h
      exact hs.of_moves hmoves honly.identities honly.memberships
  | inspect request token =>
      obtain ⟨hidentities, hmemberships, hinvitations⟩ := inspectInvitation_eq_ok h
      exact hs.of_moves (.of_eq hinvitations) hidentities hmemberships
  | startAcceptance request displayName password =>
      obtain ⟨hidentities, hmemberships, hinvitations⟩ := startAcceptance_eq_ok h
      exact hs.of_moves (.of_eq hinvitations) hidentities hmemberships
  | accept request =>
      obtain ⟨start, invitation, identityId, haccepts⟩ := acceptInvitation_eq_ok h
      exact {
        emails := haccepts.joins.emails hs
        members := haccepts.joins.members hs
        digests := haccepts.moves.digests hs.digests
        pending := haccepts.moves.pending hs }
  | identityCreated identity =>
      obtain ⟨u, hfresh, h⟩ := bind_eq_ok.mp h
      obtain ⟨identities, hinsert, h⟩ := bind_eq_ok.mp h
      rw [pure_eq_ok] at h
      subst h
      rw [raiseIf_eq_ok] at hfresh
      have hrows := (Table.insert?_eq_some.mp (orDatabase_eq_ok.mp hinsert)).2
      refine ⟨?_, hs.members, hs.digests, hs.pending⟩
      rw [hrows]
      exact Table.nodup_map_concat hs.emails fun i hi heq => hfresh ⟨i, hi, heq⟩
  | identityStatus identityId status =>
      have hnext := pure_eq_ok.mp h
      subst hnext
      refine ⟨?_, hs.members, hs.digests, hs.pending⟩
      have hsame : (store.identities.update (fun i => i.id = identityId)
          fun i => { i with status := status }).rows.map
            IdentityRow.emailNormalized
          = store.identities.rows.map IdentityRow.emailNormalized := by
        rw [Table.rows_update]
        apply Table.map_rewrite_of_fixed
        intro i
        rfl
      exact hsame ▸ hs.emails

theorem constraints_step (hs : Constraints store)
    (event : OrganizationOp × RequestEnv) :
    Constraints (afterAdministration digestSecret lower store event) :=
  settle_of_forall hs fun _ h => constraints_execute hs (serve_eq_ok.mp h).1

/-- What an accepted step does to the invitations. -/
theorem moves_execute {op : OrganizationOp}
    (h : store.execute digestSecret lower env op = .ok next) :
    Moves store next := by
  cases op with
  | setRole membershipId role => exact .of_eq (setRole_eq_ok h).invitations
  | setStatus membershipId change =>
      obtain ⟨status, hchanges⟩ := setStatus_eq_ok h
      exact .of_eq hchanges.invitations
  | create email role => exact (createInvitation_eq_ok h).2
  | revoke invitationId => exact (revokeInvitation_eq_ok h).2.1
  | resend invitationId => exact (resendInvitation_eq_ok h).2.1
  | inspect request token => exact .of_eq (inspectInvitation_eq_ok h).2.2
  | startAcceptance request displayName password =>
      exact .of_eq (startAcceptance_eq_ok h).2.2
  | accept request =>
      obtain ⟨start, invitation, identityId, haccepts⟩ := acceptInvitation_eq_ok h
      exact haccepts.moves
  | identityCreated identity =>
      obtain ⟨-, -, h⟩ := bind_eq_ok.mp h
      obtain ⟨identities, -, h⟩ := bind_eq_ok.mp h
      rw [pure_eq_ok] at h
      exact .of_eq (by rw [← h])
  | identityStatus identityId status =>
      have hnext := pure_eq_ok.mp h
      exact .of_eq (by rw [← hnext])

theorem moves_step (store : OrganizationStore)
    (event : OrganizationOp × RequestEnv) :
    Moves store (afterAdministration digestSecret lower store event) :=
  settle_of_forall (.of_eq rfl) fun _ h => moves_execute (serve_eq_ok.mp h).1

-- ===================================== tokens, statuses and memberships

/-- A step accepts an invitation by the token of this digest. -/
def AcceptsToken (digestSecret lower : String → String)
    (store : OrganizationStore) (event : OrganizationOp × RequestEnv)
    (digest : String) : Prop :=
  ∃ request preview next, event.1 = .accept request
    ∧ store.previews.find? request = some preview ∧ preview.tokenHash = digest
    ∧ store.serve digestSecret lower event = .ok next

/-- A step revokes or resends the invitation of this digest. -/
def EndsToken (digestSecret lower : String → String)
    (store : OrganizationStore) (event : OrganizationOp × RequestEnv)
    (digest : String) : Prop :=
  ∃ row ∈ store.invitations.rows, ∃ next, row.tokenHash = digest
    ∧ (event.1 = .revoke row.id ∨ event.1 = .resend row.id)
    ∧ store.serve digestSecret lower event = .ok next

/-- The invitation of this digest has ended. -/
def Ended (store : OrganizationStore) (digest : String) : Prop :=
  ∃ row ∈ store.invitations.rows, row.tokenHash = digest ∧ row.status ≠ .pending

theorem Ended.moves {digest : String} (h : Ended store digest)
    (hmoves : Moves store next) : Ended next digest := by
  obtain ⟨row, hrow, hdigest, hended⟩ := h
  obtain ⟨f, added, hrows, hf, -, -⟩ := hmoves
  refine ⟨f row, ?_, (hf row hrow).digest.trans hdigest, ?_⟩
  · rw [hrows]
    exact List.mem_append_left _ (List.mem_map_of_mem hrow)
  · rw [(hf row hrow).kept hended]
    exact hended

/-- A row of before a step, and no row of its id pending after it. -/
theorem ended_of_moves {row : OrganizationInvitation} (hmoves : Moves store next)
    (hrow : row ∈ store.invitations.rows)
    (hended : ∀ row' ∈ next.invitations.rows, row'.id = row.id →
      row'.status ≠ .pending) : Ended next row.tokenHash := by
  obtain ⟨f, added, hrows, hf, -, -⟩ := hmoves
  have hin : f row ∈ next.invitations.rows := by
    rw [hrows]
    exact List.mem_append_left _ (List.mem_map_of_mem hrow)
  exact ⟨f row, hin, (hf row hrow).digest, hended _ hin (hf row hrow).id⟩

/-- The invitation accepted by a token is the one of its digest. -/
theorem accepts_of_acceptsToken {event : OrganizationOp × RequestEnv}
    {digest : String} (h : AcceptsToken digestSecret lower store event digest) :
    ∃ request start invitation identityId,
      Accepts store (afterAdministration digestSecret lower store event)
        request start invitation identityId
      ∧ invitation.tokenHash = digest := by
  obtain ⟨request, preview, next, hop, hpreview, rfl, hserve⟩ := h
  obtain ⟨hexecute, -⟩ := serve_eq_ok.mp hserve
  rw [hop] at hexecute
  obtain ⟨start, invitation, identityId, haccepts⟩ :=
    acceptInvitation_eq_ok hexecute
  obtain ⟨preview', hpreview', -, -, hdigest⟩ := haccepts.preview
  cases hpreview.symm.trans hpreview'
  refine ⟨request, start, invitation, identityId, ?_, hdigest⟩
  unfold afterAdministration
  rw [hserve, settle_ok]
  exact haccepts

theorem ended_of_accepts {event : OrganizationOp × RequestEnv} {digest : String}
    (h : AcceptsToken digestSecret lower store event digest) :
    Ended (afterAdministration digestSecret lower store event) digest := by
  obtain ⟨request, start, invitation, identityId, haccepts, rfl⟩ :=
    accepts_of_acceptsToken h
  exact ended_of_moves haccepts.moves haccepts.found haccepts.ended

theorem ended_of_ends {event : OrganizationOp × RequestEnv} {digest : String}
    (h : EndsToken digestSecret lower store event digest) :
    Ended (afterAdministration digestSecret lower store event) digest := by
  obtain ⟨row, hrow, next, rfl, hop, hserve⟩ := h
  obtain ⟨hexecute, -⟩ := serve_eq_ok.mp hserve
  unfold afterAdministration
  rw [hserve, settle_ok]
  rcases hop with hop | hop
  · rw [hop] at hexecute
    obtain ⟨-, hmoves, hended⟩ := revokeInvitation_eq_ok hexecute
    exact ended_of_moves hmoves hrow hended
  · rw [hop] at hexecute
    obtain ⟨-, hmoves, hended⟩ := resendInvitation_eq_ok hexecute
    exact ended_of_moves hmoves hrow hended

/-- An acceptance needs a pending invitation of the token's digest, and
digests are distinct. -/
theorem not_accepts_of_ended {event : OrganizationOp × RequestEnv}
    {digest : String} (hs : Constraints store) (h : Ended store digest) :
    ¬ AcceptsToken digestSecret lower store event digest := by
  intro haccepted
  obtain ⟨request, start, invitation, identityId, haccepts, rfl⟩ :=
    accepts_of_acceptsToken haccepted
  obtain ⟨row, hrow, hdigest, hended⟩ := h
  have heq : row = invitation :=
    List.inj_on_of_nodup_map hs.digests hrow haccepts.found hdigest
  exact hended (heq ▸ haccepts.pending)

/-- The memberships of an email that are not removed. -/
def membershipsOf (store : OrganizationStore) (email : String) :
    List OrganizationMembership :=
  store.memberships.rows.filter fun m => m.status ≠ .removed
    && store.identities.rows.any fun i =>
      i.id = m.globalIdentityId && i.emailNormalized = email

/-- Whoever joins has one membership, of the role. -/
theorem Joins.membershipsOf {identityId email : String} {role : OrganizationRole}
    (h : Joins store next identityId email role) (hs : Constraints next) :
    ∃ m, membershipsOf next email = [m] ∧ m.role = role ∧ m.status = .active := by
  have hidentity : ∃ i ∈ next.identities.rows,
      i.id = identityId ∧ i.emailNormalized = email := by
    rcases h.identities with ⟨hsame, i, hi, hid, hemail⟩ | ⟨-, i, hid, hemail, hrows⟩
    · exact ⟨i, hsame ▸ hi, hid, hemail⟩
    · refine ⟨i, ?_, hid, hemail⟩
      rw [hrows]
      exact List.mem_append_right _ (List.mem_singleton.mpr rfl)
  have hmember : ∃ m ∈ next.memberships.rows, m.globalIdentityId = identityId
      ∧ m.role = role ∧ m.status = .active := by
    rcases h.memberships with ⟨-, m, hid, hrole, hactive, hrows⟩
      | ⟨m, hm, hid, -, now, hrows⟩
    · refine ⟨m, ?_, hid, hrole, hactive⟩
      rw [hrows]
      exact List.mem_append_right _ (List.mem_singleton.mpr rfl)
    · refine ⟨{ m with role := role, status := .active, updatedAt := now }, ?_,
        hid, rfl, rfl⟩
      rw [hrows]
      exact List.mem_map.mpr ⟨m, hm, if_pos rfl⟩
  obtain ⟨i, hi, hid, hemail⟩ := hidentity
  obtain ⟨m, hm, hmid, hrole, hactive⟩ := hmember
  refine ⟨m, ?_, hrole, hactive⟩
  unfold Organization.membershipsOf
  rw [← Table.filter_key_eq hs.members hm]
  refine List.filter_congr fun m' hm' => ?_
  rw [Bool.eq_iff_iff, Bool.and_eq_true, List.any_eq_true, decide_eq_true_eq,
    decide_eq_true_eq]
  constructor
  · rintro ⟨-, i', hi', hmatch⟩
    rw [Bool.and_eq_true, decide_eq_true_eq, decide_eq_true_eq] at hmatch
    have heq : i' = i := List.inj_on_of_nodup_map hs.emails hi' hi
      (hmatch.2.trans hemail.symm)
    rw [← hmatch.1, heq, hid, hmid]
  · intro hsame
    obtain rfl := List.inj_on_of_nodup_map hs.members hm' hm hsame
    refine ⟨fun h => ?_, i, hi, ?_⟩
    · rw [hactive] at h
      cases h
    · simp [hid, hmid, hemail]

-- ==================================================== deadlines and waits

/-- A deadline comes between two moments that follow one another. -/
def ComesBetween (deadline : Timestamp) (moments : List Timestamp) : Prop :=
  ∃ wait ∈ moments.zip moments.tail, wait.1 < deadline ∧ deadline ≤ wait.2

/-- What begins before the deadline ends before it when the deadline comes
during no wait. -/
theorem forall_lt_of_not_comesBetween {deadline first : Timestamp}
    {moments : List Timestamp} (hfirst : first < deadline)
    (h : ¬ ComesBetween deadline (first :: moments)) :
    ∀ moment ∈ first :: moments, moment < deadline := by
  induction moments generalizing first with
  | nil => exact List.forall_mem_singleton.mpr hfirst
  | cons second moments ih =>
      have hsecond : second < deadline := by
        by_contra hlate
        exact h ⟨(first, second), List.mem_cons_self, hfirst, not_lt.mp hlate⟩
      have hrest : ¬ ComesBetween deadline (second :: moments) := by
        rintro ⟨wait, hwait, hcomes⟩
        exact h ⟨wait, List.mem_cons_of_mem _ hwait, hcomes⟩
      exact List.forall_mem_cons.mpr ⟨hfirst, ih hsecond hrest⟩

theorem not_comesBetween_of_forall_lt {deadline : Timestamp}
    {moments : List Timestamp} (h : ∀ moment ∈ moments, moment < deadline) :
    ¬ ComesBetween deadline moments := by
  rintro ⟨wait, hwait, -, hlate⟩
  have hin := List.mem_of_mem_tail (List.of_mem_zip hwait).2
  exact absurd hlate (not_le.mpr (h wait.2 hin))

-- ================================================================= runs

/-- A token that a step accepts, revokes or resends is accepted by no later
one. -/
def TokenEnds (digestSecret lower : String → String) (s : OrganizationStore)
    (e : OrganizationOp × RequestEnv) (s' : OrganizationStore)
    (e' : OrganizationOp × RequestEnv) : Prop :=
  ∀ digest, AcceptsToken digestSecret lower s e digest
      ∨ EndsToken digestSecret lower s e digest →
    ¬ AcceptsToken digestSecret lower s' e' digest

/-- At most one invitation of an email is pending and unexpired, at any
time. -/
def OnePending (store : OrganizationStore) : Prop :=
  ∀ email now, (store.invitations.rows.filter fun i =>
    i.emailNormalized = email && i.status = .pending && now < i.expiresAt).length
      ≤ 1

/-- The invitation an accept request is about. -/
def IsFor (store : OrganizationStore) (request : String)
    (start : AcceptanceStart) (invitation : OrganizationInvitation) : Prop :=
  ∃ preview, store.previews.find? request = some preview
    ∧ preview.start = some start ∧ invitation ∈ store.invitations.rows
    ∧ invitation.id = preview.invitationId

/-- An accepted invitation leaves one membership of its email that is not
removed, of its role. -/
def YieldsMembership (digestSecret lower : String → String)
    (store : OrganizationStore) (event : OrganizationOp × RequestEnv) : Prop :=
  ∀ request start invitation next, event.1 = .accept request →
    IsFor store request start invitation →
    store.serve digestSecret lower event = .ok next →
    ∃ m, membershipsOf next invitation.emailNormalized = [m]
      ∧ m.role = invitation.role ∧ m.status = .active

/-- An invitation that has ended keeps its status. -/
def KeepsTerminal (digestSecret lower : String → String)
    (store : OrganizationStore) (event : OrganizationOp × RequestEnv) : Prop :=
  ∀ row ∈ store.invitations.rows, row.status ≠ .pending →
    ∃ row' ∈ (afterAdministration digestSecret lower store event).invitations.rows,
      row'.id = row.id ∧ row'.status = row.status

/-- An invitation is accepted before its expiry, by the clock when the
acceptance is executed. -/
def AcceptedInTime (digestSecret lower : String → String)
    (store : OrganizationStore) (event : OrganizationOp × RequestEnv) : Prop :=
  ∀ request start invitation next, event.1 = .accept request →
    IsFor store request start invitation →
    store.serve digestSecret lower event = .ok next →
    acceptanceExecuted event.2 < invitation.expiresAt

/-- A pending invitation does not expire while its acceptance waits for a
lock. -/
def Timely (store : OrganizationStore) (event : OrganizationOp × RequestEnv) :
    Prop :=
  ∀ request start invitation, event.1 = .accept request →
    IsFor store request start invitation → invitation.status = .pending →
    ¬ ComesBetween invitation.expiresAt (acceptanceMoments start event.2)

/-- Where the clock does not go back, an acceptance that goes through is in
time exactly when the expiry comes during none of its waits. -/
def InTimeIff (digestSecret lower : String → String)
    (store : OrganizationStore) (event : OrganizationOp × RequestEnv) : Prop :=
  ∀ request start invitation next, event.1 = .accept request →
    IsFor store request start invitation →
    store.serve digestSecret lower event = .ok next →
    (∀ moment ∈ acceptanceMoments start event.2,
      moment ≤ acceptanceExecuted event.2) →
    (acceptanceExecuted event.2 < invitation.expiresAt
      ↔ ¬ ComesBetween invitation.expiresAt (acceptanceMoments start event.2))

theorem onePending_of_constraints (hs : Constraints store) : OnePending store := by
  intro email now
  by_contra hlength
  have hnodup : (store.invitations.rows.filter fun i => i.emailNormalized = email
      && i.status = .pending && now < i.expiresAt).Nodup :=
    (List.Nodup.of_map _ store.invitations.nodup).filter _
  have hin {i : OrganizationInvitation}
      (hi : i ∈ store.invitations.rows.filter fun i => i.emailNormalized = email
        && i.status = .pending && now < i.expiresAt) :
      i ∈ store.invitations.rows ∧ i.emailNormalized = email
        ∧ i.status = .pending := by
    rw [List.mem_filter] at hi
    simp only [Bool.and_eq_true, decide_eq_true_eq] at hi
    exact ⟨hi.1, hi.2.1.1, hi.2.1.2⟩
  have htwo := Nat.lt_of_not_le hlength
  obtain ⟨i, hi⟩ := List.exists_mem_of_length_pos (Nat.zero_lt_of_lt htwo)
  obtain ⟨j, hj, hne⟩ := Table.exists_ne_of_two_le hnodup htwo i
  obtain ⟨hi, hemail, hpending⟩ := hin hi
  obtain ⟨hj, hemail', hpending'⟩ := hin hj
  exact hne (hs.pending j hj i hi hpending' hpending (hemail'.trans hemail.symm))

/-- The invitation a request is about is the one its acceptance found. -/
theorem IsFor.accepts {request : String} {start : AcceptanceStart}
    {invitation : OrganizationInvitation}
    (h : IsFor store request start invitation)
    (haccept : store.acceptInvitation env request = .ok next) :
    ∃ identityId, Accepts store next request start invitation identityId := by
  obtain ⟨start', found, identityId, haccepts⟩ := acceptInvitation_eq_ok haccept
  obtain ⟨preview, hpreview, hstart, hin, hid⟩ := h
  obtain ⟨preview', hpreview', hstart', hid', -⟩ := haccepts.preview
  cases hpreview.symm.trans hpreview'
  cases hstart.symm.trans hstart'
  obtain rfl := store.invitations.eq_of_key_eq haccepts.found hin
    (hid'.trans hid.symm)
  exact ⟨identityId, haccepts⟩

/-- What goes through was unexpired by its own reading, so it is executed
before the expiry when this comes during no wait. -/
theorem Accepts.executed_lt {request identityId : String} {start : AcceptanceStart}
    {invitation : OrganizationInvitation}
    (h : Accepts store next request start invitation identityId)
    (hwaits : ¬ ComesBetween invitation.expiresAt (acceptanceMoments start env)) :
    acceptanceExecuted env < invitation.expiresAt :=
  forall_lt_of_not_comesBetween h.unexpired hwaits _
    (List.mem_cons_of_mem _ (List.mem_map_of_mem (by simp)))

/-- In every run of an organization's administration: a token that is
accepted, revoked or resent is not accepted again; no two invitations of an
email are pending and unexpired; an accepted invitation leaves one
membership of its email, with its role; and what has ended keeps its
status. Where no wait for a lock outlasts a pending invitation, none is
accepted after its expiry; and an acceptance that goes through is in time
exactly when the expiry comes during none of its waits. -/
theorem invitations_sound (digestSecret lower : String → String)
    (store : OrganizationStore) (hs : Constraints store)
    (events : List (OrganizationOp × RequestEnv)) :
    Thereafter (afterAdministration digestSecret lower)
        (TokenEnds digestSecret lower) store events
      ∧ Always (afterAdministration digestSecret lower) OnePending store events
      ∧ Along (afterAdministration digestSecret lower)
        (YieldsMembership digestSecret lower) store events
      ∧ Along (afterAdministration digestSecret lower)
        (KeepsTerminal digestSecret lower) store events
      ∧ (Along (afterAdministration digestSecret lower) Timely store events →
        Along (afterAdministration digestSecret lower)
          (AcceptedInTime digestSecret lower) store events)
      ∧ Along (afterAdministration digestSecret lower)
        (InTimeIff digestSecret lower) store events := by
  have hany {s : OrganizationStore} : Along (afterAdministration digestSecret lower)
      (fun _ _ => True) s events := along_of_forall fun _ _ => trivial
  refine ⟨?_, ?_, ?_, ?_, ?_, ?_⟩
  · refine thereafter (I := Constraints)
      (K := fun s e s' => Constraints s' ∧ ∀ digest,
        AcceptsToken digestSecret lower s e digest
          ∨ EndsToken digestSecret lower s e digest → Ended s' digest)
      (fun s e hI _ => constraints_step hI e) (fun s e hI _ => ?_)
      (fun s e s' e' h => ?_) (fun s e s' e' h digest hends => ?_) hs hany
    · exact ⟨constraints_step hI e, fun digest h =>
        h.elim ended_of_accepts ended_of_ends⟩
    · exact ⟨constraints_step h.1 e', fun digest hends =>
        (h.2 digest hends).moves (moves_step s' e')⟩
    · exact not_accepts_of_ended h.1 (h.2 digest hends)
  · exact fun pre hpre => onePending_of_constraints (always_of_forall
      (I := Constraints) (fun s e hI => constraints_step hI e) hs pre hpre)
  · refine along_of_invariant (I := Constraints)
      (fun s e hI => constraints_step hI e) ?_ hs
    intro s e hI request start invitation next hop hfor hserve
    obtain ⟨hexecute, -⟩ := serve_eq_ok.mp hserve
    have hnext := constraints_execute hI hexecute
    rw [hop] at hexecute
    obtain ⟨identityId, haccepts⟩ := hfor.accepts hexecute
    exact haccepts.joins.membershipsOf hnext
  · refine along_of_forall fun s e row hrow hended => ?_
    obtain ⟨f, added, hrows, hf, -, -⟩ :
        Moves s (afterAdministration digestSecret lower s e) := moves_step s e
    refine ⟨f row, ?_, (hf row hrow).id, (hf row hrow).kept hended⟩
    rw [hrows]
    exact List.mem_append_left _ (List.mem_map_of_mem hrow)
  · refine Along.mono fun s e htimely request start invitation next hop hfor hserve => ?_
    obtain ⟨hexecute, -⟩ := serve_eq_ok.mp hserve
    rw [hop] at hexecute
    obtain ⟨identityId, haccepts⟩ := hfor.accepts hexecute
    exact haccepts.executed_lt
      (htimely request start invitation hop hfor haccepts.pending)
  · refine along_of_forall fun s e request start invitation next hop hfor hserve
      hclock => ?_
    obtain ⟨hexecute, -⟩ := serve_eq_ok.mp hserve
    rw [hop] at hexecute
    obtain ⟨identityId, haccepts⟩ := hfor.accepts hexecute
    refine ⟨fun hlt => ?_, haccepts.executed_lt⟩
    exact not_comesBetween_of_forall_lt fun moment hmoment =>
      lt_of_le_of_lt (hclock moment hmoment) hlt

theorem constraints_oneAdmin : Constraints oneAdmin where
  emails := by decide
  members := by decide
  digests := by decide
  pending i hi j hj _ _ _ :=
    (List.mem_singleton.mp hi).trans (List.mem_singleton.mp hj).symm

/-- The request of the invited obtains its locks at 10, 20, 30, 40 and 50;
the invitation expires at 100. -/
def bobWaitsABit : List (OrganizationOp × RequestEnv) :=
  bobAccepts.take 2
    ++ [(.accept "request", { requestOf "" 0 with clock := fun n => 10 * (n + 1) })]

theorem invitations_sound_bobWaitsABit :
    Along (afterAdministration id id) (AcceptedInTime id id) oneAdmin bobWaitsABit
      ∧ (run (afterAdministration id id) oneAdmin bobWaitsABit).invitations.rows.map
        OrganizationInvitation.status = [.accepted] := by
  refine ⟨(invitations_sound id id oneAdmin constraints_oneAdmin
    bobWaitsABit).2.2.2.2.1 ⟨?_, ?_, ?_, trivial⟩, by decide⟩
  · exact fun _ _ _ h => nomatch h
  · exact fun _ _ _ h => nomatch h
  · rintro request start invitation - ⟨preview, hfind, hstart, hin, -⟩ -
    have hinvitations : ∀ i ∈ (run (afterAdministration id id) oneAdmin
        (bobAccepts.take 2)).invitations.rows, i.expiresAt = 100 := by decide
    have hpreviews : ∀ p ∈ (run (afterAdministration id id) oneAdmin
        (bobAccepts.take 2)).previews.rows, ∀ s ∈ p.start, s.now = 2 := by decide
    have hnow := hpreviews preview (List.mem_of_find?_eq_some hfind) start hstart
    refine not_comesBetween_of_forall_lt ?_
    rw [hinvitations invitation hin, acceptanceMoments, hnow]
    decide

-- ============================================== an acceptance that waits

/-- The invited accepts just before the expiry at 100, and obtains the
organization's lock, and then the others, long after it. -/
def bobWaits : List (OrganizationOp × RequestEnv) :=
  [(.inspect "request" "token", requestOf "" 98),
   (.startAcceptance "request" (some "Bob") (some (.hashed "hash")), requestOf "" 99),
   (.accept "request", requestOf "" 1000)]

theorem not_acceptedInTime_bobWaits :
    ¬ Along (afterAdministration id id) (AcceptedInTime id id) oneAdmin
      bobWaits := by
  intro h
  obtain ⟨-, -, haccepted, -⟩ := h
  let store := run (afterAdministration id id) oneAdmin (bobWaits.take 2)
  let event : OrganizationOp × RequestEnv := (.accept "request", requestOf "" 1000)
  have hok : (store.serve id id event).isOk = true := by decide
  let start : AcceptanceStart :=
    { now := 99, displayName := some "Bob", newPasswordHash := some "hash" }
  have hfor : IsFor store "request" start invitationOfBob :=
    ⟨{ request := "request", invitationId := "i-bob", tokenHash := "token"
       existingIdentity := false, start := some start },
      by decide, rfl, by decide +kernel, rfl⟩
  cases hserve : store.serve id id event with
  | error e =>
      rw [hserve] at hok
      cases hok
  | ok next =>
      exact absurd (haccepted "request" start invitationOfBob next rfl hfor hserve)
        (by decide)

end PatentEvidence.Organization
