/-
What each accepted step of an organization's administration leaves.

Of invitations there is one description for all steps (`Moves`): the old
ones keep id, email and digest, leave pending for good or stay as they are,
and at most one is added, pending, where no pending one of its email and
none of its digest is left. Of an acceptance there is also what it found
and whom it made a member (`Joins`).
-/
import PatentEvidence.Organization.Invitations

namespace PatentEvidence.Organization

open Cases (Refusal orDatabase orDatabase_eq_ok)
open Fallible OrganizationStore

variable {digestSecret lower : String → String}
  {store next : OrganizationStore} {env : RequestEnv}

-- =========================================================== invitations

/-- One invitation before and after a step: pending ones may end. -/
structure Ends (row row' : OrganizationInvitation) : Prop where
  id : row'.id = row.id
  email : row'.emailNormalized = row.emailNormalized
  digest : row'.tokenHash = row.tokenHash
  pending : row'.status = .pending → row.status = .pending
  kept : row.status ≠ .pending → row'.status = row.status

theorem Ends.refl (row : OrganizationInvitation) : Ends row row :=
  ⟨rfl, rfl, rfl, fun h => h, fun _ => rfl⟩

theorem Ends.trans {a b c : OrganizationInvitation} (h : Ends a b)
    (h' : Ends b c) : Ends a c where
  id := h'.id.trans h.id
  email := h'.email.trans h.email
  digest := h'.digest.trans h.digest
  pending := fun hc => h.pending (h'.pending hc)
  kept := fun ha => (h'.kept (by rw [h.kept ha]; exact ha)).trans (h.kept ha)

/-- The invitations before and after a step. -/
def Moves (store next : OrganizationStore) : Prop :=
  ∃ (f : OrganizationInvitation → OrganizationInvitation)
    (added : List OrganizationInvitation),
    next.invitations.rows = store.invitations.rows.map f ++ added
      ∧ (∀ row ∈ store.invitations.rows, Ends row (f row))
      ∧ added.length ≤ 1
      ∧ ∀ i ∈ added, i.status = .pending
        ∧ (∀ row ∈ store.invitations.rows, row.tokenHash ≠ i.tokenHash)
        ∧ ∀ row ∈ store.invitations.rows, (f row).status = .pending →
          row.emailNormalized ≠ i.emailNormalized

theorem Moves.of_eq (h : next.invitations = store.invitations) :
    Moves store next := by
  refine ⟨id, [], by rw [h, List.map_id, List.append_nil], ?_, Nat.zero_le 1, ?_⟩
  · exact fun row _ => .refl row
  · exact fun _ h => nomatch h

theorem Moves.of_map {f : OrganizationInvitation → OrganizationInvitation}
    (h : next.invitations.rows = store.invitations.rows.map f)
    (hends : ∀ row ∈ store.invitations.rows, Ends row (f row)) :
    Moves store next :=
  ⟨f, [], by rw [h, List.append_nil], hends, Nat.zero_le 1, fun _ h => nomatch h⟩

/-- One invitation updated by its id. -/
theorem ends_update {row : OrganizationInvitation}
    {f : OrganizationInvitation → OrganizationInvitation}
    (hrow : row ∈ store.invitations.rows) (h : Ends row (f row)) :
    ∀ row' ∈ store.invitations.rows,
      Ends row' (if decide (row'.id = row.id) = true then f row' else row') := by
  intro row' hrow'
  split
  · next hid =>
      have heq := store.invitations.eq_of_key_eq hrow' hrow (of_decide_eq_true hid)
      exact heq ▸ h
  · exact .refl row'

/-- And none of that id is pending where it ended. -/
theorem not_pending_update {invitationId : String}
    {f : OrganizationInvitation → OrganizationInvitation}
    (hnext : next.invitations.rows = store.invitations.rows.map fun i =>
      if decide (i.id = invitationId) = true then f i else i)
    (h : ∀ row, (f row).status ≠ .pending) :
    ∀ row' ∈ next.invitations.rows,
      row'.id = invitationId → row'.status ≠ .pending := by
  rw [hnext, List.forall_mem_map]
  intro row _ hid
  split at hid
  · next hif =>
      rw [if_pos hif]
      exact h row
  · next hif => exact absurd (decide_eq_true hid) hif

/-- A step made after some invitations have ended. -/
theorem Moves.after_map {mid : OrganizationStore}
    {g : OrganizationInvitation → OrganizationInvitation} (h : Moves mid next)
    (hmid : mid.invitations.rows = store.invitations.rows.map g)
    (hends : ∀ row ∈ store.invitations.rows, Ends row (g row)) :
    Moves store next := by
  obtain ⟨f, added, hrows, hf, hone, hadded⟩ := h
  rw [hmid, List.forall_mem_map] at hf
  refine ⟨f ∘ g, added, ?_, fun row hrow => ?_, hone, fun i hi => ?_⟩
  · rw [hrows, hmid, List.map_map]
  · exact (hends row hrow).trans (hf row hrow)
  · obtain ⟨hpending, hdigest, hemail⟩ := hadded i hi
    rw [hmid, List.forall_mem_map] at hdigest hemail
    refine ⟨hpending, fun row hrow => ?_, fun row hrow hp => ?_⟩
    · exact (hends row hrow).digest ▸ hdigest row hrow
    · exact (hends row hrow).email ▸ hemail row hrow hp

/-- What has ended keeps its status. -/
theorem Moves.status_eq (h : Moves store next) {row row' : OrganizationInvitation}
    (hrow : row ∈ store.invitations.rows) (hended : row.status ≠ .pending)
    (hrow' : row' ∈ next.invitations.rows) (hid : row'.id = row.id) :
    row'.status = row.status := by
  obtain ⟨f, added, hrows, hf, -, -⟩ := h
  have hin : f row ∈ next.invitations.rows := by
    rw [hrows]
    exact List.mem_append_left _ (List.mem_map_of_mem hrow)
  have heq := next.invitations.eq_of_key_eq hrow' hin
    (hid.trans (hf row hrow).id.symm)
  rw [heq]
  exact (hf row hrow).kept hended

/-- What a step leaves besides invitations. -/
structure OnlyInvitations (store next : OrganizationStore) : Prop where
  identities : next.identities = store.identities
  memberships : next.memberships = store.memberships
  previews : next.previews = store.previews

theorem insertInvitation_eq_ok {invitation : OrganizationInvitation}
    (h : store.insertInvitation invitation = .ok next) :
    OnlyInvitations store next
      ∧ next.invitations.rows = store.invitations.rows ++ [invitation]
      ∧ (∀ row ∈ store.invitations.rows, row.tokenHash ≠ invitation.tokenHash)
      ∧ ∀ row ∈ store.invitations.rows, row.status = .pending →
        row.emailNormalized ≠ invitation.emailNormalized := by
  obtain ⟨u, hdigest, h⟩ := bind_eq_ok.mp h
  obtain ⟨u, hpending, h⟩ := bind_eq_ok.mp h
  obtain ⟨invitations, hinsert, h⟩ := bind_eq_ok.mp h
  rw [pure_eq_ok] at h
  subst h
  rw [raiseIf_eq_ok] at hdigest hpending
  refine ⟨⟨rfl, rfl, rfl⟩,
    (Table.insert?_eq_some.mp (orDatabase_eq_ok.mp hinsert)).2, ?_, ?_⟩
  · exact fun row hrow heq => hdigest ⟨row, hrow, heq⟩
  · exact fun row hrow hp heq => hpending ⟨row, hrow, heq, hp⟩

theorem createLocked_eq_ok {reading : Nat} {email : String}
    {role : OrganizationRole}
    (h : store.createLocked digestSecret env reading email role = .ok next) :
    OnlyInvitations store next ∧ Moves store next := by
  obtain ⟨-, -, h⟩ := bind_eq_ok.mp h
  obtain ⟨-, -, h⟩ := bind_eq_ok.mp h
  obtain ⟨honly, hrows, hdigest, hpending⟩ := insertInvitation_eq_ok h
  rw [Table.rows_update] at hrows hdigest hpending
  rw [List.forall_mem_map] at hdigest hpending
  refine ⟨⟨honly.identities, honly.memberships, honly.previews⟩,
    _, _, hrows, ?_, Nat.le_refl 1, ?_⟩
  · intro row _
    split
    · next hlapsed =>
        have hstatus : row.status = .pending := by
          simp only [lapsed, Bool.and_eq_true, decide_eq_true_eq] at hlapsed
          exact hlapsed.1.2
        exact ⟨rfl, rfl, rfl, fun _ => hstatus, fun hne => absurd hstatus hne⟩
    · exact .refl row
  · intro i hi
    rw [List.mem_singleton.mp hi]
    refine ⟨rfl, fun row hrow => ?_, fun row hrow hp => ?_⟩
    · have hne := hdigest row hrow
      split at hne <;> exact hne
    · have hne := hpending row hrow hp
      split at hne <;> exact hne

theorem createInvitation_eq_ok {email : String} {role : OrganizationRole}
    (h : store.createInvitation digestSecret lower env email role = .ok next) :
    OnlyInvitations store next ∧ Moves store next := by
  obtain ⟨-, -, h⟩ := bind_eq_ok.mp h
  obtain ⟨-, -, h⟩ := bind_eq_ok.mp h
  exact createLocked_eq_ok h

/-- A revocation ends a pending invitation. -/
theorem revokeInvitation_eq_ok {invitationId : String}
    (h : store.revokeInvitation env invitationId = .ok next) :
    OnlyInvitations store next ∧ Moves store next
      ∧ ∀ row' ∈ next.invitations.rows, row'.id = invitationId →
        row'.status ≠ .pending := by
  obtain ⟨-, -, h⟩ := bind_eq_ok.mp h
  split at h
  · cases h
  · next row hfind =>
      obtain ⟨u, hpending, h⟩ := bind_eq_ok.mp h
      rw [pure_eq_ok] at h
      subst h
      rw [raiseIf_eq_ok, not_or, not_not] at hpending
      obtain ⟨hrow, rfl⟩ := Table.find?_eq_some hfind
      refine ⟨⟨rfl, rfl, rfl⟩, .of_map rfl (ends_update hrow ?_), ?_⟩
      · exact ⟨rfl, rfl, rfl, fun h => (nomatch h), fun hne => absurd hpending.1 hne⟩
      · exact not_pending_update rfl fun _ h => (nomatch h)

/-- And so does a resend, which adds another in its place. -/
theorem resendInvitation_eq_ok {invitationId : String}
    (h : store.resendInvitation digestSecret env invitationId = .ok next) :
    OnlyInvitations store next ∧ Moves store next
      ∧ ∀ row' ∈ next.invitations.rows, row'.id = invitationId →
        row'.status ≠ .pending := by
  obtain ⟨-, -, h⟩ := bind_eq_ok.mp h
  split at h
  · cases h
  · next row hfind =>
      obtain ⟨u, hresendable, h⟩ := bind_eq_ok.mp h
      obtain ⟨honly, hmoves⟩ := createLocked_eq_ok h
      obtain ⟨hrow, rfl⟩ := Table.find?_eq_some hfind
      rw [raiseIf_eq_ok, not_and_not_right] at hresendable
      -- a pending one is revoked or expired, and one expired stays so
      have hkept (hne : row.status ≠ .pending) :
          effectiveInvitationStatus row (env.clock 1) = row.status
            ∧ row.status = .expired := by
        have heq : effectiveInvitationStatus row (env.clock 1) = row.status :=
          if_neg fun h => hne h.1
        rw [heq] at hresendable
        exact ⟨heq, hresendable hne⟩
      let ended : OrganizationInvitation := { row with
        status := if effectiveInvitationStatus row (env.clock 1) = .expired
          then .expired else .revoked
        revokedAt := if effectiveInvitationStatus row (env.clock 1) = .pending
          then some (env.clock 1) else none
        updatedAt := env.clock 1 }
      have hnot : ended.status ≠ .pending := by
        show (if _ then _ else _) ≠ _
        split <;> exact fun h => (nomatch h)
      have hends : Ends row ended := by
        refine ⟨rfl, rfl, rfl, fun h => absurd h hnot, fun hne => ?_⟩
        obtain ⟨heq, hexpired⟩ := hkept hne
        show (if _ then _ else _) = _
        rw [if_pos (heq.trans hexpired), hexpired]
      refine ⟨⟨honly.identities, honly.memberships, honly.previews⟩,
        hmoves.after_map rfl (ends_update hrow hends), ?_⟩
      intro row' hrow' hid
      have hin : ended ∈ (store.replaceInvitation row.id
          (effectiveInvitationStatus row (env.clock 1))
          (env.clock 1)).invitations.rows :=
        List.mem_map.mpr ⟨row, hrow, if_pos (decide_eq_true rfl)⟩
      exact hmoves.status_eq hin hnot hrow' hid ▸ hnot

-- =========================================================== acceptances

/-- Whom an acceptance made a member, and what it left of identities and
memberships. -/
structure Joins (store next : OrganizationStore) (identityId email : String)
    (role : OrganizationRole) : Prop where
  identities :
    (next.identities = store.identities
        ∧ ∃ i ∈ store.identities.rows, i.id = identityId
          ∧ i.emailNormalized = email)
      ∨ ((∀ i ∈ store.identities.rows, i.emailNormalized ≠ email)
        ∧ ∃ i : IdentityRow, i.id = identityId ∧ i.emailNormalized = email
          ∧ next.identities.rows = store.identities.rows ++ [i])
  memberships :
    ((∀ m ∈ store.memberships.rows, m.globalIdentityId ≠ identityId)
        ∧ ∃ m : OrganizationMembership, m.globalIdentityId = identityId
          ∧ m.role = role ∧ m.status = .active
          ∧ next.memberships.rows = store.memberships.rows ++ [m])
      ∨ ∃ m ∈ store.memberships.rows, m.globalIdentityId = identityId
          ∧ m.status = .removed
          ∧ ∃ now, next.memberships.rows = store.memberships.rows.map fun m' =>
            if m'.id = m.id then
              { m' with role := role, status := .active, updatedAt := now }
            else m'

theorem acceptingIdentity_eq_ok {start : AcceptanceStart} {email identityId : String}
    (h : store.acceptingIdentity env start email = .ok (next, identityId)) :
    next.memberships = store.memberships ∧ next.invitations = store.invitations
      ∧ next.previews = store.previews
      ∧ ((next.identities = store.identities
          ∧ ∃ i ∈ store.identities.rows, i.id = identityId
            ∧ i.emailNormalized = email)
        ∨ ((∀ i ∈ store.identities.rows, i.emailNormalized ≠ email)
          ∧ ∃ i : IdentityRow, i.id = identityId ∧ i.emailNormalized = email
            ∧ next.identities.rows = store.identities.rows ++ [i])) := by
  unfold acceptingIdentity at h
  split at h
  · next identity hfind =>
      obtain ⟨-, -, h⟩ := bind_eq_ok.mp h
      rw [pure_eq_ok] at h
      cases h
      have hemail := List.find?_some hfind
      exact ⟨rfl, rfl, rfl, .inl ⟨rfl, identity, List.mem_of_find?_eq_some hfind,
        rfl, of_decide_eq_true hemail⟩⟩
  · next hnone =>
      dsimp only at h
      split at h
      · cases h
      · obtain ⟨-, -, h⟩ := bind_eq_ok.mp h
        obtain ⟨identities, hinsert, h⟩ := bind_eq_ok.mp h
        rw [pure_eq_ok] at h
        cases h
        have hrows := (Table.insert?_eq_some.mp (orDatabase_eq_ok.mp hinsert)).2
        refine ⟨rfl, rfl, rfl, .inr ⟨fun i hi heq => ?_, _, ?_, ?_, hrows⟩⟩
        · exact List.find?_eq_none.mp hnone i hi (decide_eq_true heq)
        · rfl
        · rfl

theorem acceptMembership_eq_ok {now : Timestamp} {identityId : String}
    {role : OrganizationRole}
    (h : store.acceptMembership env now identityId role = .ok next) :
    next.identities = store.identities ∧ next.invitations = store.invitations
      ∧ next.previews = store.previews
      ∧ (((∀ m ∈ store.memberships.rows, m.globalIdentityId ≠ identityId)
          ∧ ∃ m : OrganizationMembership, m.globalIdentityId = identityId
            ∧ m.role = role ∧ m.status = .active
            ∧ next.memberships.rows = store.memberships.rows ++ [m])
        ∨ ∃ m ∈ store.memberships.rows, m.globalIdentityId = identityId
            ∧ m.status = .removed
            ∧ ∃ now, next.memberships.rows = store.memberships.rows.map fun m' =>
              if m'.id = m.id then
                { m' with role := role, status := .active, updatedAt := now }
              else m') := by
  unfold acceptMembership membershipOf at h
  split at h
  · next hnone =>
      obtain ⟨memberships, hinsert, h⟩ := bind_eq_ok.mp h
      rw [pure_eq_ok] at h
      cases h
      have hrows := (Table.insert?_eq_some.mp (orDatabase_eq_ok.mp hinsert)).2
      refine ⟨rfl, rfl, rfl, .inl ⟨fun m hm heq => ?_, _, ?_, ?_, ?_, hrows⟩⟩
      · exact List.find?_eq_none.mp hnone m hm (decide_eq_true heq)
      · rfl
      · rfl
      · rfl
  · next membership hfind =>
      obtain ⟨u, hremoved, h⟩ := bind_eq_ok.mp h
      rw [pure_eq_ok] at h
      cases h
      rw [raiseIf_eq_ok, not_not] at hremoved
      have hidentity := List.find?_some hfind
      exact ⟨rfl, rfl, rfl, .inr ⟨membership, List.mem_of_find?_eq_some hfind,
        of_decide_eq_true hidentity, hremoved, now, by simp⟩⟩

/-- What an acceptance found, and what it left. -/
structure Accepts (store next : OrganizationStore) (request : String)
    (start : AcceptanceStart) (invitation : OrganizationInvitation)
    (identityId : String) : Prop where
  preview : ∃ preview, store.previews.find? request = some preview
    ∧ preview.start = some start ∧ invitation.id = preview.invitationId
    ∧ invitation.tokenHash = preview.tokenHash
  found : invitation ∈ store.invitations.rows
  pending : invitation.status = .pending
  unexpired : start.now < invitation.expiresAt
  active : store.organization.effectiveStatus start.now = .active
  joins : Joins store next identityId invitation.emailNormalized invitation.role
  moves : Moves store next
  ended : ∀ row' ∈ next.invitations.rows, row'.id = invitation.id →
    row'.status ≠ .pending
  previews : next.previews = store.previews

theorem acceptInvitation_eq_ok {request : String}
    (h : store.acceptInvitation env request = .ok next) :
    ∃ start invitation identityId,
      Accepts store next request start invitation identityId := by
  unfold acceptInvitation at h
  split at h
  · cases h
  · next preview hpreview =>
      split at h
      · cases h
      · next start hstart =>
          dsimp only at h
          split at h
          · cases h
          · next invitation hfind =>
              obtain ⟨u, hpending, h⟩ := bind_eq_ok.mp h
              obtain ⟨v, hexpired, h⟩ := bind_eq_ok.mp h
              obtain ⟨w, hactive, h⟩ := bind_eq_ok.mp h
              obtain ⟨⟨mid, identityId⟩, hidentity, h⟩ := bind_eq_ok.mp h
              obtain ⟨joined, hjoined, h⟩ := bind_eq_ok.mp h
              rw [pure_eq_ok] at h
              subst h
              rw [raiseIf_eq_ok] at hpending hexpired hactive
              rw [not_not] at hpending hactive
              have hin := List.mem_of_find?_eq_some hfind
              have hkeys := List.find?_some hfind
              rw [Bool.and_eq_true, decide_eq_true_eq, decide_eq_true_eq] at hkeys
              obtain ⟨hm, hi, hp, hidentities⟩ := acceptingIdentity_eq_ok hidentity
              obtain ⟨hs, hi', hp', hmemberships⟩ := acceptMembership_eq_ok hjoined
              have hinvitations : joined.invitations = store.invitations :=
                hi'.trans hi
              have hrows : (joined.invitations.update
                  (fun i => i.id = invitation.id)
                  fun i => { i with
                    status := .accepted, acceptedAt := some start.now
                    updatedAt := start.now }).rows
                  = store.invitations.rows.map fun i =>
                    if decide (i.id = invitation.id) = true then { i with
                      status := .accepted, acceptedAt := some start.now
                      updatedAt := start.now }
                    else i := by
                rw [Table.rows_update, hinvitations]
              have hends : Ends invitation { invitation with
                  status := .accepted, acceptedAt := some start.now
                  updatedAt := start.now } :=
                ⟨rfl, rfl, rfl, fun h => (nomatch h),
                  fun hne => absurd hpending hne⟩
              refine ⟨start, invitation, identityId, ?_⟩
              exact {
                preview := ⟨preview, hpreview, hstart, hkeys⟩
                found := hin
                pending := hpending
                unexpired := not_le.mp hexpired
                active := hactive
                joins := ⟨hs ▸ hidentities, hm ▸ hmemberships⟩
                moves := .of_map hrows (ends_update hin hends)
                ended := not_pending_update hrows fun _ h => (nomatch h)
                previews := hp'.trans hp }

-- ========================================================= what is left

/-- An inspection leaves the rows. -/
theorem inspectInvitation_eq_ok {request token : String}
    (h : store.inspectInvitation digestSecret request token = .ok next) :
    next.identities = store.identities ∧ next.memberships = store.memberships
      ∧ next.invitations = store.invitations := by
  unfold inspectInvitation at h
  split at h
  · cases h
  · obtain ⟨previews, -, h⟩ := bind_eq_ok.mp h
    rw [pure_eq_ok] at h
    subst h
    exact ⟨rfl, rfl, rfl⟩

/-- And so does what a request does before its transaction. -/
theorem startAcceptance_eq_ok {request : String} {displayName : Option String}
    {password : Option PasswordHashing}
    (h : store.startAcceptance env request displayName password = .ok next) :
    next.identities = store.identities ∧ next.memberships = store.memberships
      ∧ next.invitations = store.invitations := by
  unfold startAcceptance at h
  split at h
  · cases h
  · obtain ⟨passwordHash, -, h⟩ := bind_eq_ok.mp h
    rw [pure_eq_ok] at h
    subst h
    exact ⟨rfl, rfl, rfl⟩

/-- A step is accepted when it went through and its transaction commits. -/
theorem serve_eq_ok {event : OrganizationOp × RequestEnv} :
    store.serve digestSecret lower event = .ok next
      ↔ store.execute digestSecret lower event.2 event.1 = .ok next
        ∧ event.2.commits = true := by
  unfold OrganizationStore.serve
  rw [bind_eq_ok]
  constructor
  · rintro ⟨mid, hmid, h⟩
    obtain ⟨u, hcommits, h⟩ := bind_eq_ok.mp h
    rw [pure_eq_ok] at h
    rw [raiseIf_eq_ok, Bool.not_eq_false] at hcommits
    exact ⟨h ▸ hmid, hcommits⟩
  · rintro ⟨hexecute, hcommits⟩
    exact ⟨next, hexecute, bind_eq_ok.mpr
      ⟨(), raiseIf_eq_ok.mpr (by simp [hcommits]), rfl⟩⟩

end PatentEvidence.Organization
