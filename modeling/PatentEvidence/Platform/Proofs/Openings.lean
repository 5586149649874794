/-
What holds of opening organizations however the calls interleave, and when
a repeat gets the recorded answer.

One actor and key open at most one organization, slugs are unique, a token
goes out with one answer only and a different opening under a key that has
opened is refused, in every run. That a repeat with an equal opening is
answered with what was recorded needs more: the opening is validated before
the earlier request is looked for, so a repeat that comes when the opening's
expiry has passed is refused, and the fingerprint is of the datetimes as
they are written, so a repeat that writes one with another offset is.

The fact that an opening leaves behind is its row (`Recorded`): no step
removes it, and the calls of its actor and key find it.

# Sections

- what an opening leaves;
- a call by itself;
- what is promised;
- runs;
- a repeat after the expiry.
-/
import Mathlib.Data.Set.Function
import PatentEvidence.Lib.Run
import PatentEvidence.Platform.Proofs.Fingerprint
import PatentEvidence.Platform.Proofs.Steps

namespace PatentEvidence.Platform

open Cases (Refusal)
open OrganizationOpening PlatformStore Runs

variable {sha256 : String → String} {store next : PlatformStore} {op : OpenOp}
  {outcome : OpenOutcome} {texts : Set String}
  {request request' : OpenRequest} {response : OpenResponse}
  {organizationId : String}

-- ============================================== what an opening leaves

/-- An opening that was answered: its request and its token's digest. -/
structure Recorded (sha256 : String → String) (texts : Set String)
    (request : OpenRequest) (response : OpenResponse)
    (organizationId : String) (store : PlatformStore) : Prop where
  sound : Sound sha256 texts store
  row : ∃ row ∈ store.tables.requests.rows, row.pair = request.pair
    ∧ row.requestFingerprint = request.opening.fingerprint sha256
    ∧ row.responseSnapshot = response.withoutToken
    ∧ row.organizationId = organizationId
  token : ∃ token, response.invitationToken = some token
    ∧ ∃ row ∈ store.tables.invitations.rows,
      row.invitation.tokenHash = sha256 token
  known : request.opening.canonical ∈ texts
  period : request.opening.currentPeriodStart.timestamp
    < request.opening.currentPeriodEnd.timestamp

/-- No step removes a request or an invitation. -/
theorem rows_grow (h : OpenStep sha256 op store next outcome) :
    store.tables.requests.rows ⊆ next.tables.requests.rows
      ∧ store.tables.invitations.rows ⊆ next.tables.invitations.rows := by
  cases h with
  | waited hnext => exact hnext ▸ ⟨fun _ h => h, fun _ h => h⟩
  | rejected call request clock reason hstart hreason hnext =>
      exact hnext ▸ ⟨fun _ h => h, fun _ h => h⟩
  | started call request clock calls hstart hcalls hnext =>
      exact hnext ▸ ⟨fun _ h => h, fun _ h => h⟩
  | locked c key stage locks hin hlocks hstage hnext =>
      exact hnext ▸ ⟨fun _ h => h, fun _ h => h⟩
  | moved c stage hin hpast hstage hnext =>
      exact hnext ▸ ⟨fun _ h => h, fun _ h => h⟩
  | refused c reason hin hcause hnext =>
      exact hnext ▸ ⟨fun _ h => h, fun _ h => h⟩
  | replayed c response organizationId hin hstage hnext =>
      exact hnext ▸ ⟨fun _ h => h, fun _ h => h⟩
  | opened c rows tables hin hstage htables hnext =>
      subst hnext
      obtain ⟨-, -, hinvitations, hrequests⟩ := install?_eq_some htables
      constructor
      · show store.tables.requests.rows ⊆ tables.requests.rows
        rw [hrequests]
        exact List.subset_append_left ..
      · show store.tables.invitations.rows ⊆ tables.invitations.rows
        rw [hinvitations]
        exact List.subset_append_left ..
  | administered organizationId status expiresAt now hnext =>
      exact hnext ▸ ⟨fun _ h => h, fun _ h => h⟩

theorem Recorded.step
    (h : Recorded sha256 texts request response organizationId store)
    (hop : StartsKnown texts op)
    (hstep : OpenStep sha256 op store next outcome) :
    Recorded sha256 texts request response organizationId next := by
  obtain ⟨hrequests, hinvitations⟩ := rows_grow hstep
  obtain ⟨row, hrow, hfacts⟩ := h.row
  obtain ⟨token, htoken, invitation, hin, hdigest⟩ := h.token
  exact ⟨h.sound.step hop hstep, ⟨row, hrequests hrow, hfacts⟩,
    ⟨token, htoken, invitation, hinvitations hin, hdigest⟩, h.known, h.period⟩

/-- A commit answered with 201 has come into the tables. -/
theorem recorded_of_answered (h : Sound sha256 texts store)
    (hop : StartsKnown texts op)
    (hstep : OpenStep sha256 op store next
      (.answered 201 request response organizationId)) :
    Recorded sha256 texts request response organizationId next := by
  have hnext := h.step hop hstep
  cases hstep with
  | opened c rows tables hin hstage htables heq =>
      have hsound := h.stages c hin
      rw [hstage] at hsound
      obtain ⟨-, draw, hrows⟩ := hsound
      have hof := rowsOf_openRows hrows
      obtain ⟨-, -, hinvitations, hrequests⟩ := install?_eq_some htables
      have hrequest : rows.request ∈ next.tables.requests.rows := by
        rw [heq]
        show rows.request ∈ tables.requests.rows
        rw [hrequests]
        exact List.mem_append_right _ (List.mem_singleton_self _)
      have hinvitation : rows.invitation ∈ next.tables.invitations.rows := by
        rw [heq]
        show rows.invitation ∈ tables.invitations.rows
        rw [hinvitations]
        exact List.mem_append_right _ (List.mem_singleton_self _)
      obtain ⟨token, htoken, hdigest⟩ := hof.token
      exact ⟨hnext, ⟨rows.request, hrequest, hof.pair, hof.fingerprint,
          hof.snapshot, hof.organization⟩,
        ⟨token, htoken, rows.invitation, hinvitation, hdigest⟩,
        h.known c hin, hof.period⟩

/-- Two requests recorded under one actor and key are one. -/
theorem Sound.eq_of_pair (h : Sound sha256 texts store)
    {row row' : ProvisioningRequest} (hrow : row ∈ store.tables.requests.rows)
    (hrow' : row' ∈ store.tables.requests.rows) (hpair : row.pair = row'.pair) :
    row = row' :=
  List.inj_on_of_nodup_map h.pairs hrow hrow' hpair

/-- A call of an actor and key that have opened found their request, or has
not looked for it. -/
theorem Recorded.not_searched
    (h : Recorded sha256 texts request response organizationId store)
    {c : OpenCall} (hin : c ∈ store.calls.rows)
    (hpair : request.pair = c.request.pair) : ¬ c.stage.searched := by
  intro hsearched
  obtain ⟨row, hrow, hrowpair, -⟩ := h.row
  have hmem : c.request.pair ∈ store.tables.pairs :=
    hpair ▸ hrowpair ▸ List.mem_map_of_mem hrow
  have hsound := h.sound.stages c hin
  cases hstage : c.stage with
  | started | keyLocked | found =>
      rw [hstage] at hsearched
      exact hsearched
  | unseen | slugLocked | free =>
      rw [hstage] at hsound
      exact hsound hmem
  | inserted rows =>
      rw [hstage] at hsound
      exact hsound.1 hmem

/-- The request of an actor and key is the one that is found. -/
theorem prior_of_mem (h : Sound sha256 texts store)
    {row : ProvisioningRequest} (hrow : row ∈ store.tables.requests.rows)
    (hpair : row.pair = request.pair) :
    store.tables.prior request.actorIdentityId request.idempotencyKey
      = some row := by
  cases hprior : store.tables.prior request.actorIdentityId
      request.idempotencyKey with
  | none =>
      exact absurd (hpair ▸ List.mem_map_of_mem hrow) (prior_eq_none hprior)
  | some row' =>
      obtain ⟨hrow', hpair'⟩ := prior_eq_some hprior
      rw [h.eq_of_pair hrow' hrow (hpair'.trans hpair.symm)]

-- ===================================================== a call by itself

namespace PlatformStore

/-- The first answer or refusal of a sequence of steps. -/
def settled (sha256 : String → String) :
    PlatformStore → List OpenOp → OpenOutcome
  | _, [] => .waits
  | store, op :: ops =>
      match (store.serve sha256 op).2 with
      | .waits | .proceeds => settled sha256 (store.serve sha256 op).1 ops
      | outcome => outcome

end PlatformStore

/-- A repeat, with nothing in between. -/
def alone (call : String) (request : OpenRequest) (clock : Timestamp) :
    List OpenOp :=
  [.start call request clock, .lockRequest call, .lookUp call, .commit call]

/-- A new call, and nobody has the lock it asks for. -/
structure Unhindered (store : PlatformStore) (call : String)
    (request : OpenRequest) : Prop where
  fresh : call ∉ store.calls.rows.map OpenCall.call
  free : ∀ owner, ¬ store.locks.Holds owner request.lockKey

theorem advance_of_mem {c : OpenCall} (hin : c ∈ store.calls.rows)
    (step : OpenCall → PlatformStore × OpenOutcome) :
    store.advance c.call step = step c := by
  rw [advance, Table.find?_of_mem hin]

theorem mem_proceed_self {c : OpenCall} {stage : OpenStage}
    (hin : c ∈ store.calls.rows) :
    { c with stage := stage } ∈ (store.proceed c stage).1.calls.rows := by
  simp only [proceed, Table.rows_update, List.mem_map, decide_eq_true_eq]
  exact ⟨c, hin, if_pos rfl⟩

theorem settled_proceeds {op : OpenOp} {ops : List OpenOp}
    (h : (store.serve sha256 op).2 = .proceeds) :
    settled sha256 store (op :: ops)
      = settled sha256 (store.serve sha256 op).1 ops := by
  rw [settled, h]

/-- A call by itself that passes the validation comes to look for an
earlier request, with the tables as they were. -/
theorem settled_alone (sha256 : String → String) {call : String}
    {clock : Timestamp} (hfree : Unhindered store call request)
    (hvalid : validateOpening request.opening clock = .ok ()) :
    ∃ (mid : PlatformStore) (c : OpenCall), mid.tables = store.tables
      ∧ c ∈ mid.calls.rows ∧ c.call = call ∧ c.request = request
      ∧ c.stage = .keyLocked
      ∧ settled sha256 store (alone call request clock)
        = settled sha256 mid [.lookUp call, .commit call] := by
  let c : OpenCall := { call := call, request := request, stage := .started }
  obtain ⟨calls, hcalls⟩ : ∃ calls, store.calls.insert? c = some calls :=
    Table.exists_insert? hfree.fresh
  obtain ⟨locks, hlocks⟩ : ∃ locks,
      store.locks.acquire? call request.lockKey = some locks :=
    AdvisoryLocks.exists_acquire? hfree.free
  let begun : PlatformStore := { store with calls := calls }
  have hstart : store.serve sha256 (.start call request clock)
      = (begun, .proceeds) := by
    simp only [serve, start]
    rw [hcalls, hvalid]
  have hin : c ∈ begun.calls.rows := by
    show c ∈ calls.rows
    rw [(Table.insert?_eq_some.mp hcalls).2]
    exact List.mem_append_right _ (List.mem_singleton_self _)
  have hlock : begun.serve sha256 (.lockRequest call)
      = { begun with locks := locks }.proceed c .keyLocked := by
    refine (advance_of_mem hin begun.lockRequest).trans ?_
    have hacquired : begun.locks.acquire? c.call c.request.lockKey
        = some locks := hlocks
    show begun.lock c.request.lockKey .keyLocked c = _
    rw [lock, hacquired]
  have hmem : { c with stage := .keyLocked }
      ∈ ({ begun with locks := locks }.proceed c .keyLocked).1.calls.rows :=
    mem_proceed_self hin
  refine ⟨({ begun with locks := locks }.proceed c .keyLocked).1,
    { c with stage := .keyLocked }, rfl, hmem, rfl, rfl, rfl, ?_⟩
  rw [alone, settled_proceeds (by rw [hstart]), hstart,
    settled_proceeds (by rw [hlock]; rfl), hlock]

/-- One that finds its own fingerprint is answered with what was recorded. -/
theorem settled_alone_replayed {call : String} {clock : Timestamp}
    (hsound : Sound sha256 texts store) (hfree : Unhindered store call request)
    (hvalid : validateOpening request.opening clock = .ok ())
    {row : ProvisioningRequest} (hrow : row ∈ store.tables.requests.rows)
    (hpair : row.pair = request.pair)
    (hsame : row.requestFingerprint = request.opening.fingerprint sha256) :
    settled sha256 store (alone call request clock)
      = .answered 200 request row.responseSnapshot.withoutToken
        row.organizationId := by
  obtain ⟨mid, c, htables, hin, rfl, rfl, hstage, hsettled⟩ :=
    settled_alone sha256 hfree hvalid
  have hprior : mid.tables.prior c.request.actorIdentityId
      c.request.idempotencyKey = some row := by
    rw [htables]
    exact prior_of_mem hsound hrow hpair
  have hlookUp : mid.serve sha256 (.lookUp c.call)
      = mid.proceed c
        (.found row.responseSnapshot.withoutToken row.organizationId) := by
    refine (advance_of_mem hin _).trans ?_
    simp only [lookUp, hstage, hprior]
    rw [if_neg (not_not.mpr hsame)]
  have hcommit : (mid.proceed c (.found row.responseSnapshot.withoutToken
        row.organizationId)).1.serve sha256 (.commit c.call)
      = ((mid.proceed c (.found row.responseSnapshot.withoutToken
          row.organizationId)).1.close c.call,
        .answered 200 c.request row.responseSnapshot.withoutToken
          row.organizationId) :=
    advance_of_mem (mem_proceed_self hin) _
  rw [hsettled, settled_proceeds (by rw [hlookUp]; rfl), hlookUp, settled,
    hcommit]

/-- One that finds another fingerprint is refused. -/
theorem settled_alone_conflict {call : String} {clock : Timestamp}
    (hsound : Sound sha256 texts store) (hfree : Unhindered store call request)
    (hvalid : validateOpening request.opening clock = .ok ())
    {row : ProvisioningRequest} (hrow : row ∈ store.tables.requests.rows)
    (hpair : row.pair = request.pair)
    (hdiffers : row.requestFingerprint ≠ request.opening.fingerprint sha256) :
    settled sha256 store (alone call request clock)
      = .refused request (.http 409 "idempotency_conflict") := by
  obtain ⟨mid, c, htables, hin, rfl, rfl, hstage, hsettled⟩ :=
    settled_alone sha256 hfree hvalid
  have hprior : mid.tables.prior c.request.actorIdentityId
      c.request.idempotencyKey = some row := by
    rw [htables]
    exact prior_of_mem hsound hrow hpair
  have hlookUp : mid.serve sha256 (.lookUp c.call)
      = mid.refuse c (.http 409 "idempotency_conflict") := by
    refine (advance_of_mem hin _).trans ?_
    simp only [lookUp, hstage, hprior]
    rw [if_pos hdiffers]
  rw [hsettled, settled, hlookUp]
  rfl

/-- And one that is not valid at the clock is refused before all that. -/
theorem settled_alone_rejected {call : String} {clock : Timestamp}
    {reason : Refusal} (hfree : Unhindered store call request)
    (hinvalid : validateOpening request.opening clock = .error reason) :
    settled sha256 store (alone call request clock) = .refused request reason := by
  obtain ⟨calls, hcalls⟩ : ∃ calls, store.calls.insert?
      { call := call, request := request, stage := .started } = some calls :=
    Table.exists_insert? hfree.fresh
  have hstart : store.serve sha256 (.start call request clock)
      = (store, .refused request reason) := by
    simp only [serve, start]
    rw [hcalls, hinvalid]
  rw [alone, settled, hstart]

-- =================================================== what is promised

/-- What a step may change: an opening adds its organization, and a token
goes out with an opening only. -/
structure OpensSoundly (sha256 : String → String) (store : PlatformStore)
    (op : OpenOp) : Prop where
  opened : ∀ request response organizationId,
    (store.serve sha256 op).2 = .answered 201 request response organizationId →
      ∃ o : OrganizationRecord,
        (store.afterOpening sha256 op).tables.organizations.rows
          = store.tables.organizations.rows ++ [o]
        ∧ o.id = organizationId ∧ o.slug = request.opening.slug
        ∧ response.invitationToken ≠ none
  replayed : ∀ status request response organizationId,
    (store.serve sha256 op).2
        = .answered status request response organizationId →
      status ≠ 201 → response.invitationToken = none
  unchanged :
    (∀ request response organizationId, (store.serve sha256 op).2
      ≠ .answered 201 request response organizationId) →
    (store.serve sha256 op).2 ≠ .administered →
      (store.afterOpening sha256 op).tables = store.tables

/-- An actor and a key open one organization, and no answer has the token
of another. -/
def OpensOnce (sha256 : String → String) (store : PlatformStore) (op : OpenOp)
    (later : PlatformStore) (op' : OpenOp) : Prop :=
  ∀ request response organizationId,
    (store.serve sha256 op).2 = .answered 201 request response organizationId →
    ∀ status request' response' organizationId',
      (later.serve sha256 op').2
          = .answered status request' response' organizationId' →
        (status = 201 → request'.pair ≠ request.pair)
        ∧ response'.invitationToken ≠ response.invitationToken

/-- A different opening under an actor and key that have opened is not
answered, and by itself is refused. -/
def RefusesDifferent (sha256 : String → String) (store : PlatformStore)
    (op : OpenOp) (later : PlatformStore) (op' : OpenOp) : Prop :=
  ∀ request response organizationId,
    (store.serve sha256 op).2 = .answered 201 request response organizationId →
    ∀ request' : OpenRequest, request'.pair = request.pair →
      ¬ Equal request'.opening request.opening →
        (∀ status response' organizationId', (later.serve sha256 op').2
          ≠ .answered status request' response' organizationId')
        ∧ ∀ call clock, op' = .start call request' clock →
          Unhindered later call request' →
            ∃ reason, settled sha256 later (alone call request' clock)
              = .refused request' reason

/-- An equal opening is answered with what was recorded, fails where the
database fails it only, and by itself is answered. -/
def Repeats (sha256 : String → String) (store : PlatformStore) (op : OpenOp)
    (later : PlatformStore) (op' : OpenOp) : Prop :=
  ∀ request response organizationId,
    (store.serve sha256 op).2 = .answered 201 request response organizationId →
    ∀ request' : OpenRequest, request'.pair = request.pair →
      Equal request'.opening request.opening →
        (∀ status response' organizationId',
          (later.serve sha256 op').2
              = .answered status request' response' organizationId' →
            status = 200 ∧ response' = response.withoutToken
              ∧ organizationId' = organizationId)
        ∧ (∀ reason, (later.serve sha256 op').2 = .refused request' reason →
          ∃ call, op' = .abort call)
        ∧ ∀ call clock, op' = .start call request' clock →
          Unhindered later call request' →
            settled sha256 later (alone call request' clock)
              = .answered 200 request' response.withoutToken organizationId

/-- An equal opening writes its datetimes as the first did, and starts
before its expiry. -/
def Repeatable (sha256 : String → String) (store : PlatformStore) (op : OpenOp)
    (later : PlatformStore) (op' : OpenOp) : Prop :=
  ∀ request response organizationId,
    (store.serve sha256 op).2 = .answered 201 request response organizationId →
    ∀ request' : OpenRequest, request'.pair = request.pair →
      Equal request'.opening request.opening →
        (∀ call clock, op' = .start call request' clock →
          WrittenAlike request'.opening request.opening
          ∧ ∀ t ∈ request'.opening.expiresAt, clock < t.timestamp)
        ∧ ∀ c ∈ later.calls.rows, op' = .lookUp c.call → c.request = request' →
          WrittenAlike request'.opening request.opening

theorem opensSoundly (h : Sound sha256 texts store) (op : OpenOp) :
    OpensSoundly sha256 store op := by
  have hstep : OpenStep sha256 op store (store.afterOpening sha256 op)
      (store.serve sha256 op).2 := step_serve op
  refine ⟨fun request response id houtcome => ?_,
    fun status request response id houtcome hstatus => ?_,
    fun hnot hadministered => ?_⟩
  · rw [houtcome] at hstep
    cases hstep with
    | opened c rows tables hin hstage htables hnext =>
        have hsound := h.stages c hin
        rw [hstage] at hsound
        obtain ⟨-, draw, hrows⟩ := hsound
        have hof := rowsOf_openRows hrows
        obtain ⟨-, horganizations, -, -⟩ := install?_eq_some htables
        obtain ⟨token, htoken, -⟩ := hof.token
        refine ⟨rows.organization, ?_, rfl, hof.slug, ?_⟩
        · rw [hnext]
          exact horganizations
        · rw [htoken]
          exact Option.some_ne_none token
  · rw [houtcome] at hstep
    cases hstep with
    | replayed c response id hin hstage hnext =>
        have hsound := h.stages c hin
        rw [hstage] at hsound
        obtain ⟨row, -, -, -, hresponse, -⟩ := hsound
        rw [hresponse]
        rfl
    | opened => exact absurd rfl hstatus
  · generalize (store.serve sha256 op).2 = outcome at hstep hnot hadministered
    cases hstep with
    | waited hnext => rw [hnext]
    | rejected call request clock reason hstart hreason hnext => rw [hnext]
    | started call request clock calls hstart hcalls hnext => rw [hnext]
    | locked c key stage locks hin hlocks hstage hnext =>
        rw [hnext]
        rfl
    | moved c stage hin hpast hstage hnext =>
        rw [hnext]
        rfl
    | refused c reason hin hcause hnext =>
        rw [hnext]
        rfl
    | replayed c response id hin hstage hnext =>
        rw [hnext]
        rfl
    | opened => exact absurd rfl (hnot _ _ _)
    | administered => exact absurd rfl hadministered

-- ================================================================ runs

/-- The canonical texts of the openings of a run. -/
def textsOf (ops : List OpenOp) : Set String :=
  { t | ∃ call request clock, OpenOp.start call request clock ∈ ops
    ∧ t = request.opening.canonical }

theorem startsKnown_of_mem {ops : List OpenOp} (h : op ∈ ops) :
    StartsKnown (textsOf ops) op := by
  rintro call request clock rfl
  exact ⟨call, request, clock, h, rfl⟩

/-- What was answered with 201 is recorded. -/
def Kept (sha256 : String → String) (texts : Set String) (store : PlatformStore)
    (op : OpenOp) (later : PlatformStore) : Prop :=
  ∀ request response organizationId,
    (store.serve sha256 op).2 = .answered 201 request response organizationId →
      Recorded sha256 texts request response organizationId later

theorem kept_of_sound (h : Sound sha256 texts store)
    (hop : StartsKnown texts op) :
    Kept sha256 texts store op (store.afterOpening sha256 op) := by
  intro request response id houtcome
  have hstep : OpenStep sha256 op store (store.afterOpening sha256 op)
      (store.serve sha256 op).2 := step_serve op
  rw [houtcome] at hstep
  exact recorded_of_answered h hop hstep

theorem Kept.step {later : PlatformStore} {op' : OpenOp}
    (h : Kept sha256 texts store op later) (hop : StartsKnown texts op') :
    Kept sha256 texts store op (later.afterOpening sha256 op') :=
  fun request response id houtcome =>
    (h request response id houtcome).step hop (step_serve op')

/-- The rule for what an opening asks of all later steps. -/
theorem thereafter_kept
    {ask cond : PlatformStore → OpenOp → PlatformStore → OpenOp → Prop}
    {ops : List OpenOp}
    (hask : ∀ store op later op', Kept sha256 (textsOf ops) store op later →
      StartsKnown (textsOf ops) op' → cond store op later op' →
        ask store op later op')
    (hcond : Thereafter (afterOpening sha256) cond .empty ops) :
    Thereafter (afterOpening sha256) ask .empty ops := by
  have hknown : Along (afterOpening sha256)
      (fun _ op => StartsKnown (textsOf ops) op) .empty ops :=
    along_of_mem fun _ hop _ => startsKnown_of_mem hop
  exact thereafter_of (I := Sound sha256 (textsOf ops))
    (fun _ op hsound hop => hsound.step hop (step_serve op))
    (fun _ _ hsound hop => kept_of_sound hsound hop)
    (fun _ _ _ _ hkept hop => hkept.step hop) hask sound_empty hknown hcond

theorem opensOnce {later : PlatformStore} {op' : OpenOp}
    (h : Kept sha256 texts store op later) :
    OpensOnce sha256 store op later op' := by
  intro request response id houtcome status request' response' id' hlater
  have hrecorded := h request response id houtcome
  obtain ⟨token, htoken, invitation, hinvitation, hdigest⟩ := hrecorded.token
  have hstep : OpenStep sha256 op' later (later.afterOpening sha256 op')
      (later.serve sha256 op').2 := step_serve op'
  rw [hlater] at hstep
  rw [htoken]
  cases hstep with
  | replayed c response' id' hin hstage hnext =>
      have hsound := hrecorded.sound.stages c hin
      rw [hstage] at hsound
      obtain ⟨row, -, -, -, hresponse, -⟩ := hsound
      refine ⟨fun hstatus => absurd hstatus (by decide), ?_⟩
      rw [hresponse]
      exact (Option.some_ne_none token).symm
  | opened c rows tables hin hstage htables hnext =>
      have hsound := hrecorded.sound.stages c hin
      rw [hstage] at hsound
      obtain ⟨-, draw, hrows⟩ := hsound
      obtain ⟨token', htoken', hdigest'⟩ := (rowsOf_openRows hrows).token
      obtain ⟨hdistinct, -⟩ := install?_eq_some htables
      constructor
      · intro _ hpair
        apply hrecorded.not_searched hin hpair.symm
        rw [hstage]
        trivial
      · intro hsame
        rw [htoken'] at hsame
        apply hdistinct.token invitation hinvitation
        rw [hdigest, hdigest', Option.some.inj hsame]

/-- The request of a call that found one is the recorded one. -/
theorem Recorded.found
    (h : Recorded sha256 texts request response organizationId store)
    {c : OpenCall} {response' : OpenResponse} {organizationId' : String}
    (hin : c ∈ store.calls.rows) (hpair : c.request.pair = request.pair)
    (hstage : c.stage = .found response' organizationId') :
    c.request.opening.fingerprint sha256 = request.opening.fingerprint sha256
      ∧ response' = response.withoutToken
      ∧ organizationId' = organizationId := by
  have hsound := h.sound.stages c hin
  rw [hstage] at hsound
  obtain ⟨row, hrow, hrowpair, hfingerprint, hresponse, hid⟩ := hsound
  obtain ⟨row', hrow', hrowpair', hfingerprint', hsnapshot, hid'⟩ := h.row
  obtain rfl : row = row' :=
    h.sound.eq_of_pair hrow hrow' (hrowpair.trans (hpair.trans hrowpair'.symm))
  refine ⟨hfingerprint.symm.trans hfingerprint', ?_, hid.trans hid'⟩
  rw [hresponse, hsnapshot]
  rfl

theorem refusesDifferent {later : PlatformStore} {op' : OpenOp}
    (hsha : Set.InjOn sha256 texts) (h : Kept sha256 texts store op later)
    (hop : StartsKnown texts op') :
    RefusesDifferent sha256 store op later op' := by
  intro request response id houtcome request' hpair hdifferent
  have hrecorded := h request response id houtcome
  have hfingerprint (hknown : request'.opening.canonical ∈ texts) :
      request'.opening.fingerprint sha256
        ≠ request.opening.fingerprint sha256 := by
    intro hsame
    have hopening : request'.opening = request.opening :=
      canonical_injective (hsha hknown hrecorded.known hsame)
    exact hdifferent (hopening ▸ Equal.refl _)
  constructor
  · intro status response' id' hlater
    have hstep : OpenStep sha256 op' later (later.afterOpening sha256 op')
        (later.serve sha256 op').2 := step_serve op'
    rw [hlater] at hstep
    cases hstep with
    | replayed c response' id' hin hstage hnext =>
        exact hfingerprint (hrecorded.sound.known c hin)
          (hrecorded.found hin hpair hstage).1
    | opened c rows tables hin hstage htables hnext =>
        apply hrecorded.not_searched hin hpair.symm
        rw [hstage]
        trivial
  · rintro call clock rfl hfree
    cases hvalid : validateOpening request'.opening clock with
    | error reason => exact ⟨reason, settled_alone_rejected hfree hvalid⟩
    | ok _ =>
        obtain ⟨row, hrow, hrowpair, hrowfingerprint, -⟩ := hrecorded.row
        refine ⟨_, settled_alone_conflict hrecorded.sound hfree hvalid hrow
          (hrowpair.trans hpair.symm) ?_⟩
        rw [hrowfingerprint]
        exact (hfingerprint (hop call request' clock rfl)).symm

/-- An opening that was accepted is valid until its expiry. -/
theorem validateOpening_ok {opening : OrganizationOpening} {clock : Timestamp}
    (hperiod : opening.currentPeriodStart.timestamp
      < opening.currentPeriodEnd.timestamp)
    (hexpiry : ∀ t ∈ opening.expiresAt, clock < t.timestamp) :
    validateOpening opening clock = .ok () := by
  rw [validateOpening, if_neg (not_le.mpr hperiod)]
  cases hexpires : opening.expiresAt with
  | none => rfl
  | some t =>
      show (if t.timestamp ≤ clock then _ else _) = _
      rw [if_neg (not_le.mpr (hexpiry t hexpires))]

theorem repeats {later : PlatformStore} {op' : OpenOp}
    (h : Kept sha256 texts store op later)
    (hcond : Repeatable sha256 store op later op') :
    Repeats sha256 store op later op' := by
  intro request response id houtcome request' hpair hequal
  have hrecorded := h request response id houtcome
  obtain ⟨hstart, hlookUp⟩ := hcond request response id houtcome request'
    hpair hequal
  obtain ⟨row, hrow, hrowpair, hrowfingerprint, hsnapshot, hid⟩ := hrecorded.row
  have hvalid {call : String} {clock : Timestamp}
      (hop' : op' = .start call request' clock) :
      validateOpening request'.opening clock = .ok () := by
    obtain ⟨halike, hexpiry⟩ := hstart call clock hop'
    refine validateOpening_ok ?_ hexpiry
    rw [eq_of_writtenAlike hequal halike]
    exact hrecorded.period
  have hstep : OpenStep sha256 op' later (later.afterOpening sha256 op')
      (later.serve sha256 op').2 := step_serve op'
  refine ⟨fun status response' id' hlater => ?_, fun reason hlater => ?_,
    fun call clock hop' hfree => ?_⟩
  · rw [hlater] at hstep
    cases hstep with
    | replayed c response' id' hin hstage hnext =>
        exact ⟨rfl, (hrecorded.found hin hpair hstage).2⟩
    | opened c rows tables hin hstage htables hnext =>
        refine absurd ?_ (hrecorded.not_searched hin hpair.symm)
        rw [hstage]
        trivial
  · rw [hlater] at hstep
    cases hstep with
    | rejected call request' clock reason hop' hreason hnext =>
        rw [hvalid hop'] at hreason
        cases hreason
    | refused c reason hin hcause hnext =>
        cases hcause with
        | aborted hop' => exact ⟨c.call, hop'⟩
        | conflict prior hop' hprior hpriorpair hdiffers =>
            have hsame := eq_of_writtenAlike hequal (hlookUp c hin hop' rfl)
            have hrow' : prior = row := hrecorded.sound.eq_of_pair hprior hrow
              (hpriorpair.trans (hpair.trans hrowpair.symm))
            rw [hrow', hrowfingerprint, hsame] at hdiffers
            exact absurd rfl hdiffers
        | later hsearched =>
            exact absurd hsearched (hrecorded.not_searched hin hpair.symm)
  · obtain ⟨halike, -⟩ := hstart call clock hop'
    have hsettled := settled_alone_replayed hrecorded.sound hfree (hvalid hop')
      hrow (hrowpair.trans hpair.symm)
      (by rw [hrowfingerprint, eq_of_writtenAlike hequal halike])
    rw [hsettled, hsnapshot, hid]
    rfl

/-- Openings however they interleave: slugs are unique, a step changes what
it may, an actor and a key open one organization, and a different opening
is refused. Where each equal opening starts before its expiry and writes
its datetimes as the first did, it is answered with what was recorded. -/
theorem openings_sound (sha256 : String → String) (ops : List OpenOp)
    (hsha : Set.InjOn sha256 (textsOf ops)) :
    Always (afterOpening sha256) (fun s => s.tables.slugs.Nodup) .empty ops
      ∧ Along (afterOpening sha256) (OpensSoundly sha256) .empty ops
      ∧ Thereafter (afterOpening sha256) (OpensOnce sha256) .empty ops
      ∧ Thereafter (afterOpening sha256) (RefusesDifferent sha256) .empty ops
      ∧ (Thereafter (afterOpening sha256) (Repeatable sha256) .empty ops →
        Thereafter (afterOpening sha256) (Repeats sha256) .empty ops) := by
  have hkeep (store : PlatformStore) (op : OpenOp)
      (h : Sound sha256 Set.univ store) :
      Sound sha256 Set.univ (store.afterOpening sha256 op) :=
    h.step (fun _ _ _ _ => Set.mem_univ _) (step_serve op)
  refine ⟨fun es hes => ?_, ?_, ?_, ?_, fun hcond => ?_⟩
  · exact (always_of_forall hkeep sound_empty es hes).slugs
  · exact along_of_invariant hkeep (fun _ op h => opensSoundly h op) sound_empty
  · exact thereafter_kept (fun _ _ _ _ hkept _ _ => opensOnce hkept)
      thereafter_true
  · exact thereafter_kept
      (fun _ _ _ _ hkept hop _ => refusesDifferent hsha hkept hop)
      thereafter_true
  · exact thereafter_kept (fun _ _ _ _ hkept _ hc => repeats hkept hc) hcond

-- ========================================== a repeat after the expiry

/-- Midnight UTC of a day of 2026. -/
def midnight (month day : Nat)
    (h : 1 ≤ month ∧ month ≤ 12 ∧ 1 ≤ day ∧ day ≤ daysInMonth 2026 month) :
    AwareDatetime where
  date := ⟨2026, month, day, by decide, by decide, h⟩
  hour := 0
  minute := 0
  second := 0
  microsecond := 0
  offset := 0
  valid := by decide
  offset_valid := by decide

/-- An organization to expire in March, … -/
def pilotRequest : OpenRequest where
  actorIdentityId := "admin"
  idempotencyKey := "open-acme"
  opening :=
    { slug := "acme", displayName := "Acme", adminEmail := "admin@acme.test"
      planKey := "pilot", monthlyCaseAllowance := 5
      currentPeriodStart := midnight 1 1 (by decide)
      currentPeriodEnd := midnight 2 1 (by decide)
      expiresAt := some (midnight 3 1 (by decide)) }

/-- … opened in January. -/
def pilotDraw : OpenDraw where
  now := midnight 1 15 (by decide)
  organizationId := "organization"
  invitationId := "invitation"
  recordId := "record"
  requestId := "request"
  invitationToken := "opening-token"

/-- The digests of the texts of this run. -/
def pilotDigests (value : String) : String :=
  if value = "opening-token" then
    "6d160ba1c320dc52a4af13ef880476184b2a6db65a50f1d3628ec2c8b4210828"
  else "1ce33b6b38e7ef2fd3abedaee56298f1f1a708ef3f5eccdbac0345ca003eb89d"

def pilotOpened : List OpenOp :=
  [.start "first" pilotRequest pilotDraw.now.timestamp, .lockRequest "first",
    .lookUp "first", .lockSlug "first", .checkSlug "first",
    .insert "first" pilotDraw, .commit "first"]

def pilotResponse : OpenResponse :=
  openResponse pilotRequest.opening pilotDraw (midnight 1 18 (by decide))

/-- A run of one opening only, each time before its expiry. -/
theorem repeatable_of_subsingleton {ops : List OpenOp}
    (hone : (textsOf ops).Subsingleton)
    (hexpiry : ∀ call request clock, OpenOp.start call request clock ∈ ops →
      ∀ t ∈ request.opening.expiresAt, clock < t.timestamp) :
    Thereafter (afterOpening sha256) (Repeatable sha256) .empty ops := by
  have halike {a b : OrganizationOpening} (ha : a.canonical ∈ textsOf ops)
      (hb : b.canonical ∈ textsOf ops) : WrittenAlike a b := by
    rw [canonical_injective (hone ha hb)]
    exact ⟨rfl, rfl, rfl⟩
  have hmem : Thereafter (afterOpening sha256)
      (fun _ _ _ op' => op' ∈ ops) .empty ops :=
    thereafter_of_mem fun _ hop _ _ _ => hop
  refine thereafter_kept ?_ hmem
  intro store op later op' hkept hop hin request response id houtcome request'
    _ _
  have hrecorded := hkept request response id houtcome
  constructor
  · rintro call clock rfl
    exact ⟨halike (hop call request' clock rfl) hrecorded.known,
      hexpiry call request' clock hin⟩
  · rintro c hc - rfl
    exact halike (hrecorded.sound.known c hc) hrecorded.known

theorem pilot_subsingleton (clock : Timestamp) :
    (textsOf (pilotOpened ++ alone "second" pilotRequest clock)).Subsingleton := by
  rintro - ⟨call, request, at₁, hin, rfl⟩ - ⟨call', request', at₂, hin', rfl⟩
  simp [pilotOpened, alone] at hin hin'
  have hrequest : request = pilotRequest := by
    rcases hin with ⟨-, h, -⟩ | ⟨-, h, -⟩ <;> exact h
  have hrequest' : request' = pilotRequest := by
    rcases hin' with ⟨-, h, -⟩ | ⟨-, h, -⟩ <;> exact h
  rw [hrequest, hrequest']

/-- Opened in January and asked for again the day before it expires. -/
theorem openings_sound_pilot :
    Thereafter (afterOpening pilotDigests) (Repeats pilotDigests) .empty
      (pilotOpened ++ alone "second" pilotRequest
        (midnight 2 28 (by decide)).timestamp) := by
  have hone := pilot_subsingleton (midnight 2 28 (by decide)).timestamp
  refine (openings_sound pilotDigests _ (hone.injOn _)).2.2.2.2
    (repeatable_of_subsingleton hone fun call request clock hin t ht => ?_)
  simp [pilotOpened, alone] at hin
  rcases hin with ⟨-, rfl, rfl⟩ | ⟨-, rfl, rfl⟩
  · cases ht
    decide +kernel
  · cases ht
    decide +kernel

/-- Asked for again when it has expired, it is refused. -/
theorem not_repeats_pilot :
    ¬ Thereafter (afterOpening pilotDigests) (Repeats pilotDigests) .empty
      (pilotOpened ++ alone "second" pilotRequest
        (midnight 3 1 (by decide)).timestamp) := by
  intro h
  obtain ⟨-, -, -, -, -, -, ⟨hstart, -⟩, -⟩ := h
  obtain ⟨-, hrefused, -⟩ := hstart pilotRequest pilotResponse "organization"
    (by decide +kernel) pilotRequest rfl (Equal.refl _)
  obtain ⟨call, hop⟩ := hrefused (.http 422 "invalid_organization_expiry")
    (by decide +kernel)
  cases hop

end PatentEvidence.Platform
