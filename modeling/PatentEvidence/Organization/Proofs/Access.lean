/-
The audited, concurrent administration refines the serial one, and its
trail is the account of it.

Whatever requests do at the same time, the rows of the organization are
what the committed mutations, each one step of `afterAdministration`, make
of the first rows one after another; so what holds of serial runs holds
here. The entries of the trail marked allowed are those of the committed
mutations, in the order of their commits, each made by an administrator of
that moment.
-/
import PatentEvidence.Organization.Access

namespace PatentEvidence.Organization

open Cases (Refusal)
open Audited Fallible Runs OrganizationStore

variable {digestSecret lower : String → String}
  {store next : OrganizationStore} {env : RequestEnv}

-- ======================================================= one transaction

/-- A block that went through is a step of the administration, made with
the rights of an administrator. -/
theorem execute_of_perform {work : OrganizationWork} {targetId : Option String}
    {safeSummary : String}
    (h : store.perform digestSecret lower env work
      = .ok (next, targetId, safeSummary)) :
    ∃ op, work.op = some op ∧ op.isMutation = true
      ∧ store.authorize env = .ok ()
      ∧ store.execute digestSecret lower env op = .ok next := by
  cases work with
  | createInvitation body =>
      cases body with
      | none =>
          obtain ⟨-, -, h⟩ := bind_eq_ok.mp h
          cases h
      | some body =>
          obtain ⟨email, role⟩ := body
          obtain ⟨next', hcreate, h⟩ := bind_eq_ok.mp h
          cases pure_eq_ok.mp h
          refine ⟨.create email role, rfl, rfl, ?_, hcreate⟩
          exact (bind_eq_ok.mp hcreate).choose_spec.1
  | revokeInvitation target =>
      cases target with
      | none =>
          obtain ⟨-, -, h⟩ := bind_eq_ok.mp h
          cases h
      | some target =>
          obtain ⟨next', hrevoke, h⟩ := bind_eq_ok.mp h
          cases pure_eq_ok.mp h
          refine ⟨.revoke target, rfl, rfl, ?_, hrevoke⟩
          exact (bind_eq_ok.mp hrevoke).choose_spec.1
  | resendInvitation target =>
      cases target with
      | none =>
          obtain ⟨-, -, h⟩ := bind_eq_ok.mp h
          cases h
      | some target =>
          obtain ⟨next', hresend, h⟩ := bind_eq_ok.mp h
          cases pure_eq_ok.mp h
          refine ⟨.resend target, rfl, rfl, ?_, hresend⟩
          exact (bind_eq_ok.mp hresend).choose_spec.1
  | changeMemberRole target body =>
      cases target with
      | none =>
          obtain ⟨-, -, h⟩ := bind_eq_ok.mp h
          cases h
      | some target =>
          cases body with
          | none =>
              obtain ⟨-, -, h⟩ := bind_eq_ok.mp h
              cases h
          | some role =>
              obtain ⟨next', hset, h⟩ := bind_eq_ok.mp h
              cases pure_eq_ok.mp h
              refine ⟨.setRole target role, rfl, rfl, ?_, hset⟩
              exact (bind_eq_ok.mp hset).choose_spec.1
  | changeMemberStatus target transition =>
      cases target with
      | none =>
          obtain ⟨-, -, h⟩ := bind_eq_ok.mp h
          cases h
      | some target =>
          obtain ⟨next', hset, h⟩ := bind_eq_ok.mp h
          cases pure_eq_ok.mp h
          refine ⟨.setStatus target transition, rfl, rfl, ?_, hset⟩
          exact (bind_eq_ok.mp hset).choose_spec.1

/-- The entry of a mutation names its actor, action and target type, and
says that it was allowed. -/
structure Describes (mutation : OrganizationMutation)
    (entry : OrganizationAuditEvent) : Prop where
  actor : entry.actorIdentityId = mutation.principal
  action : entry.action = mutation.work.action
  targetType : entry.targetType = mutation.work.targetType
  allowed : entry.result = .allowed

/-- A transaction that went through: its step of the administration, and
its entry. -/
theorem serve_of_attempt {mutation : OrganizationMutation}
    {entry : OrganizationAuditEvent}
    (h : attempt digestSecret lower store mutation env = .ok (next, entry)) :
    (∃ op, mutation.work.op = some op ∧ op.isMutation = true
      ∧ store.authorize (mutation.env env) = .ok ()
      ∧ store.serve digestSecret lower (op, mutation.env env) = .ok next)
      ∧ Describes mutation entry := by
  unfold attempt at h
  split at h
  · cases h
  · next next' targetId safeSummary hperform =>
      split at h
      · next hcommits =>
          cases h
          obtain ⟨op, hop, hmutation, hauthorize, hexecute⟩ :=
            execute_of_perform hperform
          refine ⟨⟨op, hop, hmutation, hauthorize, ?_⟩, rfl, rfl, rfl, rfl⟩
          refine bind_eq_ok.mpr ⟨next, hexecute, ?_⟩
          have hopen : (mutation.env env).commits = true := hcommits
          refine bind_eq_ok.mpr ⟨(), raiseIf_eq_ok.mpr ?_, rfl⟩
          simp [hopen]
      · cases h

-- ================================================================ replay

abbrev AccessCommit :=
  Commit OrganizationMutation RequestEnv (OrganizationOp × RequestEnv)
    OrganizationAuditEvent

/-- The step of the serial administration that a commit is. -/
def serial : AccessCommit → Option (OrganizationOp × RequestEnv)
  | .transaction mutation env _ =>
      mutation.work.op.map fun op => (op, mutation.env env)
  | .elsewhere event => some event

/-- What every commit of a run is: an attempt that goes through, or a step
that is no mutation. -/
def Accepted (digestSecret lower : String → String) (store : OrganizationStore) :
    AccessCommit → Prop
  | .transaction mutation env entry =>
      ∃ next, attempt digestSecret lower store mutation env = .ok (next, entry)
  | .elsewhere event => event.1.isMutation = false

/-- A mutation is made with an administrator's rights, and goes through. -/
def Authorized (digestSecret lower : String → String) (store : OrganizationStore)
    (event : OrganizationOp × RequestEnv) : Prop :=
  event.1.isMutation = true → store.authorize event.2 = .ok ()
    ∧ ∃ next, store.serve digestSecret lower event = .ok next

/-- Commits, one after another, are their serial steps. -/
theorem run_serial {commits : List AccessCommit}
    (h : Along (apply (protocol digestSecret lower)
      (afterAdministration digestSecret lower)) (Accepted digestSecret lower) store
        commits) :
    run (apply (protocol digestSecret lower)
          (afterAdministration digestSecret lower)) store commits
        = run (afterAdministration digestSecret lower) store
          (commits.filterMap serial)
      ∧ Along (afterAdministration digestSecret lower)
        (Authorized digestSecret lower) store (commits.filterMap serial) := by
  induction commits generalizing store with
  | nil => exact ⟨rfl, trivial⟩
  | cons commit commits ih =>
      obtain ⟨hfirst, hrest⟩ := h
      cases commit with
      | transaction mutation env entry =>
          obtain ⟨next, hattempt⟩ := hfirst
          obtain ⟨⟨op, hop, -, hauthorize, hserve⟩, -⟩ :=
            serve_of_attempt hattempt
          have happly : apply (protocol digestSecret lower)
              (afterAdministration digestSecret lower) store
                (.transaction mutation env entry) = next :=
            apply_transaction hattempt
          have hserial : afterAdministration digestSecret lower store
              (op, mutation.env env) = next := by
            unfold afterAdministration
            rw [hserve]
            rfl
          rw [happly] at hrest
          obtain ⟨hrun, halong⟩ := ih hrest
          have hhead : serial (.transaction mutation env entry)
              = some (op, mutation.env env) := by
            simp [serial, hop]
          rw [List.filterMap_cons_some hhead, run_cons, run_cons, happly, hserial]
          refine ⟨hrun, fun _ => ⟨hauthorize, next, hserve⟩, ?_⟩
          rw [hserial]
          exact halong
      | elsewhere event =>
          obtain ⟨hrun, halong⟩ := ih hrest
          rw [List.filterMap_cons_some (rfl : serial (.elsewhere event) = _),
            run_cons, run_cons]
          refine ⟨hrun, fun hmutation => ?_, halong⟩
          rw [show event.1.isMutation = false from hfirst] at hmutation
          cases hmutation

theorem marks : Marks (protocol digestSecret lower)
    fun entry => entry.result = .allowed where
  attempt store mutation env result h := by
    obtain ⟨next, entry⟩ := result
    simpa using (serve_of_attempt h).2.allowed
  reject mutation raised := by
    obtain ⟨refusal, targetId⟩ := raised
    cases refusal <;> simp [protocol, reject, append]

/-- A run of the access is a run of the audited system, over the steps that
are one. -/
theorem run_afterAccess (system : AccessSystem) (ops : List AccessOp) :
    run (afterAccess digestSecret lower) system ops
      = run (step (protocol digestSecret lower)
        (afterAdministration digestSecret lower)) system
          (ops.filterMap AccessOp.event?) := by
  induction ops generalizing system with
  | nil => rfl
  | cons op ops ih =>
      rw [run_cons, ih]
      unfold afterAccess
      cases hevent : op.event? with
      | none => rw [List.filterMap_cons_none hevent]
      | some event => rw [List.filterMap_cons_some hevent, run_cons]

theorem pendingRefusals_unaudited {allowed : OrganizationAuditEvent → Bool} :
    PendingRefusals allowed (unaudited store) := by
  intro submission hin
  cases hin

/-- No step of elsewhere is a mutation. -/
theorem isMutation_of_elsewhere {op : AccessOp} {event : OrganizationOp × RequestEnv}
    (h : op.event? = some (.elsewhere event)) : event.1.isMutation = false := by
  cases op with
  | elsewhere event' =>
      unfold AccessOp.event? at h
      dsimp only at h
      split at h
      · cases h
      · next hmutation =>
          cases h
          simpa using hmutation
  | begin request work correlationId outcome =>
      unfold AccessOp.event? at h
      dsimp only at h
      split at h <;> cases h
  | transact request env => cases h
  | record request kept => cases h
  | lose request => cases h

section Runs

variable (digestSecret lower : String → String)

/-- In every run: the rows are those of a serial run of the committed
mutations and of what happened elsewhere, in which each mutation goes
through with an administrator's rights; the entries marked allowed are the
committed mutations', one each and in order; and each describes its
mutation. -/
theorem audited_mutations_refine (store : OrganizationStore)
    (ops : List AccessOp) :
    ∃ commits : List AccessCommit,
      (run (afterAccess digestSecret lower) (unaudited store) ops).data
          = run (afterAdministration digestSecret lower) store
            (commits.filterMap serial)
        ∧ Along (afterAdministration digestSecret lower)
          (Authorized digestSecret lower) store (commits.filterMap serial)
        ∧ (run (afterAccess digestSecret lower) (unaudited store)
            ops).trail.filter (fun entry => entry.result = .allowed)
          = commits.flatMap Commit.entries
        ∧ ∀ mutation env entry, .transaction mutation env entry ∈ commits →
          Describes mutation entry := by
  let events := ops.filterMap AccessOp.event?
  let commits := committed (step (protocol digestSecret lower)
    (afterAdministration digestSecret lower)) (commit (protocol digestSecret lower))
    (unaudited store) events
  have haccepted : Along (apply (protocol digestSecret lower)
      (afterAdministration digestSecret lower)) (Accepted digestSecret lower) store
        commits := by
    refine along_committed (fun system : AccessSystem => system.data)
      (step_data (protocol digestSecret lower)
        (afterAdministration digestSecret lower)) (fun event hevent system c hc => ?_)
      (unaudited store)
    cases c with
    | transaction mutation env entry => exact attempt_of_commit hc
    | elsewhere event' =>
        obtain ⟨op, -, hop⟩ := List.mem_filterMap.mp hevent
        rw [event_of_commit_elsewhere hc] at hop
        exact isMutation_of_elsewhere hop
  obtain ⟨hrun, halong⟩ := run_serial haccepted
  refine ⟨commits, ?_, halong, ?_, fun mutation env entry hin => ?_⟩
  · rw [run_afterAccess, run_data]
    exact hrun
  · rw [run_afterAccess, run_trail marks _ pendingRefusals_unaudited]
    rfl
  · obtain ⟨event, -, system, hcommit⟩ := mem_committed hin
    obtain ⟨next, hattempt⟩ := attempt_of_commit hcommit
    exact (serve_of_attempt hattempt).2

-- =============================================================== balance

/-- The requests a step begins, one or none: a request whose principal
could not be looked for is none. -/
def begunBy (system : AccessSystem) (op : AccessOp) : Nat :=
  match op.event? with
  | none => 0
  | some event => (begins system event).toNat

/-- Those it loses: whose process ends, or whose refusal is not written. -/
def lostBy (system : AccessSystem) (op : AccessOp) : Nat :=
  match op.event? with
  | none => 0
  | some event => (loses system event).toNat

/-- In every run the entries of the trail are as many as the requests begun
less those in progress and those lost: each request has one entry, allowed
or not, and none has two. -/
theorem audited_requests_balance (store : OrganizationStore)
    (ops : List AccessOp) :
    (run (afterAccess digestSecret lower) (unaudited store) ops).trail.length
          + (run (afterAccess digestSecret lower) (unaudited store)
            ops).inProgress.rows.length
        + tally (afterAccess digestSecret lower) lostBy (unaudited store) ops
      = tally (afterAccess digestSecret lower) begunBy (unaudited store) ops := by
  have hstep (system : AccessSystem) (op : AccessOp) :
      (afterAccess digestSecret lower system op).trail.length
            + (afterAccess digestSecret lower system op).inProgress.rows.length
          + lostBy system op
        = system.trail.length + system.inProgress.rows.length
          + begunBy system op := by
    unfold afterAccess lostBy begunBy
    cases op.event? with
    | none => rfl
    | some event => exact step_length _ _ system event
  have hrun := tally_eq
    (fun s : AccessSystem => s.trail.length + s.inProgress.rows.length)
    lostBy begunBy hstep (unaudited store) ops
  have hempty : (unaudited store).trail.length
      + (unaudited store).inProgress.rows.length = 0 := rfl
  rw [hempty, Nat.zero_add] at hrun
  exact hrun

end Runs

end PatentEvidence.Organization
