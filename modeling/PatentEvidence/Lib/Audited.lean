/-
Audited transactions: every attempt to change the data leaves one entry in
a trail, in the transaction that made the change or, when there was none,
in one of its own.

A request is admitted or refused before its transaction; the transaction
commits with its effect and its entry, or raises and leaves the entry of
its refusal still to be recorded; and recording it is one more
transaction, which may fail. Between these steps any others come. Data may
also change elsewhere, without an entry.

`run_data` is the refinement: the data are what the commits, one after
another, make of the first ones. `run_trail` ties the entries of commits to
them, in order, and `step_length` is the balance of one step: what is begun
is in the trail, in progress or lost.
-/
import PatentEvidence.Lib.Run
import PatentEvidence.Lib.Table

namespace PatentEvidence

-- =========================================================== refinement

namespace Runs

variable {σ ε τ μ : Type _}

/-- What the events of a run commit, in order. -/
def committed (step : σ → ε → σ) (commit : σ → ε → Option μ) :
    σ → List ε → List μ
  | _, [] => []
  | s, e :: es => (commit s e).toList ++ committed step commit (step s e) es

/-- Where a step is, as a coarser state sees it, its commit or nothing, a
run is the run of its commits. -/
theorem run_refines {step : σ → ε → σ} {coarse : τ → μ → τ} {abs : σ → τ}
    {commit : σ → ε → Option μ}
    (h : ∀ s e, abs (step s e) = run coarse (abs s) (commit s e).toList) (s : σ)
    (es : List ε) :
    abs (run step s es) = run coarse (abs s) (committed step commit s es) := by
  induction es generalizing s with
  | nil => rfl
  | cons e es ih => rw [run_cons, committed, run_append, ← h, ih]

/-- What is appended to a list step by step, read off the commits; `I` is
what holds of every state of the run. -/
theorem run_appends {η : Type _} {step : σ → ε → σ} (log : σ → List η)
    {commit : σ → ε → Option μ} {entries : μ → List η} {I : σ → Prop}
    (hI : ∀ s e, I s → I (step s e))
    (h : ∀ s e, I s →
      log (step s e) = log s ++ (commit s e).toList.flatMap entries)
    {s : σ} (hs : I s) (es : List ε) :
    log (run step s es)
      = log s ++ (committed step commit s es).flatMap entries := by
  induction es generalizing s with
  | nil => simp [committed]
  | cons e es ih =>
      rw [run_cons, ih (hI s e hs), h s e hs, committed, List.flatMap_append,
        List.append_assoc]

/-- What every commit meets where the run makes it, it meets where the run
of commits makes it. -/
theorem along_committed {step : σ → ε → σ} {coarse : τ → μ → τ} (abs : σ → τ)
    {commit : σ → ε → Option μ} {ok : τ → μ → Prop}
    (h : ∀ s e, abs (step s e) = run coarse (abs s) (commit s e).toList)
    {es : List ε} (hok : ∀ e ∈ es, ∀ s m, commit s e = some m → ok (abs s) m)
    (s : σ) : Along coarse ok (abs s) (committed step commit s es) := by
  induction es generalizing s with
  | nil => trivial
  | cons e es ih =>
      obtain ⟨hfirst, hrest⟩ := List.forall_mem_cons.mp hok
      rw [committed, along_append, ← h]
      refine ⟨?_, ih hrest (step s e)⟩
      cases hcommit : commit s e with
      | none => trivial
      | some m => exact ⟨hfirst s m hcommit, trivial⟩

/-- Every commit is one of a step. -/
theorem mem_committed {step : σ → ε → σ} {commit : σ → ε → Option μ} {m : μ}
    {es : List ε} {s : σ} (h : m ∈ committed step commit s es) :
    ∃ e ∈ es, ∃ s', commit s' e = some m := by
  induction es generalizing s with
  | nil => cases h
  | cons e es ih =>
      rcases List.mem_append.mp h with h | h
      · exact ⟨e, List.mem_cons_self, s, by simpa using h⟩
      · obtain ⟨e', he', hcommit⟩ := ih h
        exact ⟨e', List.mem_cons_of_mem _ he', hcommit⟩

end Runs

namespace Audited

open Runs

-- =============================================================== system

/-- What a transaction does with some work in some environment, with the
entry of its effect, and the entry of what it raised. -/
structure Protocol (σ ω ν ε η : Type) where
  attempt : σ → ω → ν → Except ε (σ × η)
  reject : ω → ε → η

/-- How far a request is: admitted, or with its refusal to be recorded. -/
inductive Stage (η : Type)
  | admitted
  | rejected (entry : η)

structure Submission (ω η : Type) where
  request : String
  work : ω
  stage : Stage η

structure System (σ ω η : Type) where
  data : σ
  trail : List η
  inProgress : Table (Submission.request (ω := ω) (η := η))

/-- The steps; `κ` is what changes the data elsewhere. -/
inductive Event (ω ν ε κ : Type)
  | allow (request : String) (work : ω)
  | refuse (request : String) (work : ω) (error : ε)
  | transact (request : String) (env : ν)
  | record (request : String) (kept : Bool)
  | lose (request : String)
  | elsewhere (change : κ)

section Steps

variable {σ ω ν ε η κ : Type} (protocol : Protocol σ ω ν ε η)
  (change : σ → κ → σ) (system : System σ ω η)

/-- A request begins; one of a known name does not. -/
def begin (submission : Submission ω η) : System σ ω η :=
  match system.inProgress.insert? submission with
  | none => system
  | some inProgress => { system with inProgress := inProgress }

def finish (request : String) : Table (Submission.request (ω := ω) (η := η)) :=
  system.inProgress.delete fun s => s.request = request

/-- The transaction of an admitted request. -/
def transact (request : String) (env : ν) : System σ ω η :=
  match system.inProgress.find? request with
  | some { work := work, stage := .admitted, .. } =>
      match protocol.attempt system.data work env with
      | .ok (data, entry) =>
          { data := data, trail := system.trail ++ [entry]
            inProgress := finish system request }
      | .error error =>
          { system with
            inProgress := system.inProgress.update (fun s => s.request = request)
              fun s => { s with stage := .rejected (protocol.reject work error) } }
  | _ => system

/-- The record of a refusal. -/
def record (request : String) (kept : Bool) : System σ ω η :=
  match system.inProgress.find? request with
  | some { stage := .rejected entry, .. } =>
      { system with
        trail := if kept then system.trail ++ [entry] else system.trail
        inProgress := finish system request }
  | _ => system

def step : Event ω ν ε κ → System σ ω η
  | .allow request work =>
      begin system { request := request, work := work, stage := .admitted }
  | .refuse request work error =>
      begin system {
        request := request, work := work
        stage := .rejected (protocol.reject work error) }
  | .transact request env => transact protocol system request env
  | .record request kept => record system request kept
  | .lose request => { system with inProgress := finish system request }
  | .elsewhere c => { system with data := change system.data c }

end Steps

-- ============================================================== commits

/-- A commit: a transaction that changed the data, with its entry, or a
change made elsewhere. -/
inductive Commit (ω ν κ η : Type)
  | transaction (work : ω) (env : ν) (entry : η)
  | elsewhere (change : κ)

section Commits

variable {σ ω ν ε η κ : Type} (protocol : Protocol σ ω ν ε η)
  (change : σ → κ → σ)

/-- The entry a commit leaves. -/
def Commit.entries : Commit ω ν κ η → List η
  | .transaction _ _ entry => [entry]
  | .elsewhere _ => []

/-- What a commit makes of the data. -/
def apply (data : σ) : Commit ω ν κ η → σ
  | .transaction work env _ =>
      match protocol.attempt data work env with
      | .ok (data, _) => data
      | .error _ => data
  | .elsewhere c => change data c

/-- What a step commits. -/
def commit (system : System σ ω η) : Event ω ν ε κ → Option (Commit ω ν κ η)
  | .transact request env =>
      match system.inProgress.find? request with
      | some { work := work, stage := .admitted, .. } =>
          match protocol.attempt system.data work env with
          | .ok (_, entry) => some (.transaction work env entry)
          | .error _ => none
      | _ => none
  | .elsewhere c => some (.elsewhere c)
  | _ => none

variable {protocol change} {system : System σ ω η}

-- ======================================================= what a step does

@[simp] theorem data_begin (submission : Submission ω η) :
    (begin system submission).data = system.data := by
  unfold begin
  split <;> rfl

@[simp] theorem trail_begin (submission : Submission ω η) :
    (begin system submission).trail = system.trail := by
  unfold begin
  split <;> rfl

@[simp] theorem data_record (request : String) (kept : Bool) :
    (record system request kept).data = system.data := by
  unfold record
  split <;> rfl

/-- What a transaction does: with a request that is admitted, and where the
attempt goes through or not; else nothing. -/
theorem transact_cases (protocol : Protocol σ ω ν ε η) (change : σ → κ → σ)
    (system : System σ ω η) (request : String) (env : ν) :
    (∃ submission ∈ system.inProgress.rows, ∃ data entry,
        submission.request = request ∧ submission.stage = .admitted
          ∧ protocol.attempt system.data submission.work env = .ok (data, entry)
          ∧ commit protocol system (.transact request env : Event ω ν ε κ)
            = some (.transaction submission.work env entry)
          ∧ step protocol change system (.transact request env)
            = { data := data, trail := system.trail ++ [entry]
                inProgress := finish system request })
      ∨ (∃ submission ∈ system.inProgress.rows, ∃ error,
        submission.request = request ∧ submission.stage = .admitted
          ∧ commit protocol system (.transact request env : Event ω ν ε κ) = none
          ∧ step protocol change system (.transact request env)
            = { system with
                inProgress := system.inProgress.update
                  (fun s => s.request = request) fun s => { s with
                    stage := .rejected (protocol.reject submission.work error) } })
      ∨ (commit protocol system (.transact request env : Event ω ν ε κ) = none
          ∧ step protocol change system (.transact request env) = system) := by
  simp only [step, transact, commit]
  split
  · next request' work hfind =>
      obtain ⟨hin, hrequest⟩ := Table.find?_eq_some hfind
      dsimp only at hrequest
      subst hrequest
      cases hattempt : protocol.attempt system.data work env with
      | ok result =>
          obtain ⟨data, entry⟩ := result
          exact .inl ⟨_, hin, data, entry, rfl, rfl, hattempt, rfl, rfl⟩
      | error error =>
          exact .inr (.inl ⟨_, hin, error, rfl, rfl, rfl, rfl⟩)
  · exact .inr (.inr ⟨rfl, rfl⟩)

/-- A commit of a transaction is an attempt that went through. -/
theorem attempt_of_commit {event : Event ω ν ε κ} {work : ω} {env : ν} {entry : η}
    (h : commit protocol system event = some (.transaction work env entry)) :
    ∃ data, protocol.attempt system.data work env = .ok (data, entry) := by
  cases event with
  | transact request env' =>
      rcases transact_cases protocol (fun data (_ : κ) => data) system request env'
        with ⟨submission, -, data, entry', -, -, hattempt, hcommit, -⟩
          | ⟨submission, -, error, -, -, hcommit, -⟩ | ⟨hcommit, -⟩
      · rw [hcommit] at h
        cases h
        exact ⟨data, hattempt⟩
      · rw [hcommit] at h
        cases h
      · rw [hcommit] at h
        cases h
  | elsewhere c => cases h
  | allow request work => cases h
  | refuse request work error => cases h
  | record request kept => cases h
  | lose request => cases h

/-- And one of elsewhere is that step. -/
theorem event_of_commit_elsewhere {event : Event ω ν ε κ} {c : κ}
    (h : commit protocol system event = some (.elsewhere c)) :
    event = .elsewhere c := by
  cases event with
  | transact request env =>
      unfold commit at h
      dsimp only at h
      split at h
      · split at h
        · cases h
        · cases h
      · cases h
  | elsewhere c' =>
      cases h
      rfl
  | allow request work => cases h
  | refuse request work error => cases h
  | record request kept => cases h
  | lose request => cases h

/-- What a record does. -/
theorem record_cases (system : System σ ω η) (request : String) (kept : Bool) :
    (∃ submission ∈ system.inProgress.rows, ∃ entry,
        submission.request = request ∧ submission.stage = .rejected entry
          ∧ record system request kept
            = { system with
                trail := if kept then system.trail ++ [entry] else system.trail
                inProgress := finish system request })
      ∨ record system request kept = system
        ∧ ∀ submission ∈ system.inProgress.rows,
          submission.request = request → submission.stage = .admitted := by
  unfold record
  split
  · next request' work entry hfind =>
      obtain ⟨hin, hrequest⟩ := Table.find?_eq_some hfind
      exact .inl ⟨_, hin, entry, hrequest, rfl, rfl⟩
  · next hnone =>
      refine .inr ⟨rfl, fun submission hin hrequest => ?_⟩
      have hfind := Table.find?_of_mem hin
      rw [hrequest] at hfind
      cases hstage : submission.stage with
      | admitted => rfl
      | rejected entry =>
          obtain ⟨request', work, stage⟩ := submission
          dsimp only at hstage
          subst hstage
          exact absurd hfind (hnone _ _ _)

theorem apply_transaction {data data' : σ} {work : ω} {env : ν} {entry entry' : η}
    (h : protocol.attempt data work env = .ok (data', entry')) :
    apply protocol change data (.transaction work env entry) = data' := by
  simp only [apply, h]

/-- One step changes the data as its commit does. -/
theorem step_data (protocol : Protocol σ ω ν ε η) (change : σ → κ → σ)
    (system : System σ ω η) (event : Event ω ν ε κ) :
    (step protocol change system event).data
      = run (apply protocol change) system.data
        (commit protocol system event).toList := by
  cases event with
  | allow request work => exact data_begin _
  | refuse request work error => exact data_begin _
  | transact request env =>
      rcases transact_cases protocol change system request env with
        ⟨submission, -, data, entry, -, -, hattempt, hcommit, hstep⟩
          | ⟨submission, -, error, -, -, hcommit, hstep⟩ | ⟨hcommit, hstep⟩
      · rw [hcommit, hstep]
        show data = apply protocol change system.data
          (.transaction submission.work env entry)
        exact (apply_transaction hattempt).symm
      · rw [hcommit, hstep]
        rfl
      · rw [hcommit, hstep]
        rfl
  | record request kept => exact data_record request kept
  | lose request => rfl
  | elsewhere c => rfl

/-- The refinement: the data after a run are what its commits make of the
first ones, one after another. -/
theorem run_data (protocol : Protocol σ ω ν ε η) (change : σ → κ → σ)
    (system : System σ ω η) (events : List (Event ω ν ε κ)) :
    (run (step protocol change) system events).data
      = run (apply protocol change) system.data
        (committed (step protocol change) (commit protocol) system events) :=
  run_refines (step_data protocol change) system events

-- ============================================================== the trail

/-- A mark on entries that those of commits have and those of refusals do
not. -/
structure Marks (protocol : Protocol σ ω ν ε η) (allowed : η → Bool) : Prop where
  attempt : ∀ data work env result,
    protocol.attempt data work env = .ok result → allowed result.2 = true
  reject : ∀ work error, allowed (protocol.reject work error) = false

/-- What is still to be recorded is a refusal. -/
def PendingRefusals (allowed : η → Bool) (system : System σ ω η) : Prop :=
  ∀ submission ∈ system.inProgress.rows, ∀ entry,
    submission.stage = .rejected entry → allowed entry = false

theorem PendingRefusals.begin {allowed : η → Bool} {submission : Submission ω η}
    (h : PendingRefusals allowed system)
    (hnew : ∀ entry, submission.stage = .rejected entry → allowed entry = false) :
    PendingRefusals allowed (begin system submission) := by
  unfold Audited.begin
  split
  · exact h
  · next inProgress hinsert =>
      intro s hs
      rw [(Table.insert?_eq_some.mp hinsert).2] at hs
      rcases List.mem_append.mp hs with hs | hs
      · exact h s hs
      · rw [List.mem_singleton.mp hs]
        exact hnew

theorem PendingRefusals.finish {allowed : η → Bool} {data : σ} {trail : List η}
    (h : PendingRefusals allowed system) (request : String) :
    PendingRefusals allowed
      { data := data, trail := trail, inProgress := finish system request } :=
  fun s hs => h s (List.mem_of_mem_filter hs)

theorem PendingRefusals.step {allowed : η → Bool} (hmarks : Marks protocol allowed)
    (change : σ → κ → σ) (event : Event ω ν ε κ)
    (h : PendingRefusals allowed system) :
    PendingRefusals allowed (step protocol change system event) := by
  cases event with
  | allow request work => exact h.begin fun entry heq => nomatch heq
  | refuse request work error =>
      refine h.begin fun entry heq => ?_
      cases heq
      exact hmarks.reject work error
  | transact request env =>
      rcases transact_cases protocol change system request env with
        ⟨submission, -, data, entry, -, -, -, -, hstep⟩
          | ⟨submission, -, error, -, -, -, hstep⟩ | ⟨-, hstep⟩
      · rw [hstep]
        exact h.finish request
      · rw [hstep]
        intro s hs entry heq
        obtain ⟨s', hs', rfl⟩ := List.mem_map.mp hs
        by_cases hrequest : s'.request = request
        · simp only [hrequest, decide_true, if_true, Stage.rejected.injEq] at heq
          rw [← heq]
          exact hmarks.reject ..
        · simp only [hrequest, decide_false, Bool.false_eq_true, if_false] at heq
          exact h s' hs' entry heq
      · rw [hstep]
        exact h
  | record request kept =>
      show PendingRefusals allowed (record system request kept)
      rcases record_cases system request kept with
        ⟨submission, -, entry, -, -, hrecord⟩ | ⟨hrecord, -⟩
      · rw [hrecord]
        exact h.finish request
      · rw [hrecord]
        exact h
  | lose request => exact h.finish request
  | elsewhere c => exact h

/-- The marked entries of the trail are those of the commits, in order. -/
theorem run_trail {allowed : η → Bool} (hmarks : Marks protocol allowed)
    (change : σ → κ → σ) (h : PendingRefusals allowed system)
    (events : List (Event ω ν ε κ)) :
    (run (step protocol change) system events).trail.filter allowed
      = system.trail.filter allowed
        ++ (committed (step protocol change) (commit protocol) system
          events).flatMap Commit.entries := by
  refine run_appends (fun s : System σ ω η => s.trail.filter allowed)
    (I := PendingRefusals allowed) (fun s event hs => hs.step hmarks change event)
    (fun s event hs => ?_) h events
  cases event with
  | allow request work =>
      show (begin s _).trail.filter allowed = _
      simp [commit]
  | refuse request work error =>
      show (begin s _).trail.filter allowed = _
      simp [commit]
  | transact request env =>
      rcases transact_cases protocol change s request env with
        ⟨submission, -, data, entry, -, -, hattempt, hcommit, hstep⟩
          | ⟨submission, -, error, -, -, hcommit, hstep⟩ | ⟨hcommit, hstep⟩
      · rw [hcommit, hstep]
        have hallowed := hmarks.attempt _ _ _ _ hattempt
        simp only at hallowed
        simp [hallowed, Commit.entries]
      · rw [hcommit, hstep]
        simp
      · rw [hcommit, hstep]
        simp
  | record request kept =>
      show (record s request kept).trail.filter allowed = _
      rcases record_cases s request kept with
        ⟨submission, hin, entry, -, hstage, hrecord⟩ | ⟨hrecord, -⟩
      · rw [hrecord]
        have hrefusal := hs submission hin entry hstage
        cases kept <;> simp [hrefusal, commit]
      · rw [hrecord]
        simp [commit]
  | lose request => simp [step, commit]
  | elsewhere c => simp [step, commit, Commit.entries]

-- =============================================================== balance

/-- The step begins a request. -/
def begins (system : System σ ω η) : Event ω ν ε κ → Bool
  | .allow request _ => request ∉ system.inProgress.rows.map Submission.request
  | .refuse request _ _ => request ∉ system.inProgress.rows.map Submission.request
  | _ => false

/-- The step loses one: its process ends, or its refusal is not recorded. -/
def loses (system : System σ ω η) : Event ω ν ε κ → Bool
  | .lose request => request ∈ system.inProgress.rows.map Submission.request
  | .record request false =>
      match system.inProgress.find? request with
      | some { stage := .rejected _, .. } => true
      | _ => false
  | _ => false

theorem length_begin (system : System σ ω η) (submission : Submission ω η) :
    (begin system submission).inProgress.rows.length
      = system.inProgress.rows.length
        + (decide (submission.request
          ∉ system.inProgress.rows.map Submission.request)).toNat := by
  unfold begin
  split
  · next hinsert =>
      have htaken : submission.request
          ∈ system.inProgress.rows.map Submission.request := by
        by_contra hfresh
        obtain ⟨t, ht⟩ := Table.exists_insert? hfresh
        rw [ht] at hinsert
        cases hinsert
      simp only [htaken, not_true_eq_false, decide_false, Bool.toNat_false,
        Nat.add_zero]
  · next inProgress hinsert =>
      obtain ⟨hfresh, hrows⟩ := Table.insert?_eq_some.mp hinsert
      simp only [hrows, hfresh, not_false_eq_true, decide_true, Bool.toNat_true,
        List.length_append, List.length_singleton]

theorem length_finish (system : System σ ω η) (request : String) :
    (finish system request).rows.length
        + (decide (request ∈ system.inProgress.rows.map Submission.request)).toNat
      = system.inProgress.rows.length :=
  system.inProgress.length_delete_key request

theorem length_finish_of_mem {submission : Submission ω η}
    (h : submission ∈ system.inProgress.rows) :
    (finish system submission.request).rows.length + 1
      = system.inProgress.rows.length := by
  have hlength := length_finish system submission.request
  simpa [List.mem_map_of_mem h] using hlength

/-- One step: what is begun goes into the trail, stays in progress or is
lost. -/
theorem step_length (protocol : Protocol σ ω ν ε η) (change : σ → κ → σ)
    (system : System σ ω η) (event : Event ω ν ε κ) :
    (step protocol change system event).trail.length
          + (step protocol change system event).inProgress.rows.length
        + (loses system event).toNat
      = system.trail.length + system.inProgress.rows.length
        + (begins system event).toNat := by
  cases event with
  | allow request work =>
      have hlength := length_begin system {
        request := request, work := work, stage := .admitted }
      dsimp only at hlength
      simp only [step, trail_begin, loses, begins, Bool.toNat_false]
      omega
  | refuse request work error =>
      have hlength := length_begin system {
        request := request, work := work
        stage := .rejected (protocol.reject work error) }
      dsimp only at hlength
      simp only [step, trail_begin, loses, begins, Bool.toNat_false]
      omega
  | transact request env =>
      simp only [loses, begins, Bool.toNat_false]
      rcases transact_cases protocol change system request env with
        ⟨submission, hin, data, entry, rfl, -, -, -, hstep⟩
          | ⟨submission, -, error, -, -, -, hstep⟩ | ⟨-, hstep⟩
      · have hlength := length_finish_of_mem hin
        rw [hstep]
        simp only [List.length_append, List.length_singleton]
        omega
      · rw [hstep]
        simp
      · rw [hstep]
  | record request kept =>
      show (record system request kept).trail.length
          + (record system request kept).inProgress.rows.length + _ = _
      rcases record_cases system request kept with
        ⟨submission, hin, entry, rfl, hstage, hrecord⟩ | ⟨hrecord, hadmitted⟩
      · have hlength := length_finish_of_mem hin
        rw [hrecord]
        cases kept with
        | true =>
            simp only [if_true, List.length_append, List.length_singleton, loses,
              begins, Bool.toNat_false]
            omega
        | false =>
            have hloses : loses system (.record submission.request false
                : Event ω ν ε κ) = true := by
              obtain ⟨request, work, stage⟩ := submission
              dsimp only at hstage
              subst hstage
              simp only [loses, Table.find?_of_mem hin]
            simp only [hloses, Bool.false_eq_true, if_false, begins,
              Bool.toNat_false, Bool.toNat_true]
            omega
      · have hloses : loses system (.record request kept : Event ω ν ε κ)
            = false := by
          cases kept with
          | true => rfl
          | false =>
              unfold loses
              dsimp only
              split
              · next hfind =>
                  obtain ⟨hin, hrequest⟩ := Table.find?_eq_some hfind
                  cases hadmitted _ hin hrequest
              · rfl
        rw [hrecord, hloses]
        rfl
  | lose request =>
      have hlength := length_finish system request
      simp only [step, loses, begins, Bool.toNat_false]
      omega
  | elsewhere c => rfl

end Commits

end Audited

end PatentEvidence
