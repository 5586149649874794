/-
The permits of the password pool: the counter is the number of permits not
given back, and each is given back once.

A permit whose flag is unset is always owed a release (`Owed`): its
reservation is unused, its submission is under way, its callback waits for
a future that has not ended, or a thread has called `release`. A permit
whose flag is set was given back, or one thread is about to (`Sound`). So
the thread that gives a slot back finds its own permit among those the
counter counts, and where nothing is outstanding every permit was given
back.

# Sections

- what a call keeps of one reservation;
- the counter;
- runs.
-/
import PatentEvidence.Auth.PasswordWork
import PatentEvidence.Lib.Run

namespace PatentEvidence.Auth

open BoundedPasswordWorkPool Runs

namespace PasswordWork

variable {work work' : PasswordWork}

-- ================================ what a call keeps of one reservation

/-- The future has not ended. -/
def Unfinished (work : PasswordWork) : Prop :=
  ∃ future, work.future = some future ∧ future.done = false

/-- Something will call `release`, or has. -/
def Owed (work : PasswordWork) : Prop :=
  work.state = .reserved ∨ work.stage = .submitting
    ∨ work.stage = .addingCallback
    ∨ (work.callbackAdded = true ∧ work.Unfinished) ∨ 0 < work.releaseCalls

structure Sound (work : PasswordWork) : Prop where
  once : work.returning + work.returned = if work.released then 1 else 0
  owed : work.released = false → work.Owed

/-- Work is left to do: the reservation can still be used, `run` is before
its await, the future has not ended, or a thread is inside `release`. -/
def Outstanding (work : PasswordWork) : Prop :=
  work.state = .reserved ∨ work.stage = .submitting
    ∨ work.stage = .addingCallback ∨ work.Unfinished ∨ 0 < work.releaseCalls
    ∨ 0 < work.returning

/-- A call keeps what there is to know, and gives nothing back. -/
structure Keeps (work work' : PasswordWork) : Prop where
  sound : work.Sound → work'.Sound
  returned : work'.returned = work.returned

theorem sound_fresh : Sound fresh where
  once := rfl
  owed _ := Or.inl rfl

theorem Sound.returned_le_one (h : work.Sound) : work.returned ≤ 1 := by
  have hle : work.returning + work.returned ≤ 1 := by
    rw [h.once]
    split <;> omega
  omega

/-- A permit nothing is outstanding for was given back. -/
theorem Sound.returned_of_not_outstanding (h : work.Sound)
    (hout : ¬ work.Outstanding) : work.returned = 1 := by
  have hreleased : work.released = true := by
    by_contra hfalse
    apply hout
    rcases h.owed (by simpa using hfalse) with h | h | h | h | h
    · exact Or.inl h
    · exact Or.inr (Or.inl h)
    · exact Or.inr (Or.inr (Or.inl h))
    · exact Or.inr (Or.inr (Or.inr (Or.inl h.2)))
    · exact Or.inr (Or.inr (Or.inr (Or.inr (Or.inl h))))
  have hreturning : work.returning = 0 := by
    by_contra hpos
    exact hout (by simp only [Outstanding]; omega)
  have honce := h.once
  rw [hreleased, hreturning, if_pos rfl] at honce
  omega

/-- With no thread about to give the slot back, the flag says whether it
was. -/
theorem Sound.returned_eq_zero_iff (h : work.Sound)
    (hreturning : work.returning = 0) :
    work.returned = 0 ↔ work.released = false := by
  have honce := h.once
  rw [hreturning, Nat.zero_add] at honce
  rw [honce]
  cases work.released <;> simp

theorem Keeps.refl (work : PasswordWork) : work.Keeps work := ⟨id, rfl⟩

/-- A call that leaves the permit alone and its release owed. -/
theorem keeps_of_owed (hreleased : work'.released = work.released)
    (hreturning : work'.returning = work.returning)
    (hreturned : work'.returned = work.returned)
    (howed : work.Owed → work'.Owed) : work.Keeps work' where
  sound h :=
    { once := by rw [hreleased, hreturning, hreturned]; exact h.once
      owed := fun hfalse => howed (h.owed (hreleased ▸ hfalse)) }
  returned := hreturned

/-- A thread that has called `release` will get to the flag. -/
theorem owed_of_releaseCalls (h : 0 < work.releaseCalls) : work.Owed :=
  Or.inr (Or.inr (Or.inr (Or.inr h)))

theorem keeps_releaseIfUnsubmitted : work.Keeps work.releaseIfUnsubmitted := by
  unfold releaseIfUnsubmitted
  split
  · exact .refl work
  · exact keeps_of_owed rfl rfl rfl fun _ =>
      owed_of_releaseCalls (Nat.succ_pos _)

theorem keeps_run : work.Keeps work.run.1 := by
  unfold run
  split
  · exact .refl work
  · exact keeps_of_owed rfl rfl rfl fun _ => Or.inr (Or.inl rfl)

theorem keeps_submit (error : Option String) :
    work.Keeps (work.submit error).1 := by
  unfold submit
  split
  · exact .refl work
  · cases error with
    | some text =>
        exact keeps_of_owed rfl rfl rfl fun _ =>
          owed_of_releaseCalls (Nat.succ_pos _)
    | none =>
        exact keeps_of_owed rfl rfl rfl fun _ => Or.inr (Or.inr (Or.inl rfl))

/-- The callback waits for the future, or runs at once. -/
theorem keeps_addDoneCallback : work.Keeps work.addDoneCallback := by
  unfold addDoneCallback
  split
  · exact .refl work
  · split
    · exact .refl work
    · next future hfuture =>
        split
        · exact keeps_of_owed rfl rfl rfl fun _ =>
            owed_of_releaseCalls (Nat.succ_pos _)
        · next hdone =>
            refine keeps_of_owed rfl rfl rfl fun _ => ?_
            have hunfinished : work.Unfinished :=
              ⟨future, hfuture, by simpa using hdone⟩
            exact Or.inr (Or.inr (Or.inr (Or.inl ⟨rfl, hunfinished⟩)))

/-- The end of a future calls the callback that waits for it. -/
theorem keeps_endFuture (future : FutureState) :
    work.Keeps (work.endFuture future) := by
  unfold endFuture
  split
  · exact keeps_of_owed rfl rfl rfl fun _ =>
      owed_of_releaseCalls (Nat.succ_pos _)
  · next hadded =>
      refine keeps_of_owed rfl rfl rfl fun howed => ?_
      rcases howed with h | h | h | h | h
      · exact Or.inl h
      · exact Or.inr (Or.inl h)
      · exact Or.inr (Or.inr (Or.inl h))
      · exact absurd h.1 hadded
      · exact owed_of_releaseCalls h

theorem keeps_cancel : work.Keeps work.cancel := by
  unfold cancel
  split
  · exact keeps_endFuture .cancelled
  · exact .refl work

theorem keeps_cancelAwait : work.Keeps work.cancelAwait := by
  unfold cancelAwait
  split
  · exact .refl work
  · exact keeps_cancel

theorem keeps_start : work.Keeps work.start := by
  unfold start
  split
  · refine keeps_of_owed rfl rfl rfl fun howed => ?_
    rcases howed with h | h | h | h | h
    · exact Or.inl h
    · exact Or.inr (Or.inl h)
    · exact Or.inr (Or.inr (Or.inl h))
    · exact Or.inr (Or.inr (Or.inr (Or.inl ⟨h.1, .running, rfl, rfl⟩)))
    · exact owed_of_releaseCalls h
  · exact .refl work

theorem keeps_finish : work.Keeps work.finish := by
  unfold finish
  split
  · exact keeps_endFuture .finished
  · exact .refl work

/-- Of the threads that call `release` the first takes the flag. -/
theorem keeps_release : work.Keeps work.release := by
  unfold release
  split
  · exact .refl work
  · split
    · next hreleased =>
        refine ⟨fun h => ⟨h.once, fun hfalse => ?_⟩, rfl⟩
        exact absurd hreleased (by simpa using hfalse)
    · next hreleased =>
        refine ⟨fun h => ⟨?_, fun hfalse => (nomatch hfalse)⟩, rfl⟩
        have honce := h.once
        rw [if_neg hreleased] at honce
        show work.returning + 1 + work.returned = 1
        omega

/-- A slot about to be given back was not given back before. -/
theorem Sound.returned_eq_zero (h : work.Sound) (hpos : work.returning ≠ 0) :
    work.returned = 0 := by
  have hle : work.returning + work.returned ≤ 1 := by
    rw [h.once]
    split <;> omega
  omega

theorem Sound.giveBack (h : work.Sound) (hpos : work.returning ≠ 0) :
    work.giveBack.Sound where
  once := by
    refine Eq.trans ?_ h.once
    show work.returning - 1 + (work.returned + 1) = _
    omega
  owed := h.owed

end PasswordWork

namespace BoundedPasswordWorkPool

open PasswordWork

variable {pool : BoundedPasswordWorkPool}

-- ============================================================ the counter

/-- The permits not given back. -/
def unreleased (pool : BoundedPasswordWorkPool) : Nat :=
  pool.entries.rows.countP fun e => e.work.returned = 0

structure Sound (pool : BoundedPasswordWorkPool) : Prop where
  counted : pool.reserved = pool.unreleased
  bounded : pool.reserved ≤ pool.capacity
  each : ∀ e ∈ pool.entries.rows, e.work.Sound

theorem rows_amend (id : Nat) (f : PasswordWork → PasswordWork) :
    (pool.amend id f).entries.rows = pool.entries.rows.map fun e =>
      if e.id = id then { e with work := f e.work } else e := by
  simp only [amend, Table.rows_update, decide_eq_true_eq]

/-- What a call does to one reservation, every reservation has. -/
theorem forall_amend {P : PasswordWork → Prop} {id : Nat}
    {f : PasswordWork → PasswordWork} (hP : ∀ work, P work → P (f work))
    (h : ∀ e ∈ pool.entries.rows, P e.work) :
    ∀ e ∈ (pool.amend id f).entries.rows, P e.work := by
  intro e he
  rw [rows_amend] at he
  obtain ⟨e', he', rfl⟩ := List.mem_map.mp he
  split
  · exact hP _ (h e' he')
  · exact h e' he'

theorem unreleased_amend_of_returned {id : Nat}
    {f : PasswordWork → PasswordWork}
    (hf : ∀ work, (f work).returned = work.returned) :
    (pool.amend id f).unreleased = pool.unreleased := by
  rw [unreleased, rows_amend, List.countP_map]
  apply List.countP_congr
  intro e _
  simp only [Function.comp_apply]
  split
  · rw [hf]
  · rfl

/-- The pool after a call that keeps its reservation sound. -/
theorem Sound.amend (h : pool.Sound) (id : Nat)
    {f : PasswordWork → PasswordWork} (hf : ∀ work, Keeps work (f work)) :
    (pool.amend id f).Sound where
  counted := by
    rw [unreleased_amend_of_returned fun work => (hf work).returned]
    exact h.counted
  bounded := h.bounded
  each := forall_amend (fun work => (hf work).sound) h.each

theorem Sound.call (h : pool.Sound) (id : Nat)
    {f : PasswordWork → PasswordWork × PoolResponse}
    (hf : ∀ work, Keeps work (f work).1) : (pool.call id f).1.Sound := by
  unfold BoundedPasswordWorkPool.call
  split
  · exact h
  · exact h.amend id hf

/-- A new permit is counted, while there is room. -/
theorem Sound.reserve (h : pool.Sound) (id : Nat) :
    (pool.reserve id).1.Sound := by
  unfold BoundedPasswordWorkPool.reserve
  split
  · exact h
  · next hroom =>
      split
      · exact h
      · next entries hentries =>
          obtain ⟨-, hrows⟩ := Table.insert?_eq_some.mp hentries
          have hnew : PoolEntry.work ⟨id, fresh⟩ = fresh := rfl
          constructor
          · have hcount : entries.rows.countP (fun e => e.work.returned = 0)
                = pool.unreleased + 1 := by
              rw [hrows, List.countP_append]
              rfl
            show pool.reserved + 1 = ((entries.rows.countP _ : Nat) : Int)
            rw [hcount, h.counted]
            rfl
          · show pool.reserved + 1 ≤ pool.capacity
            omega
          · intro e he
            have he' : e ∈ entries.rows := he
            rw [hrows] at he'
            rcases List.mem_append.mp he' with hold | hnew
            · exact h.each e hold
            · rw [List.mem_singleton.mp hnew]
              exact sound_fresh

/-- A thread that gives a slot back finds it counted. -/
theorem Sound.reserved_pos (h : pool.Sound) {entry : PoolEntry}
    (hin : entry ∈ pool.entries.rows) (hpos : entry.work.returning ≠ 0) :
    0 < pool.reserved := by
  have hcount : 0 < pool.unreleased := by
    apply List.countP_pos_iff.mpr
    exact ⟨entry, hin, by simpa using (h.each entry hin).returned_eq_zero hpos⟩
  rw [h.counted]
  omega

theorem unreleased_amend_giveBack (h : pool.Sound) {entry : PoolEntry}
    (hin : entry ∈ pool.entries.rows) (hpos : entry.work.returning ≠ 0) :
    (pool.amend entry.id .giveBack).unreleased + 1 = pool.unreleased := by
  have hone := Table.countP_rewrite_of_mem pool.entries.nodup hin
    (fun e => e.work.returned = 0) fun e => { e with work := e.work.giveBack }
  have hzero := (h.each entry hin).returned_eq_zero hpos
  rw [unreleased, rows_amend, unreleased]
  simpa [hzero, giveBack] using hone

/-- So the counter is never taken below 0. -/
theorem Sound.releaseCapacity (h : pool.Sound) (id : Nat) :
    (pool.releaseCapacity id).1.Sound
      ∧ (pool.releaseCapacity id).2 = .returns := by
  unfold BoundedPasswordWorkPool.releaseCapacity
  split
  · exact ⟨h, rfl⟩
  · next entry hfind =>
      obtain ⟨hin, rfl⟩ := Table.find?_eq_some hfind
      split
      · exact ⟨h, rfl⟩
      · next hpos =>
          have hreserved := h.reserved_pos hin hpos
          rw [if_neg (by omega)]
          refine ⟨⟨?_, ?_, ?_⟩, rfl⟩
          · have hcount := unreleased_amend_giveBack h hin hpos
            have hbefore := h.counted
            show pool.reserved - 1
              = ((pool.amend entry.id .giveBack).unreleased : Int)
            omega
          · have hbound := h.bounded
            show pool.reserved - 1 ≤ pool.capacity
            omega
          · intro e he
            rw [rows_amend] at he
            obtain ⟨e', he', rfl⟩ := List.mem_map.mp he
            split
            · next hid =>
                obtain rfl := pool.entries.eq_of_key_eq he' hin hid
                exact (h.each e' hin).giveBack hpos
            · exact h.each e' he'

/-- Every step keeps the pool sound. -/
theorem Sound.serve (h : pool.Sound) (op : PoolOp) :
    (pool.serve op).1.Sound := by
  cases op with
  | reserve id => exact h.reserve id
  | leave id => exact h.amend id fun _ => keeps_releaseIfUnsubmitted
  | run id => exact h.call id fun _ => keeps_run
  | submit id error => exact h.call id fun _ => keeps_submit _
  | addDoneCallback id => exact h.amend id fun _ => keeps_addDoneCallback
  | cancelAwait id => exact h.amend id fun _ => keeps_cancelAwait
  | start id =>
      simp only [BoundedPasswordWorkPool.serve]
      split
      · exact h.amend id fun _ => keeps_start
      · exact h
  | finish id => exact h.amend id fun _ => keeps_finish
  | release id => exact h.amend id fun _ => keeps_release
  | releaseCapacity id => exact (h.releaseCapacity id).1
  | close => exact ⟨h.counted, h.bounded, h.each⟩
  | shutdown => exact ⟨h.counted, h.bounded, h.each⟩
  | drain id =>
      simp only [BoundedPasswordWorkPool.serve]
      split
      · exact h.amend id fun _ => keeps_cancel
      · exact h

theorem call_ne_releasedMoreThanOnce (id : Nat)
    {f : PasswordWork → PasswordWork × PoolResponse}
    (hf : ∀ work, (f work).2 ≠ .raises .releasedMoreThanOnce) :
    (pool.call id f).2 ≠ .raises .releasedMoreThanOnce := by
  unfold call
  split
  · exact fun h => nomatch h
  · exact hf _

/-- No step gives a slot back twice: only `_release_capacity` could. -/
theorem Sound.serve_ne_releasedMoreThanOnce (h : pool.Sound) (op : PoolOp) :
    (pool.serve op).2 ≠ .raises .releasedMoreThanOnce := by
  cases op with
  | releaseCapacity id =>
      show (pool.releaseCapacity id).2 ≠ _
      rw [(h.releaseCapacity id).2]
      exact fun h => nomatch h
  | reserve id =>
      simp only [BoundedPasswordWorkPool.serve, BoundedPasswordWorkPool.reserve]
      split
      · simp
      · split <;> simp
  | run id =>
      refine call_ne_releasedMoreThanOnce id fun work => ?_
      unfold PasswordWork.run
      split <;> simp
  | submit id error =>
      refine call_ne_releasedMoreThanOnce id fun work => ?_
      unfold PasswordWork.submit
      split
      · simp
      · cases pool.submissionError error <;> simp
  | _ => exact fun h => nomatch h

-- ================================================================== runs

/-- No work is outstanding. -/
def Quiet (pool : BoundedPasswordWorkPool) : Prop :=
  ∀ e ∈ pool.entries.rows, ¬ e.work.Outstanding

/-- What is promised of the permits, with room for `limit`. Between the
flag of a permit and the counter the slot still counts. -/
structure PermitsSound (limit : Int) (pool : BoundedPasswordWorkPool) :
    Prop where
  counted : pool.reserved = pool.unreleased
  flagged : (∀ e ∈ pool.entries.rows, e.work.returning = 0) →
    pool.reserved = pool.entries.rows.countP fun e => !e.work.released
  nonneg : 0 ≤ pool.reserved
  bounded : pool.reserved ≤ limit
  once : ∀ e ∈ pool.entries.rows, e.work.returned ≤ 1
  quiet : pool.Quiet →
    pool.reserved = 0 ∧ ∀ e ∈ pool.entries.rows, e.work.returned = 1

/-- Where every permit was given back, none is counted. -/
theorem Sound.reserved_of_quiet (h : pool.Sound) (hquiet : pool.Quiet) :
    pool.reserved = 0 ∧ ∀ e ∈ pool.entries.rows, e.work.returned = 1 := by
  have hreturned : ∀ e ∈ pool.entries.rows, e.work.returned = 1 :=
    fun e he => (h.each e he).returned_of_not_outstanding (hquiet e he)
  have hnone : pool.unreleased = 0 := by
    apply List.countP_eq_zero.mpr
    intro e he
    simp [hreturned e he]
  refine ⟨?_, hreturned⟩
  rw [h.counted, hnone]
  rfl

theorem Sound.permitsSound (h : pool.Sound) :
    PermitsSound pool.capacity pool where
  counted := h.counted
  flagged hsettled := by
    rw [h.counted, unreleased]
    congr 1
    apply List.countP_congr
    intro e he
    have hiff := (h.each e he).returned_eq_zero_iff (hsettled e he)
    simpa using hiff
  nonneg := by
    rw [h.counted]
    exact Int.natCast_nonneg _
  bounded := h.bounded
  once e he := (h.each e he).returned_le_one
  quiet := h.reserved_of_quiet

theorem capacity_serve (op : PoolOp) :
    (pool.serve op).1.capacity = pool.capacity := by
  cases op with
  | reserve id =>
      simp only [BoundedPasswordWorkPool.serve, BoundedPasswordWorkPool.reserve]
      split
      · rfl
      · split <;> rfl
  | releaseCapacity id =>
      simp only [BoundedPasswordWorkPool.serve,
        BoundedPasswordWorkPool.releaseCapacity]
      split
      · rfl
      · split
        · rfl
        · split <;> rfl
  | run id =>
      simp only [BoundedPasswordWorkPool.serve, BoundedPasswordWorkPool.call]
      split <;> rfl
  | submit id error =>
      simp only [BoundedPasswordWorkPool.serve, BoundedPasswordWorkPool.call]
      split <;> rfl
  | start id =>
      simp only [BoundedPasswordWorkPool.serve]
      split <;> rfl
  | drain id =>
      simp only [BoundedPasswordWorkPool.serve]
      split <;> rfl
  | _ => rfl

theorem sound_init {workers queueCapacity : Int}
    (h : init workers queueCapacity = .ok pool) :
    pool.Sound ∧ pool.capacity = workers + queueCapacity := by
  unfold init at h
  split at h
  · cases h
  · split at h
    · cases h
    · next hworkers hqueue =>
        cases h
        refine ⟨⟨rfl, ?_, fun e he => (nomatch he)⟩, rfl⟩
        show (0 : Int) ≤ workers + queueCapacity
        omega

/-- In every run of a pool the permits are sound, and none is released
twice. -/
theorem permits_sound {workers queueCapacity : Int}
    (h : init workers queueCapacity = .ok pool) (ops : List PoolOp) :
    Always afterWork (PermitsSound (workers + queueCapacity)) pool ops
      ∧ Along afterWork
        (fun s op => (s.serve op).2 ≠ .raises .releasedMoreThanOnce) pool ops := by
  obtain ⟨hsound, hcapacity⟩ := sound_init h
  let I (s : BoundedPasswordWorkPool) : Prop :=
    s.Sound ∧ s.capacity = workers + queueCapacity
  have hstep (s : BoundedPasswordWorkPool) (op : PoolOp) (hI : I s) :
      I (afterWork s op) :=
    ⟨hI.1.serve op, (capacity_serve op).trans hI.2⟩
  constructor
  · intro es hes
    have hI : I (Runs.run afterWork pool es) :=
      run_invariant_of_forall hstep ⟨hsound, hcapacity⟩
    rw [← hI.2]
    exact hI.1.permitsSound
  · exact along_of_invariant hstep
      (fun s op hI => hI.1.serve_ne_releasedMoreThanOnce op) ⟨hsound, hcapacity⟩

/-- One worker and no queue. -/
def single : BoundedPasswordWorkPool where
  workers := 1
  capacity := 1
  reserved := 0
  closed := false
  shutDown := false
  entries := .empty

/-- A task is cancelled while its work runs: the slot is kept until the
work ends, and the next task is refused. -/
def cancelledWhileRunning : List PoolOp :=
  [.reserve 1, .run 1, .submit 1 none, .addDoneCallback 1, .start 1,
   .cancelAwait 1, .leave 1, .reserve 2, .finish 1, .release 1,
   .releaseCapacity 1, .close, .shutdown]

theorem permits_sound_cancelledWhileRunning :
    Always afterWork (PermitsSound (1 + 0)) single cancelledWhileRunning
      ∧ (Runs.run afterWork single (cancelledWhileRunning.take 8)).reserved = 1
      ∧ (Runs.run afterWork single cancelledWhileRunning).reserved = 0 :=
  ⟨(permits_sound (rfl : init 1 0 = .ok single) cancelledWhileRunning).1,
    by decide, by decide +kernel⟩

end BoundedPasswordWorkPool

end PatentEvidence.Auth
