/-
The bounded pool that password hashing runs in (apps/api/…/auth/security.py).

Threads interleave between any two locked sections, so a step is no more
than one of them: `_acquire_capacity`, the flag of a permit's `release`, and
the `_release_capacity` after it. A thread between two of them is counted in
the state: `releaseCalls` have called `release` and not reached the flag,
`returning` have set it and not reached the counter.

The executor is the standard library's. A submitted future is pending,
starts when a worker is free, and ends finished or cancelled; a callback
runs when its future ends, or at once where it is added later than that.
-/
import PatentEvidence.Lib.Table

namespace PatentEvidence.Auth

-- ======================================================== one reservation

inductive ReservationState
  | reserved
  | submitted
  | released
  deriving DecidableEq

/-- States of a `concurrent.futures.Future`. -/
inductive FutureState
  | pending
  | running
  | cancelled
  | finished
  deriving DecidableEq

def FutureState.done : FutureState → Bool
  | .pending | .running => false
  | .cancelled | .finished => true

/-- Where `run` stands, once past its check. -/
inductive RunStage
  | notRunning
  | submitting
  | addingCallback
  | awaiting
  deriving DecidableEq

inductive PasswordWorkError
  | capacityExhausted
  | alreadyUsed
  | releasedMoreThanOnce
  /-- What `executor.submit` raised. -/
  | submission (text : String)
  deriving DecidableEq

def PasswordWorkError.text : PasswordWorkError → String
  | .capacityExhausted => "password work capacity exhausted"
  | .alreadyUsed => "password work reservation has already been used"
  | .releasedMoreThanOnce => "password work capacity released more than once"
  | .submission text => text

inductive PoolResponse
  | returns
  | raises (error : PasswordWorkError)
  deriving DecidableEq

/-- A `_PasswordWorkReservation` with its `_PasswordWorkPermit` and the
future it was submitted as; `released` is the permit's flag, `returned` how
often the permit's slot was given back. -/
structure PasswordWork where
  state : ReservationState
  stage : RunStage
  future : Option FutureState
  callbackAdded : Bool
  released : Bool
  releaseCalls : Nat
  returning : Nat
  returned : Nat

namespace PasswordWork

variable (work : PasswordWork)

/-- A reservation just made. -/
def fresh : PasswordWork where
  state := .reserved
  stage := .notRunning
  future := none
  callbackAdded := false
  released := false
  releaseCalls := 0
  returning := 0
  returned := 0

/-- A thread calls `release` of the permit. -/
def callRelease : PasswordWork :=
  { work with releaseCalls := work.releaseCalls + 1 }

/-- `release`, under the permit's lock. -/
def release : PasswordWork :=
  if work.releaseCalls = 0 then work
  else if work.released then
    { work with releaseCalls := work.releaseCalls - 1 }
  else
    { work with
      releaseCalls := work.releaseCalls - 1
      released := true
      returning := work.returning + 1 }

/-- `release_if_unsubmitted`, when the context of `reserve` is left. -/
def releaseIfUnsubmitted : PasswordWork :=
  if work.state ≠ .reserved then work
  else { work.callRelease with state := .released }

/-- `run`, up to the submission. -/
def run : PasswordWork × PoolResponse :=
  if work.state ≠ .reserved then (work, .raises .alreadyUsed)
  else ({ work with state := .submitted, stage := .submitting }, .returns)

/-- The submission, with what the executor raised, if it did. -/
def submit (error : Option String) : PasswordWork × PoolResponse :=
  if work.stage ≠ .submitting then (work, .returns)
  else
    match error with
    | some text =>
        ({ work.callRelease with stage := .notRunning },
          .raises (.submission text))
    | none =>
        ({ work with stage := .addingCallback, future := some .pending },
          .returns)

/-- `add_done_callback`, of `_release_after_completion`. -/
def addDoneCallback : PasswordWork :=
  if work.stage ≠ .addingCallback then work
  else
    match work.future with
    | none => work
    | some future =>
        if future.done then { work.callRelease with stage := .awaiting }
        else { work with stage := .awaiting, callbackAdded := true }

/-- The future ends: its callback is called. -/
def endFuture (future : FutureState) : PasswordWork :=
  if work.callbackAdded then { work.callRelease with future := some future }
  else { work with future := some future }

/-- `executor_future.cancel()`. -/
def cancel : PasswordWork :=
  match work.future with
  | some .pending => work.endFuture .cancelled
  | _ => work

/-- The task that awaits in `run` is cancelled. -/
def cancelAwait : PasswordWork :=
  if work.stage ≠ .awaiting then work else work.cancel

/-- A worker takes the work up. -/
def start : PasswordWork :=
  match work.future with
  | some .pending => { work with future := some .running }
  | _ => work

/-- The work returns or raises. -/
def finish : PasswordWork :=
  match work.future with
  | some .running => work.endFuture .finished
  | _ => work

/-- The slot is given back. -/
def giveBack : PasswordWork :=
  { work with returning := work.returning - 1, returned := work.returned + 1 }

/-- The slot is not given back: the counter was 0. -/
def failReturn : PasswordWork :=
  { work with returning := work.returning - 1 }

end PasswordWork

-- ================================================================ the pool

structure PoolEntry where
  id : Nat
  work : PasswordWork

structure BoundedPasswordWorkPool where
  workers : Int
  capacity : Int
  reserved : Int
  closed : Bool
  shutDown : Bool
  entries : Table PoolEntry.id

namespace BoundedPasswordWorkPool

/-- `BoundedPasswordWorkPool(workers=…, queue_capacity=…)`. -/
def init (workers queueCapacity : Int) :
    Except String BoundedPasswordWorkPool :=
  if ¬ (1 ≤ workers ∧ workers ≤ 4) then
    .error "password workers must be between 1 and 4"
  else if ¬ (0 ≤ queueCapacity ∧ queueCapacity ≤ 16) then
    .error "password queue capacity must be between 0 and 16"
  else
    .ok {
      workers := workers, capacity := workers + queueCapacity, reserved := 0
      closed := false, shutDown := false, entries := .empty }

variable (pool : BoundedPasswordWorkPool)

def amend (id : Nat) (f : PasswordWork → PasswordWork) :
    BoundedPasswordWorkPool :=
  { pool with
    entries := pool.entries.update (fun e => e.id = id)
      fun e => { e with work := f e.work } }

/-- A call that answers. -/
def call (id : Nat) (f : PasswordWork → PasswordWork × PoolResponse) :
    BoundedPasswordWorkPool × PoolResponse :=
  match pool.entries.find? id with
  | none => (pool, .returns)
  | some entry => (pool.amend id fun work => (f work).1, (f entry.work).2)

/-- `reserve`, that is `_acquire_capacity`: the permit and the reservation
are new objects. -/
def reserve (id : Nat) : BoundedPasswordWorkPool × PoolResponse :=
  if pool.closed ∨ pool.reserved ≥ pool.capacity then
    (pool, .raises .capacityExhausted)
  else
    match pool.entries.insert? { id := id, work := .fresh } with
    | none => (pool, .returns)
    | some entries =>
        ({ pool with reserved := pool.reserved + 1, entries := entries },
          .returns)

/-- `_release_capacity`, of a thread that has set the flag. -/
def releaseCapacity (id : Nat) : BoundedPasswordWorkPool × PoolResponse :=
  match pool.entries.find? id with
  | none => (pool, .returns)
  | some entry =>
      if entry.work.returning = 0 then (pool, .returns)
      else if pool.reserved ≤ 0 then
        (pool.amend id .failReturn, .raises .releasedMoreThanOnce)
      else
        ({ pool.amend id .giveBack with reserved := pool.reserved - 1 },
          .returns)

/-- How many workers are busy. -/
def running : Nat :=
  pool.entries.rows.countP fun e => e.work.future = some .running

/-- The executor refuses submissions after its shutdown. -/
def submissionError (error : Option String) : Option String :=
  if pool.shutDown then some "cannot schedule new futures after shutdown"
  else error

end BoundedPasswordWorkPool

/-- What can happen next. `shutdown` and one `drain` after another are the
second half of `close`; `leave` is the exit of the context, early or not. -/
inductive PoolOp
  | reserve (id : Nat)
  | leave (id : Nat)
  | run (id : Nat)
  | submit (id : Nat) (error : Option String)
  | addDoneCallback (id : Nat)
  | cancelAwait (id : Nat)
  | start (id : Nat)
  | finish (id : Nat)
  | release (id : Nat)
  | releaseCapacity (id : Nat)
  | close
  | shutdown
  | drain (id : Nat)

namespace BoundedPasswordWorkPool

def serve (pool : BoundedPasswordWorkPool) :
    PoolOp → BoundedPasswordWorkPool × PoolResponse
  | .reserve id => pool.reserve id
  | .leave id => (pool.amend id .releaseIfUnsubmitted, .returns)
  | .run id => pool.call id PasswordWork.run
  | .submit id error =>
      pool.call id fun work => work.submit (pool.submissionError error)
  | .addDoneCallback id => (pool.amend id .addDoneCallback, .returns)
  | .cancelAwait id => (pool.amend id .cancelAwait, .returns)
  | .start id =>
      (if pool.running < pool.workers then pool.amend id .start else pool,
        .returns)
  | .finish id => (pool.amend id .finish, .returns)
  | .release id => (pool.amend id .release, .returns)
  | .releaseCapacity id => pool.releaseCapacity id
  | .close => ({ pool with closed := true }, .returns)
  | .shutdown => ({ pool with shutDown := pool.closed }, .returns)
  | .drain id =>
      (if pool.shutDown then pool.amend id .cancel else pool, .returns)

/-- The pool after a step. -/
def afterWork (pool : BoundedPasswordWorkPool) (op : PoolOp) :
    BoundedPasswordWorkPool := (pool.serve op).1

end BoundedPasswordWorkPool

end PatentEvidence.Auth
