/-
The rate limiter of logins, resets and second factors
(`DeterministicRateLimiter` of apps/api/…/auth/security.py).

A log of admitted calls for each key; every call drops what its window no
longer reaches and writes the rest back, whether it is admitted or not.
Times are those of one clock in UTC. A call whose window would open before
the first year raises before it has touched the log.
-/
import PatentEvidence.Lib.Date
import PatentEvidence.Lib.Dict
import PatentEvidence.Lib.Python

namespace PatentEvidence.Auth

/-- `datetime.min` and `datetime.max`, in UTC. -/
def firstTimestamp : Timestamp := -62135596800000000
def lastTimestamp : Timestamp := 253402300799999999

/-- `t - delta` for a time and a time span. -/
def subtract (t : Timestamp) (delta : Int) : Py Timestamp :=
  if firstTimestamp ≤ t - delta ∧ t - delta ≤ lastTimestamp then
    .ok (t - delta)
  else .error .overflowError

/-- `_attempts`, `_window` in microseconds, and `_events`, where a key that
was never called counts as an empty log. -/
structure DeterministicRateLimiter where
  attempts : Nat
  window : Int
  events : Dict String (List Timestamp)

/-- A call of `allow`. -/
structure AllowCall where
  key : String
  now : Timestamp
  deriving DecidableEq

/-- A call, and what it returned or raised. -/
structure AllowRecord where
  call : AllowCall
  result : Py Bool
  deriving DecidableEq

namespace DeterministicRateLimiter

/-- `__init__`. -/
def init (attempts : Nat := 4) (window : Int := 60000000) :
    DeterministicRateLimiter where
  attempts := attempts
  window := window
  events := .empty

/-- `self._events[key] = events`. -/
def setEvents (limiter : DeterministicRateLimiter) (key : String)
    (events : List Timestamp) : DeterministicRateLimiter :=
  { limiter with events := limiter.events.set key events }

/-- `allow`. -/
def allow (limiter : DeterministicRateLimiter) (key : String)
    (now : Timestamp) : Py Bool × DeterministicRateLimiter :=
  match subtract now limiter.window with
  | .error raised => (.error raised, limiter)
  | .ok cutoff =>
      let events :=
        (limiter.events.getD key []).filter fun event => decide (cutoff < event)
      if limiter.attempts ≤ events.length then
        (.ok false, limiter.setEvents key events)
      else (.ok true, limiter.setEvents key (events ++ [now]))

/-- The records of a sequence of calls. -/
def records (limiter : DeterministicRateLimiter) :
    List AllowCall → List AllowRecord
  | [] => []
  | call :: calls =>
      let answer := limiter.allow call.key call.now
      ⟨call, answer.1⟩ :: records answer.2 calls

@[simp] theorem records_nil (limiter : DeterministicRateLimiter) :
    limiter.records [] = [] := rfl

@[simp] theorem records_cons (limiter : DeterministicRateLimiter)
    (call : AllowCall) (calls : List AllowCall) :
    limiter.records (call :: calls)
      = ⟨call, (limiter.allow call.key call.now).1⟩
        :: (limiter.allow call.key call.now).2.records calls := rfl

end DeterministicRateLimiter

end PatentEvidence.Auth
