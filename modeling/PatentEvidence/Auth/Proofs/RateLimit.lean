/-
What the limiter promises, in terms of what it was asked and answered.

The log of a key forgets and the records do not. `ideal` is the limiter
that forgets nothing: it answers a call from the admitted calls on record.
The limiter of the code answers as it does (`faithful_records`), because no
call still to come can tell the log from the records (`Agrees`): times only
rise, and a log is pruned no further than the window of the last call.

So the bound on every window is a fact about `ideal` alone, and it follows
from the one window that `ideal` looks at. That a refusal was due, and that
keys do not disturb each other, are read off the records as well.
-/
import Mathlib.Algebra.Order.Group.Int
import PatentEvidence.Auth.RateLimit
import PatentEvidence.Lib.Run
import PatentEvidence.Lib.SlidingWindow

namespace PatentEvidence.Auth.DeterministicRateLimiter

open SlidingWindow Runs

variable {attempts : Nat} {window : Int} {limiter : DeterministicRateLimiter}
variable {past log : List AllowRecord}

-- ========================================================== the records

/-- The times of the admitted calls of a key. -/
def admitted (key : String) (records : List AllowRecord) : List Timestamp :=
  (records.filter fun record =>
    decide (record.call.key = key ∧ record.result = .ok true)).map
      fun record => record.call.now

/-- The answer of a limiter that forgets nothing. -/
def ideal (attempts : Nat) (window : Int) (past : List AllowRecord)
    (call : AllowCall) : Py Bool :=
  (subtract call.now window).map fun cutoff =>
    decide ((since cutoff (admitted call.key past)).length < attempts)

/-- Every call was answered as it would have been by that limiter. -/
def Faithful (attempts : Nat) (window : Int) :
    List AllowRecord → List AllowRecord → Prop :=
  Along (fun past record => past ++ [record]) fun past record =>
    record.result = ideal attempts window past record.call

theorem admitted_append_singleton (key : String) (past : List AllowRecord)
    (record : AllowRecord) :
    admitted key (past ++ [record])
      = admitted key past
        ++ if record.call.key = key ∧ record.result = .ok true then
            [record.call.now] else [] := by
  unfold admitted
  rw [List.filter_append, List.map_append]
  by_cases h : record.call.key = key ∧ record.result = .ok true
  · simp [h]
  · simp [h]

theorem mem_admitted {key : String} {t : Timestamp} :
    t ∈ admitted key past
      ↔ ∃ record ∈ past, (record.call.key = key ∧ record.result = .ok true)
          ∧ record.call.now = t := by
  simp only [admitted, List.mem_map, List.mem_filter, decide_eq_true_eq,
    and_assoc]

/-- Each call has its record. -/
theorem map_call_records (limiter : DeterministicRateLimiter)
    (calls : List AllowCall) :
    (limiter.records calls).map AllowRecord.call = calls := by
  induction calls generalizing limiter with
  | nil => rfl
  | cons call calls ih =>
      rw [records_cons, List.map_cons, ih]

/-- Written one after the other, the records are the records. -/
theorem run_append_records (past records : List AllowRecord) :
    run (fun past record => past ++ [record]) past records = past ++ records := by
  induction records generalizing past with
  | nil => simp
  | cons record records ih =>
      rw [run_cons, ih, List.append_assoc]
      rfl

/-- A record stands where the ideal limiter answers the same. -/
theorem Faithful.result_eq {before after : List AllowRecord}
    {record : AllowRecord}
    (h : Faithful attempts window [] (before ++ record :: after)) :
    record.result = ideal attempts window before record.call := by
  have hrest := (along_append.mp h).2
  rw [run_append_records, List.nil_append] at hrest
  exact hrest.1

theorem Faithful.of_append {before after : List AllowRecord}
    (h : Faithful attempts window [] (before ++ after)) :
    Faithful attempts window [] before :=
  (along_append.mp h).1

-- ============================================================ one call

theorem subtract_eq_ok {t cutoff : Timestamp} {delta : Int}
    (h : subtract t delta = .ok cutoff) : cutoff = t - delta := by
  unfold subtract at h
  split at h
  · cases h
    rfl
  · cases h

/-- What a call can do: raise, be refused, or be admitted. -/
theorem allow_cases (limiter : DeterministicRateLimiter) (key : String)
    (now : Timestamp) :
    (∃ raised, subtract now limiter.window = .error raised
      ∧ limiter.allow key now = (.error raised, limiter))
    ∨ ∃ cutoff events, subtract now limiter.window = .ok cutoff
      ∧ events = since cutoff (limiter.events.getD key [])
      ∧ (limiter.attempts ≤ events.length
          ∧ limiter.allow key now = (.ok false, limiter.setEvents key events)
        ∨ events.length < limiter.attempts
          ∧ limiter.allow key now
            = (.ok true, limiter.setEvents key (events ++ [now]))) := by
  unfold allow
  cases hcutoff : subtract now limiter.window with
  | error raised => exact .inl ⟨raised, rfl, rfl⟩
  | ok cutoff =>
      refine .inr ⟨cutoff, _, rfl, rfl, ?_⟩
      dsimp only
      by_cases hfull : limiter.attempts
          ≤ (since cutoff (limiter.events.getD key [])).length
      · exact .inl ⟨hfull, if_pos hfull⟩
      · exact .inr ⟨Nat.lt_of_not_le hfull, if_neg hfull⟩

/-- Writing a log leaves the other logs. -/
theorem getD_setEvents (limiter : DeterministicRateLimiter) (key key' : String)
    (events : List Timestamp) :
    (limiter.setEvents key events).events.getD key' []
      = if key' = key then events else limiter.events.getD key' [] := by
  unfold setEvents Dict.getD
  rw [Dict.get?_set]
  by_cases h : key' = key
  · simp [h]
  · simp [h]

-- ============================================== the log and the records

/-- A limiter whose logs no call from now on can tell from the records. -/
structure Agrees (attempts : Nat) (window : Int) (past : List AllowRecord)
    (now : Timestamp) (limiter : DeterministicRateLimiter) : Prop where
  attempts_eq : limiter.attempts = attempts
  window_eq : limiter.window = window
  since_eq : ∀ key cutoff, now - window ≤ cutoff →
    since cutoff (limiter.events.getD key []) = since cutoff (admitted key past)

/-- A limiter just made agrees with no record. -/
theorem agrees_init (attempts : Nat) (window : Int) (now : Timestamp) :
    Agrees attempts window [] now (init attempts window) where
  attempts_eq := rfl
  window_eq := rfl
  since_eq _ _ _ := rfl

/-- The window of a later call opens later. -/
theorem Agrees.later {now now' : Timestamp}
    (h : Agrees attempts window past now limiter) (hle : now ≤ now') :
    Agrees attempts window past now' limiter where
  attempts_eq := h.attempts_eq
  window_eq := h.window_eq
  since_eq key cutoff hcutoff :=
    h.since_eq key cutoff ((sub_le_sub_right hle window).trans hcutoff)

/-- A call is answered as by the ideal limiter, … -/
theorem Agrees.result_eq {call : AllowCall}
    (h : Agrees attempts window past call.now limiter) :
    (limiter.allow call.key call.now).1 = ideal attempts window past call := by
  unfold ideal
  obtain ⟨raised, hraised, hallow⟩ | ⟨cutoff, events, hcutoff, rfl, hallow⟩ :=
    allow_cases limiter call.key call.now
  · rw [h.window_eq] at hraised
    rw [hallow, hraised]
    rfl
  · rw [h.window_eq] at hcutoff
    have hsame := h.since_eq call.key cutoff (subtract_eq_ok hcutoff).ge
    rw [hsame, h.attempts_eq] at hallow
    rw [hcutoff]
    obtain ⟨hfull, hallow⟩ | ⟨hroom, hallow⟩ := hallow
    · rw [hallow]
      show Except.ok false = .ok (decide _)
      rw [decide_eq_false (by omega)]
    · rw [hallow]
      show Except.ok true = .ok (decide _)
      rw [decide_eq_true hroom]

/-- … and recorded, it leaves a limiter that agrees. -/
theorem Agrees.allow {call : AllowCall}
    (h : Agrees attempts window past call.now limiter) :
    Agrees attempts window
      (past ++ [⟨call, (limiter.allow call.key call.now).1⟩]) call.now
      (limiter.allow call.key call.now).2 := by
  obtain ⟨raised, hraised, hallow⟩ | ⟨cutoff, events, hcutoff, hevents, hallow⟩ :=
    allow_cases limiter call.key call.now
  · rw [hallow]
    refine ⟨h.attempts_eq, h.window_eq, fun key cutoff hle => ?_⟩
    rw [admitted_append_singleton, if_neg (by simp), List.append_nil]
    exact h.since_eq key cutoff hle
  · rw [h.window_eq] at hcutoff
    have hopens : cutoff = call.now - window := subtract_eq_ok hcutoff
    have hkept {later : Timestamp} (hle : call.now - window ≤ later) :
        since later events = since later (admitted call.key past) := by
      rw [hevents, since_since (hopens ▸ hle), h.since_eq call.key later hle]
    obtain ⟨-, hallow⟩ | ⟨-, hallow⟩ := hallow
    · rw [hallow]
      refine ⟨h.attempts_eq, h.window_eq, fun key later hle => ?_⟩
      rw [admitted_append_singleton, if_neg (by simp), List.append_nil,
        getD_setEvents]
      by_cases hkey : key = call.key
      · rw [if_pos hkey, hkey, hkept hle]
      · rw [if_neg hkey, h.since_eq key later hle]
    · rw [hallow]
      refine ⟨h.attempts_eq, h.window_eq, fun key later hle => ?_⟩
      rw [admitted_append_singleton, getD_setEvents]
      by_cases hkey : key = call.key
      · rw [if_pos hkey, if_pos ⟨hkey.symm, rfl⟩, since_append, since_append,
          hkept hle, hkey]
      · rw [if_neg hkey, if_neg fun hboth => hkey hboth.1.symm, List.append_nil,
          h.since_eq key later hle]

/-- So a whole run of calls is answered as by the ideal limiter. -/
theorem faithful_records {calls : List AllowCall}
    (hsorted : calls.Pairwise fun call call' => call.now ≤ call'.now)
    (h : ∀ call ∈ calls, Agrees attempts window past call.now limiter) :
    Faithful attempts window past (limiter.records calls) := by
  induction calls generalizing past limiter with
  | nil => trivial
  | cons call calls ih =>
      obtain ⟨hlater, hsorted⟩ := List.pairwise_cons.mp hsorted
      have hcall := h call List.mem_cons_self
      refine ⟨hcall.result_eq, ih hsorted fun call' hcall' => ?_⟩
      exact hcall.allow.later (hlater call' hcall')

-- ============================================================ the windows

/-- An answer of the ideal limiter keeps every window within bounds. -/
theorem sparse_admitted_append {record : AllowRecord}
    (h : ∀ key, Sparse window attempts (admitted key past))
    (hrecord : record.result = ideal attempts window past record.call)
    (key : String) :
    Sparse window attempts (admitted key (past ++ [record])) := by
  rw [admitted_append_singleton]
  by_cases hadmitted : record.call.key = key ∧ record.result = .ok true
  · obtain ⟨rfl, hresult⟩ := hadmitted
    rw [if_pos ⟨rfl, hresult⟩]
    rw [hresult] at hrecord
    unfold ideal at hrecord
    cases hcutoff : subtract record.call.now window with
    | error raised =>
        rw [hcutoff] at hrecord
        cases hrecord
    | ok cutoff =>
        rw [hcutoff] at hrecord
        have hroom := of_decide_eq_true (Except.ok.inj hrecord).symm
        rw [subtract_eq_ok hcutoff] at hroom
        exact (h _).append_singleton hroom
  · rw [if_neg hadmitted, List.append_nil]
    exact h key

/-- So they are after every run. -/
theorem Faithful.sparse (h : Faithful attempts window [] log)
    (key : String) : Sparse window attempts (admitted key log) := by
  have hrun := run_invariant
    (I := fun past => ∀ key, Sparse window attempts (admitted key past))
    (fun past record hpast hrecord => sparse_admitted_append hpast hrecord)
    (fun _ => sparse_nil) h
  rw [run_append_records, List.nil_append] at hrun
  exact hrun key

-- ========================================================== the refusals

/-- A refused call found its window full. -/
theorem Faithful.full_of_refused {before after : List AllowRecord}
    {call : AllowCall}
    (h : Faithful attempts window [] (before ++ ⟨call, .ok false⟩ :: after))
    (hbefore : ∀ record ∈ before, record.call.now ≤ call.now) :
    ((admitted call.key before).filter fun t =>
      decide (call.now - window < t ∧ t ≤ call.now)).length = attempts := by
  have hrefused := h.result_eq
  unfold ideal at hrefused
  cases hcutoff : subtract call.now window with
  | error raised =>
      rw [hcutoff] at hrefused
      cases hrefused
  | ok cutoff =>
      rw [hcutoff] at hrefused
      have hfull : ¬ (since cutoff (admitted call.key before)).length < attempts :=
        of_decide_eq_false (Except.ok.inj hrefused).symm
      rw [subtract_eq_ok hcutoff] at hfull
      have hwindow : (admitted call.key before).filter (fun t =>
            decide (call.now - window < t ∧ t ≤ call.now))
          = since (call.now - window) (admitted call.key before) := by
        apply List.filter_congr
        intro t ht
        obtain ⟨record, hrecord, -, rfl⟩ := mem_admitted.mp ht
        simp [hbefore record hrecord]
      have hle := (h.of_append.sparse call.key).length_le_of_openClosed
        (call.now - window)
      rw [sub_add_cancel, hwindow] at hle
      rw [hwindow]
      omega

-- ============================================================== the keys

/-- Limiters of the same settings with the same log of a key. -/
structure Alike (key : String) (limiter limiter' : DeterministicRateLimiter) :
    Prop where
  attempts_eq : limiter.attempts = limiter'.attempts
  window_eq : limiter.window = limiter'.window
  log_eq : limiter.events.getD key [] = limiter'.events.getD key []

section Keys

variable {limiter' : DeterministicRateLimiter} {key : String}

/-- They answer a call on the key alike and stay alike. -/
theorem Alike.allow (h : Alike key limiter limiter') (now : Timestamp) :
    (limiter.allow key now).1 = (limiter'.allow key now).1
      ∧ Alike key (limiter.allow key now).2 (limiter'.allow key now).2 := by
  obtain ⟨raised, hraised, hallow⟩ | ⟨cutoff, events, hcutoff, hevents, hallow⟩ :=
    allow_cases limiter key now
  · have hother : limiter'.allow key now = (.error raised, limiter') := by
      unfold DeterministicRateLimiter.allow
      rw [← h.window_eq, hraised]
    rw [hallow, hother]
    exact ⟨rfl, h⟩
  · have hother : limiter'.allow key now
        = if limiter.attempts ≤ events.length then
            (.ok false, limiter'.setEvents key events)
          else (.ok true, limiter'.setEvents key (events ++ [now])) := by
      unfold DeterministicRateLimiter.allow
      rw [← h.window_eq, ← h.attempts_eq, ← h.log_eq, hcutoff, hevents]
      rfl
    have hset (log : List Timestamp) :
        Alike key (limiter.setEvents key log) (limiter'.setEvents key log) := by
      refine ⟨h.attempts_eq, h.window_eq, ?_⟩
      rw [getD_setEvents, getD_setEvents, if_pos rfl, if_pos rfl]
    obtain ⟨hfull, hallow⟩ | ⟨hroom, hallow⟩ := hallow
    · rw [hallow, hother, if_pos hfull]
      exact ⟨rfl, hset events⟩
    · rw [hallow, hother, if_neg (Nat.not_le_of_lt hroom)]
      exact ⟨rfl, hset (events ++ [now])⟩

/-- A call on another key makes no difference. -/
theorem Alike.allow_of_ne (h : Alike key limiter limiter') {key' : String}
    (hne : key' ≠ key) (now : Timestamp) :
    Alike key (limiter.allow key' now).2 limiter' := by
  have hset (log : List Timestamp) :
      Alike key (limiter.setEvents key' log) limiter' := by
    refine ⟨h.attempts_eq, h.window_eq, ?_⟩
    rw [getD_setEvents, if_neg hne.symm, h.log_eq]
  obtain ⟨raised, -, hallow⟩ | ⟨cutoff, events, -, -, hallow⟩ :=
    allow_cases limiter key' now
  · rw [hallow]
    exact h
  · obtain ⟨-, hallow⟩ | ⟨-, hallow⟩ := hallow
    · rw [hallow]
      exact hset events
    · rw [hallow]
      exact hset (events ++ [now])

/-- So the calls on one key are answered as if there were no others. -/
theorem Alike.records (h : Alike key limiter limiter') (calls : List AllowCall) :
    (limiter.records calls).filter (fun record => decide (record.call.key = key))
      = limiter'.records (calls.filter fun call => decide (call.key = key)) := by
  induction calls generalizing limiter limiter' with
  | nil => rfl
  | cons call calls ih =>
      by_cases hkey : call.key = key
      · subst hkey
        obtain ⟨hresult, hnext⟩ := h.allow call.now
        simp [hresult, ih hnext]
      · have hnext := h.allow_of_ne hkey call.now
        simp [hkey, ih hnext]

end Keys

-- =============================================================== the whole

/-- Calls at times that never fall back: no window, whichever end it
includes, has more than `attempts` admitted calls of a key; a call is
refused only where the window ending at it has as many; and the calls on a
key are answered as they would be alone. -/
theorem windows_bounded (attempts : Nat) (window : Int) (calls : List AllowCall)
    (hsorted : calls.Pairwise fun call call' => call.now ≤ call'.now) :
    (∀ key start,
      ((admitted key ((init attempts window).records calls)).filter fun t =>
          decide (start ≤ t ∧ t < start + window)).length ≤ attempts
        ∧ ((admitted key ((init attempts window).records calls)).filter fun t =>
          decide (start < t ∧ t ≤ start + window)).length ≤ attempts)
    ∧ (∀ before call after,
        (init attempts window).records calls
            = before ++ ⟨call, .ok false⟩ :: after →
          ((admitted call.key before).filter fun t =>
            decide (call.now - window < t ∧ t ≤ call.now)).length = attempts)
    ∧ ∀ key,
      ((init attempts window).records calls).filter
          (fun record => decide (record.call.key = key))
        = (init attempts window).records
          (calls.filter fun call => decide (call.key = key)) := by
  have hfaithful :
      Faithful attempts window [] ((init attempts window).records calls) :=
    faithful_records hsorted fun call _ => agrees_init attempts window call.now
  refine ⟨fun key start => ?_, fun before call after heq => ?_, fun key => ?_⟩
  · have hsparse := hfaithful.sparse key
    exact ⟨hsparse.length_le_of_closedOpen start,
      hsparse.length_le_of_openClosed start⟩
  · rw [heq] at hfaithful
    apply hfaithful.full_of_refused
    intro record hrecord
    have hcalls := congrArg (List.map AllowRecord.call) heq
    rw [map_call_records] at hcalls
    rw [hcalls, List.map_append, List.map_cons, List.pairwise_append] at hsorted
    exact hsorted.2.2 record.call (List.mem_map_of_mem hrecord) call
      List.mem_cons_self
  · exact Alike.records ⟨rfl, rfl, rfl⟩ calls

/-- One attempt a minute: the second call on a key, ten seconds later, finds
the window full; another key has its own. -/
theorem windows_bounded_minute :
    (init 1 60000000).records
        [⟨"a", 0⟩, ⟨"b", 5000000⟩, ⟨"a", 10000000⟩, ⟨"a", 60000000⟩]
      = [⟨⟨"a", 0⟩, .ok true⟩, ⟨⟨"b", 5000000⟩, .ok true⟩,
          ⟨⟨"a", 10000000⟩, .ok false⟩, ⟨⟨"a", 60000000⟩, .ok true⟩]
    ∧ ((admitted "a" [⟨⟨"a", 0⟩, .ok true⟩, ⟨⟨"b", 5000000⟩, .ok true⟩]).filter
        fun t => decide (10000000 - 60000000 < t ∧ t ≤ 10000000)).length = 1 := by
  have hrecords : (init 1 60000000).records
        [⟨"a", 0⟩, ⟨"b", 5000000⟩, ⟨"a", 10000000⟩, ⟨"a", 60000000⟩]
      = [⟨⟨"a", 0⟩, .ok true⟩, ⟨⟨"b", 5000000⟩, .ok true⟩]
        ++ ⟨⟨"a", 10000000⟩, .ok false⟩ :: [⟨⟨"a", 60000000⟩, .ok true⟩] := by
    decide
  have hwindows := windows_bounded 1 60000000
    [⟨"a", 0⟩, ⟨"b", 5000000⟩, ⟨"a", 10000000⟩, ⟨"a", 60000000⟩] (by decide)
  exact ⟨hrecords, hwindows.2.1 _ ⟨"a", 10000000⟩ _ hrecords⟩

end PatentEvidence.Auth.DeterministicRateLimiter
