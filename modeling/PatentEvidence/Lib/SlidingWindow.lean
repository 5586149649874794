/-
Logs of events, and the windows that slide over them.

`since cutoff` is what a window opening at the cutoff still reaches. A log
may be pruned at every cutoff as long as the cutoffs only rise: what is
left has the same events after the next one (`since_since`).

`Sparse` bounds the events of every window of one width at once, whichever
end the window includes: it speaks of events less than the width apart.
An event may join a sparse log where the window ending at it has room
(`Sparse.append_singleton`), and that is all that is ever checked.
-/
import Mathlib.Algebra.Order.Group.Unbundled.Basic
import Mathlib.Algebra.Order.Group.Defs

namespace PatentEvidence.SlidingWindow

variable {α : Type _}

section Pruning

variable [LinearOrder α]

/-- The events after a cutoff. -/
def since (cutoff : α) (events : List α) : List α :=
  events.filter fun event => decide (cutoff < event)

@[simp] theorem mem_since {cutoff event : α} {events : List α} :
    event ∈ since cutoff events ↔ event ∈ events ∧ cutoff < event := by
  simp [since]

@[simp] theorem since_append (cutoff : α) (events events' : List α) :
    since cutoff (events ++ events')
      = since cutoff events ++ since cutoff events' :=
  List.filter_append ..

/-- What an earlier cutoff dropped, a later one drops as well. -/
theorem since_since {cutoff cutoff' : α} (h : cutoff ≤ cutoff')
    (events : List α) :
    since cutoff' (since cutoff events) = since cutoff' events := by
  unfold since
  rw [List.filter_filter]
  apply List.filter_congr
  intro event _
  by_cases hlater : cutoff' < event
  · simp [hlater, lt_of_le_of_lt h hlater]
  · simp [hlater]

end Pruning

section Bound

variable [AddCommGroup α] [LinearOrder α] [IsOrderedAddMonoid α]

/-- Of events less than a width apart there are at most so many. -/
def Sparse (width : α) (bound : Nat) (events : List α) : Prop :=
  ∀ p : α → Bool, (∀ a b, p a = true → p b = true → b - a < width) →
    (events.filter p).length ≤ bound

variable {width : α} {bound : Nat} {events : List α}

omit [IsOrderedAddMonoid α] in
theorem sparse_nil : Sparse width bound ([] : List α) := by
  intro p _
  show 0 ≤ bound
  omega

/-- The events less than the width before a new one are in the window that
ends at it. -/
theorem Sparse.append_singleton {event : α} (h : Sparse width bound events)
    (hroom : (since (event - width) events).length < bound) :
    Sparse width bound (events ++ [event]) := by
  intro p hp
  rw [List.filter_append, List.length_append]
  by_cases hnew : p event = true
  · have hle : (events.filter p).length
        ≤ (since (event - width) events).length := by
      unfold since
      rw [← List.countP_eq_length_filter, ← List.countP_eq_length_filter]
      apply List.countP_mono_left
      intro a _ ha
      apply decide_eq_true
      exact sub_lt_comm.mp (hp a event ha hnew)
    simp only [List.filter_cons, hnew, if_true, List.filter_nil,
      List.length_singleton]
    omega
  · have hold : (events.filter p).length ≤ bound := h p hp
    simpa [hnew] using hold

/-- A window that includes its start … -/
theorem Sparse.length_le_of_closedOpen (h : Sparse width bound events)
    (start : α) :
    (events.filter fun t => decide (start ≤ t ∧ t < start + width)).length
      ≤ bound := by
  apply h
  intro a b ha hb
  have hstart : start ≤ a := (of_decide_eq_true ha).1
  have hstop : b < start + width := (of_decide_eq_true hb).2
  apply sub_lt_iff_lt_add'.mpr
  exact lt_of_lt_of_le hstop (add_le_add_left hstart width)

/-- … and one that includes its end. -/
theorem Sparse.length_le_of_openClosed (h : Sparse width bound events)
    (start : α) :
    (events.filter fun t => decide (start < t ∧ t ≤ start + width)).length
      ≤ bound := by
  apply h
  intro a b ha hb
  have hstart : start < a := (of_decide_eq_true ha).1
  have hstop : b ≤ start + width := (of_decide_eq_true hb).2
  apply sub_lt_iff_lt_add'.mpr
  exact lt_of_le_of_lt hstop (add_lt_add_left hstart width)

end Bound

end PatentEvidence.SlidingWindow
