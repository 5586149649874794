/-
Pools, where the first offer under a key is kept, and runs of requests that
may be refused.

A pool takes an offer under a key that has nothing yet and lets every other
one pass; what it keeps changes by an amendment only. So whatever is kept
outlives any number of offers (`offerAll_of_some`), and offers under keys
that have something change nothing (`offerAll_of_kept`).

A system that answers a request with a new state or a refusal runs by
leaving the state where it refuses. `run_after_refines` is the rule by which such
a run is the run of its accepted requests on an abstraction of the state.
-/
import PatentEvidence.Lib.Fallible
import PatentEvidence.Lib.Run

namespace PatentEvidence

-- ================================================================ pools

/-- What is kept under each key. -/
def Pool (κ α : Type _) := κ → Option α

namespace Pool

variable {κ α : Type _}

def empty : Pool κ α := fun _ => none

/-- Everything kept is rewritten. -/
def amend (f : κ → α → α) (pool : Pool κ α) : Pool κ α :=
  fun k => (pool k).map (f k)

variable [DecidableEq κ]

/-- An offer under a key. -/
def offer (pool : Pool κ α) (o : κ × α) : Pool κ α :=
  fun k => if k = o.1 then some ((pool k).getD o.2) else pool k

/-- One offer after another. -/
def offerAll (pool : Pool κ α) (os : List (κ × α)) : Pool κ α :=
  os.foldl offer pool

@[simp] theorem offerAll_nil (pool : Pool κ α) : pool.offerAll [] = pool := rfl

@[simp] theorem offerAll_cons (pool : Pool κ α) (o : κ × α) (os : List (κ × α)) :
    pool.offerAll (o :: os) = (pool.offer o).offerAll os := rfl

theorem offer_of_some {pool : Pool κ α} {k : κ} {a : α} (h : pool k = some a)
    (o : κ × α) : pool.offer o k = some a := by
  unfold offer
  split
  · rw [h, Option.getD_some]
  · exact h

/-- What is kept stays. -/
theorem offerAll_of_some {pool : Pool κ α} {k : κ} {a : α} (h : pool k = some a)
    (os : List (κ × α)) : pool.offerAll os k = some a := by
  induction os generalizing pool with
  | nil => exact h
  | cons o os ih => exact ih (offer_of_some h o)

/-- Offers under keys that have something change nothing. -/
theorem offerAll_of_kept {pool : Pool κ α} {os : List (κ × α)}
    (h : ∀ o ∈ os, (pool o.1).isSome) : pool.offerAll os = pool := by
  induction os with
  | nil => rfl
  | cons o os ih =>
      obtain ⟨ho, hos⟩ := List.forall_mem_cons.mp h
      have hsame : pool.offer o = pool := by
        funext k
        unfold offer
        split
        · next hk =>
            obtain ⟨a, ha⟩ := Option.isSome_iff_exists.mp (hk ▸ ho)
            rw [ha, Option.getD_some]
        · rfl
      rw [offerAll_cons, hsame, ih hos]

/-- What is there after some offers, and was not before, is one of them. -/
theorem mem_of_offerAll {pool : Pool κ α} {os : List (κ × α)} {k : κ} {a : α}
    (hnone : pool k = none) (h : pool.offerAll os k = some a) : (k, a) ∈ os := by
  induction os generalizing pool with
  | nil =>
      rw [offerAll_nil, hnone] at h
      cases h
  | cons o os ih =>
      rw [offerAll_cons] at h
      by_cases hk : k = o.1
      · have hoffered : pool.offer o k = some o.2 := by
          rw [offer, if_pos hk, hnone, Option.getD_none]
        rw [offerAll_of_some hoffered, Option.some.injEq] at h
        rw [hk, ← h]
        exact List.mem_cons_self ..
      · have hpassed : pool.offer o k = none := by rw [offer, if_neg hk, hnone]
        exact List.mem_cons_of_mem _ (ih hpassed h)

/-- An offer under a key is answered: after it, something is there. -/
theorem isSome_offerAll {pool : Pool κ α} {os : List (κ × α)} {o : κ × α}
    (h : o ∈ os) : (pool.offerAll os o.1).isSome := by
  induction os generalizing pool with
  | nil => cases h
  | cons p os ih =>
      rcases List.mem_cons.mp h with rfl | h
      · have hkept : pool.offer o o.1 = some ((pool o.1).getD o.2) := if_pos rfl
        rw [offerAll_cons, offerAll_of_some hkept]
        rfl
      · exact ih h

end Pool

-- ======================================================= refused requests

namespace Runs

variable {σ τ ρ ε : Type _} (handle : σ → ρ → Except ε σ)

/-- The state after a request. -/
def after (s : σ) (r : ρ) : σ := Fallible.settle s (handle s r)

/-- The requests of a run that are not refused. -/
def accepted : σ → List ρ → List ρ
  | _, [] => []
  | s, r :: rs =>
      match handle s r with
      | .ok s' => r :: accepted s' rs
      | .error _ => accepted s rs

variable {handle}

/-- What every accepted request keeps holds after every run. -/
theorem run_after_invariant {I : σ → Prop}
    (hstep : ∀ s r s', I s → handle s r = .ok s' → I s') {s : σ} (hs : I s)
    (rs : List ρ) : I (run (after handle) s rs) :=
  run_invariant_of_forall
    (fun s r hs => Fallible.settle_of_forall hs fun s' h => hstep s r s' hs h) hs

/-- A run is the run of its accepted requests on the abstraction. -/
theorem run_after_refines {I : σ → Prop} {abs : σ → τ} {effect : τ → ρ → τ}
    (hkeep : ∀ s r s', I s → handle s r = .ok s' → I s')
    (hstep : ∀ s r s', I s → handle s r = .ok s' → abs s' = effect (abs s) r)
    {s : σ} (hs : I s) (rs : List ρ) :
    abs (run (after handle) s rs)
      = (accepted handle s rs).foldl effect (abs s) := by
  induction rs generalizing s with
  | nil => rfl
  | cons r rs ih =>
      rw [run_cons]
      unfold accepted after
      cases h : handle s r with
      | error e => exact ih hs
      | ok s' =>
          have hrest := ih (hkeep s r s' hs h)
          rw [Fallible.settle_ok, List.foldl_cons, ← hstep s r s' hs h]
          exact hrest

end Runs

end PatentEvidence
