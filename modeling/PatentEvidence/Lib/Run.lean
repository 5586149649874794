/-
Runs of a deterministic step function, and what holds along them.

A run is the left fold of its events. `Along ok` says that every event of
a run met a condition in the state it was executed in. The two rules are
the induction every safety result over runs rests on: `run_invariant` for
an invariant each permitted step keeps, and `always_iff_along` where the
condition is exact, that is, where a step keeps the invariant if and only
if it meets the condition. `thereafter` is for what one event promises of
all later ones, and `tally_le` for what a run uses up: a potential that
each step pays for bounds what all of them take together.
-/
import Mathlib.Data.List.Infix

namespace PatentEvidence.Runs

variable {σ ε : Type _} (step : σ → ε → σ)

/-- The state after a sequence of events. -/
def run (s : σ) (events : List ε) : σ := events.foldl step s

@[simp] theorem run_nil (s : σ) : run step s [] = s := rfl

@[simp] theorem run_cons (s : σ) (e : ε) (es : List ε) :
    run step s (e :: es) = run step (step s e) es := rfl

theorem run_append (s : σ) (es es' : List ε) :
    run step s (es ++ es') = run step (run step s es) es' :=
  List.foldl_append

/-- Every event met the condition in the state it was executed in. -/
def Along (ok : σ → ε → Prop) : σ → List ε → Prop
  | _, [] => True
  | s, e :: es => ok s e ∧ Along ok (step s e) es

/-- The invariant holds in every state of the run. -/
def Always (I : σ → Prop) (s : σ) (events : List ε) : Prop :=
  ∀ es, es <+: events → I (run step s es)

/-- From every event on, the later ones are as it asks of them. -/
def Thereafter (ask : σ → ε → σ → ε → Prop) : σ → List ε → Prop
  | _, [] => True
  | s, e :: es => Along step (ask s e) (step s e) es ∧ Thereafter ask (step s e) es

variable {step} {I : σ → Prop} {ok : σ → ε → Prop}

theorem along_append {s : σ} {es es' : List ε} :
    Along step ok s (es ++ es')
      ↔ Along step ok s es ∧ Along step ok (run step s es) es' := by
  induction es generalizing s with
  | nil => simp [Along]
  | cons e es ih => simp only [List.cons_append, Along, ih, run_cons, and_assoc]

theorem along_of_mem {es : List ε} (h : ∀ e ∈ es, ∀ s, ok s e) {s : σ} :
    Along step ok s es := by
  induction es generalizing s with
  | nil => trivial
  | cons e es ih =>
      exact ⟨h e List.mem_cons_self s,
        ih fun e' he' => h e' (List.mem_cons_of_mem _ he')⟩

theorem along_of_forall (h : ∀ s e, ok s e) {s : σ} {es : List ε} :
    Along step ok s es :=
  along_of_mem fun e _ s => h s e

theorem Along.mono {ok' : σ → ε → Prop} (himp : ∀ s e, ok s e → ok' s e)
    {s : σ} {es : List ε} (h : Along step ok s es) : Along step ok' s es := by
  induction es generalizing s with
  | nil => exact h
  | cons e es ih => exact ⟨himp s e h.1, ih h.2⟩

/-- What every permitted step keeps holds after every permitted run. -/
theorem run_invariant (hstep : ∀ s e, I s → ok s e → I (step s e))
    {s : σ} {es : List ε} (hs : I s) (h : Along step ok s es) :
    I (run step s es) := by
  induction es generalizing s with
  | nil => exact hs
  | cons e es ih => exact ih (hstep s e hs h.1) h.2

/-- What every step keeps holds after every run. -/
theorem run_invariant_of_forall (hstep : ∀ s e, I s → I (step s e))
    {s : σ} {es : List ε} (hs : I s) : I (run step s es) := by
  induction es generalizing s with
  | nil => exact hs
  | cons e es ih => exact ih (hstep s e hs)

/-- What a run brings about, one of its events does. -/
theorem exists_first {s : σ} {es : List ε} (hs : ¬ I s) (h : I (run step s es)) :
    ∃ before e after, es = before ++ e :: after ∧ ¬ I (run step s before)
      ∧ I (step (run step s before) e) := by
  induction es generalizing s with
  | nil => exact absurd h hs
  | cons e es ih =>
      by_cases hone : I (step s e)
      · exact ⟨[], e, es, rfl, hs, hone⟩
      · obtain ⟨before, e', after, rfl, hbefore, hafter⟩ := ih hone h
        exact ⟨e :: before, e', after, rfl, hbefore, hafter⟩

/-- So it holds in every state of every run, … -/
theorem always_of_forall (hstep : ∀ s e, I s → I (step s e)) {s : σ}
    {es : List ε} (hs : I s) : Always step I s es :=
  fun _ _ => run_invariant_of_forall hstep hs

/-- … and so does what it says of the next step. -/
theorem along_of_invariant (hstep : ∀ s e, I s → I (step s e))
    (hok : ∀ s e, I s → ok s e) {s : σ} {es : List ε} (hs : I s) :
    Along step ok s es := by
  induction es generalizing s with
  | nil => trivial
  | cons e es ih => exact ⟨hok s e hs, ih (hstep s e hs)⟩

/-- A fact `K` that an event leaves, that the later steps keep, and that
gives what the event asks, where the pair of events meets a condition. -/
theorem thereafter_of {ask cond : σ → ε → σ → ε → Prop} {K : σ → ε → σ → Prop}
    (hI : ∀ s e, I s → ok s e → I (step s e))
    (hstart : ∀ s e, I s → ok s e → K s e (step s e))
    (hkeep : ∀ s e s' e', K s e s' → ok s' e' → K s e (step s' e'))
    (hask : ∀ s e s' e', K s e s' → ok s' e' → cond s e s' e' → ask s e s' e')
    {s : σ} {es : List ε} (hs : I s) (h : Along step ok s es)
    (hcond : Thereafter step cond s es) : Thereafter step ask s es := by
  have hlater (s : σ) (e : ε) (es : List ε) :
      ∀ s', K s e s' → Along step ok s' es → Along step (cond s e) s' es →
        Along step (ask s e) s' es := by
    induction es with
    | nil => exact fun _ _ _ _ => trivial
    | cons e' es ih =>
        exact fun s' hK hok hc => ⟨hask s e s' e' hK hok.1 hc.1,
          ih _ (hkeep s e s' e' hK hok.1) hok.2 hc.2⟩
  induction es generalizing s with
  | nil => trivial
  | cons e es ih =>
      exact ⟨hlater s e es _ (hstart s e hs h.1) h.2 hcond.1,
        ih (hI s e hs h.1) h.2 hcond.2⟩

theorem thereafter_of_mem {ask : σ → ε → σ → ε → Prop} {es : List ε}
    (h : ∀ e' ∈ es, ∀ s e s', ask s e s' e') {s : σ} :
    Thereafter step ask s es := by
  induction es generalizing s with
  | nil => trivial
  | cons e es ih =>
      have hrest (e' : ε) (he' : e' ∈ es) : ∀ s e s', ask s e s' e' :=
        h e' (List.mem_cons_of_mem _ he')
      exact ⟨along_of_mem fun e' he' s' => hrest e' he' s e s', ih hrest⟩

theorem thereafter_true {s : σ} {es : List ε} :
    Thereafter step (fun _ _ _ _ => True) s es :=
  thereafter_of_mem fun _ _ _ _ _ => trivial

/-- Where the later steps need nothing. -/
theorem thereafter {ask : σ → ε → σ → ε → Prop} {K : σ → ε → σ → Prop}
    (hI : ∀ s e, I s → ok s e → I (step s e))
    (hstart : ∀ s e, I s → ok s e → K s e (step s e))
    (hkeep : ∀ s e s' e', K s e s' → K s e (step s' e'))
    (hask : ∀ s e s' e', K s e s' → ask s e s' e')
    {s : σ} {es : List ε} (hs : I s) (h : Along step ok s es) :
    Thereafter step ask s es :=
  thereafter_of hI hstart (fun s e s' e' hK _ => hkeep s e s' e' hK)
    (fun s e s' e' hK _ _ => hask s e s' e' hK) hs h thereafter_true

/-- Where every step leaves the fact. -/
theorem thereafter_of_forall {ask : σ → ε → σ → ε → Prop} {K : σ → ε → σ → Prop}
    (hstart : ∀ s e, K s e (step s e))
    (hkeep : ∀ s e s' e', K s e s' → K s e (step s' e'))
    (hask : ∀ s e s' e', K s e s' → ask s e s' e')
    {s : σ} {es : List ε} : Thereafter step ask s es := by
  have hok : Along step (fun _ _ => True) s es :=
    along_of_forall fun _ _ => trivial
  exact thereafter (I := fun _ => True) (fun _ _ _ _ => trivial)
    (fun s e _ _ => hstart s e) hkeep hask trivial hok

theorem always_cons {s : σ} {e : ε} {es : List ε} :
    Always step I s (e :: es) ↔ I s ∧ Always step I (step s e) es := by
  constructor
  · intro h
    refine ⟨h [] (List.nil_prefix ..), fun pre hpre => ?_⟩
    exact h (e :: pre) (List.cons_prefix_cons.mpr ⟨rfl, hpre⟩)
  · rintro ⟨hs, h⟩ pre hpre
    cases pre with
    | nil => exact hs
    | cons e' pre =>
        obtain ⟨rfl, hrest⟩ := List.cons_prefix_cons.mp hpre
        exact h pre hrest

/-- Where a step keeps the invariant and is as it should be (`L`) exactly
when it meets the condition, all of a run is so exactly when every step
meets it. `W` is what holds anyway. -/
theorem always_and_along_iff {W : σ → Prop} {L : σ → ε → Prop}
    (hW : ∀ s e, W s → W (step s e))
    (hstep : ∀ s e, W s → I s → (I (step s e) ∧ L s e ↔ ok s e)) {s : σ}
    {es : List ε} (hw : W s) (hs : I s) :
    Always step I s es ∧ Along step L s es ↔ Along step ok s es := by
  induction es generalizing s with
  | nil =>
      refine ⟨fun _ => trivial, fun _ => ⟨fun pre hpre => ?_, trivial⟩⟩
      rw [List.prefix_nil.mp hpre]
      exact hs
  | cons e es ih =>
      rw [always_cons, Along, Along]
      constructor
      · rintro ⟨⟨-, h⟩, hl, hrest⟩
        have hnext : I (step s e) := h [] (List.nil_prefix ..)
        exact ⟨(hstep s e hw hs).mp ⟨hnext, hl⟩,
          (ih (hW s e hw) hnext).mp ⟨h, hrest⟩⟩
      · rintro ⟨hok, h⟩
        obtain ⟨hnext, hl⟩ := (hstep s e hw hs).mpr hok
        obtain ⟨hall, hrest⟩ := (ih (hW s e hw) hnext).mpr h
        exact ⟨⟨hs, hall⟩, hl, hrest⟩

/-- Where only the invariant is asked for. -/
theorem always_iff_along {W : σ → Prop}
    (hW : ∀ s e, W s → W (step s e))
    (hstep : ∀ s e, W s → I s → (I (step s e) ↔ ok s e)) {s : σ}
    {es : List ε} (hw : W s) (hs : I s) :
    Always step I s es ↔ Along step ok s es := by
  have htrue : Along step (fun _ _ => True) s es :=
    along_of_forall fun _ _ => trivial
  refine (and_iff_left htrue).symm.trans (always_and_along_iff hW ?_ hw hs)
  exact fun s e hw hs => (and_iff_left trivial).trans (hstep s e hw hs)

-- ============================================================= tallies

/-- What the events of a run come to, each counted in the state it was
executed in. -/
def tally (step : σ → ε → σ) (count : σ → ε → Nat) : σ → List ε → Nat
  | _, [] => 0
  | s, e :: es => count s e + tally step count (step s e) es

/-- A potential pays for what is taken, and what is put in raises it. -/
theorem tally_le (μ : σ → Nat) (taken given : σ → ε → Nat)
    (h : ∀ s e, μ (step s e) + taken s e ≤ μ s + given s e) (s : σ)
    (es : List ε) :
    μ (run step s es) + tally step taken s es
      ≤ μ s + tally step given s es := by
  induction es generalizing s with
  | nil => simp [tally]
  | cons e es ih =>
      have hfirst := h s e
      have hrest := ih (step s e)
      rw [run_cons, tally, tally]
      omega

/-- And where it is exact, so is the balance. -/
theorem tally_eq (μ : σ → Nat) (taken given : σ → ε → Nat)
    (h : ∀ s e, μ (step s e) + taken s e = μ s + given s e) (s : σ)
    (es : List ε) :
    μ (run step s es) + tally step taken s es
      = μ s + tally step given s es := by
  induction es generalizing s with
  | nil => simp [tally]
  | cons e es ih =>
      have hfirst := h s e
      have hrest := ih (step s e)
      rw [run_cons, tally, tally]
      omega

theorem tally_zero {s : σ} {es : List ε} :
    tally step (fun _ _ => 0) s es = 0 := by
  induction es generalizing s with
  | nil => rfl
  | cons e es ih => rw [tally, ih]

end PatentEvidence.Runs
