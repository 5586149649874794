/-
Computations that may raise: what a successful sequence of fallible
steps says about its parts.

`bind_eq_ok` peels one step off a successful computation;
`mapM_eq_ok_iff` reads a successful traversal entry by entry, and
`collect` is a traversal that keeps some of its results. `raiseIf` and
`runIf` are the guards of a sequence. `settle` is the state after a request
that may be refused, and `settle_iff` reduces a property of that state to
the accepted case.
-/
import Mathlib.Data.List.Forall2

namespace PatentEvidence.Fallible

variable {ε α β : Type _}

/-- A sequence succeeds exactly when both of its halves do. -/
theorem bind_eq_ok {x : Except ε α} {f : α → Except ε β} {b : β} :
    (x >>= f) = .ok b ↔ ∃ a, x = .ok a ∧ f a = .ok b := by
  cases x with
  | error e =>
      constructor
      · intro h
        cases h
      · rintro ⟨a, h, -⟩
        cases h
  | ok a =>
      constructor
      · intro h
        exact ⟨a, rfl, h⟩
      · rintro ⟨a', h, hf⟩
        cases h
        exact hf

theorem ok_bind (a : α) (f : α → Except ε β) : (Except.ok a >>= f) = f a := rfl

/-- Continuations matter on the results of the first step only. -/
theorem bind_congr_ok {x : Except ε α} {f g : α → Except ε β}
    (h : ∀ a, x = .ok a → f a = g a) : (x >>= f) = (x >>= g) := by
  cases x with
  | error e => rfl
  | ok a => exact h a rfl

theorem map_bind {γ : Type _} (x : Except ε α) (f : α → Except ε β)
    (g : β → γ) : (x >>= f).map g = x >>= fun a => (f a).map g := by
  cases x with
  | error e => rfl
  | ok a => rfl

theorem pure_eq_ok {a b : α} : (pure a : Except ε α) = .ok b ↔ a = b :=
  ⟨fun h => Except.ok.inj h, fun h => by rw [h]; rfl⟩

theorem toOption_eq_some {x : Except ε α} {a : α} :
    x.toOption = some a ↔ x = .ok a := by
  cases x with
  | error e => simp [Except.toOption]
  | ok b => simp [Except.toOption]

/-- A traversal succeeds exactly when every entry does. -/
theorem mapM_eq_ok_iff {f : α → Except ε β} {l : List α} {bs : List β} :
    l.mapM f = .ok bs ↔ List.Forall₂ (fun a b => f a = .ok b) l bs := by
  induction l generalizing bs with
  | nil =>
      rw [List.mapM_nil, pure_eq_ok, List.forall₂_nil_left_iff]
      exact eq_comm
  | cons a l ih =>
      rw [List.mapM_cons, List.forall₂_cons_left_iff, bind_eq_ok]
      constructor
      · rintro ⟨b, hb, h⟩
        obtain ⟨bs', hbs', h⟩ := bind_eq_ok.mp h
        exact ⟨b, bs', hb, ih.mp hbs', (pure_eq_ok.mp h).symm⟩
      · rintro ⟨b, bs', hb, hbs', rfl⟩
        exact ⟨b, hb, bind_eq_ok.mpr ⟨bs', ih.mpr hbs', rfl⟩⟩

/-- What a related list has comes from the other. -/
theorem exists_of_forall₂ {α β : Type _} {R : α → β → Prop} {l : List α}
    {l' : List β} {b : β} (h : List.Forall₂ R l l') (hb : b ∈ l') :
    ∃ a ∈ l, R a b := by
  induction h with
  | nil => cases hb
  | @cons a b' l l' hab _ ih =>
      rcases List.mem_cons.mp hb with rfl | hb
      · exact ⟨a, List.mem_cons_self .., hab⟩
      · obtain ⟨a', ha', hrel⟩ := ih hb
        exact ⟨a', List.mem_cons_of_mem _ ha', hrel⟩

/-- Related lists with a value in common. -/
theorem map_eq_of_forall₂ {α β γ : Type _} {R : α → β → Prop} {f : α → γ}
    {g : β → γ} {l : List α} {l' : List β} (h : List.Forall₂ R l l')
    (hfg : ∀ a b, R a b → f a = g b) : l.map f = l'.map g := by
  rw [← List.forall₂_eq_eq_eq, List.forall₂_map_left_iff,
    List.forall₂_map_right_iff]
  exact h.imp hfg

/-- A traversal depends on what it does at the entries only. -/
theorem mapM_congr {f g : α → Except ε β} {l : List α}
    (h : ∀ a ∈ l, f a = g a) : l.mapM f = l.mapM g := by
  induction l with
  | nil => rfl
  | cons a l ih =>
      obtain ⟨ha, hl⟩ := List.forall_mem_cons.mp h
      rw [List.mapM_cons, List.mapM_cons, ha, ih hl]

/-- A traversal whose entries succeed with known results. -/
theorem mapM_eq_ok_map {f : α → Except ε β} {g : α → β} {l : List α}
    (h : ∀ a ∈ l, f a = .ok (g a)) : l.mapM f = .ok (l.map g) := by
  rw [mapM_eq_ok_iff, List.forall₂_map_right_iff, List.forall₂_same]
  exact h

/-- `[… for a in l if …]`, where the condition or the item may raise. -/
def collect (f : α → Except ε (Option β)) (l : List α) : Except ε (List β) := do
  return (← l.mapM f).filterMap id

theorem collect_eq_ok {f : α → Except ε (Option β)} {g : α → Option β}
    {l : List α} (h : ∀ a ∈ l, f a = .ok (g a)) :
    collect f l = .ok (l.filterMap g) := by
  rw [collect, mapM_eq_ok_map h, ok_bind, List.filterMap_map]
  rfl

/-- A dropped item that yields nothing is not missed. -/
theorem filterMap_filter_of_kept {keep : α → Bool}
    {f : α → Option β} (h : ∀ a, (f a).isSome = true → keep a = true)
    (l : List α) : (l.filter keep).filterMap f = l.filterMap f := by
  induction l with
  | nil => rfl
  | cons a l ih =>
      by_cases hkeep : keep a = true
      · rw [List.filter_cons_of_pos hkeep, List.filterMap_cons,
          List.filterMap_cons, ih]
      · have hnone : f a = none := by
          rw [← Option.not_isSome_iff_eq_none]
          exact fun hsome => hkeep (h a hsome)
        rw [List.filter_cons_of_neg hkeep, List.filterMap_cons_none hnone, ih]

/-- Of items that all yield something, the first ones yield the first
results. -/
theorem take_filterMap_of_isSome {f : α → Option β} {l : List α}
    (h : ∀ a ∈ l, (f a).isSome = true) (n : Nat) :
    (l.filterMap f).take n = (l.take n).filterMap f := by
  induction l generalizing n with
  | nil => rw [List.filterMap_nil, List.take_nil, List.take_nil, List.filterMap_nil]
  | cons a l ih =>
      obtain ⟨hsome, hrest⟩ := List.forall_mem_cons.mp h
      obtain ⟨b, hb⟩ := Option.isSome_iff_exists.mp hsome
      cases n with
      | zero => rfl
      | succ n =>
          rw [List.take_succ_cons, List.filterMap_cons_some hb,
            List.filterMap_cons_some hb, List.take_succ_cons, ih hrest]

/-- Entries left out before a traversal are their results left out after
it. -/
theorem mapM_filter {f : α → Except ε β} {keep : α → Bool} {keep' : β → Bool}
    (h : ∀ a b, f a = .ok b → keep a = keep' b) {l : List α} {bs : List β}
    (hl : l.mapM f = .ok bs) :
    (l.filter keep).mapM f = .ok (bs.filter keep') := by
  rw [mapM_eq_ok_iff] at hl ⊢
  induction hl with
  | nil => exact .nil
  | @cons a b l bs hab _ ih =>
      rw [List.filter_cons, List.filter_cons, h a b hab]
      split
      · exact .cons hab ih
      · exact ih

/-- A traversal succeeds if no entry fails. -/
theorem exists_mapM_ok_iff {f : α → Except ε β} {l : List α} :
    (∃ bs, l.mapM f = .ok bs) ↔ ∀ a ∈ l, ∃ b, f a = .ok b := by
  induction l with
  | nil => exact iff_of_true ⟨[], rfl⟩ (by simp)
  | cons a l ih =>
      rw [List.forall_mem_cons, ← ih]
      constructor
      · rintro ⟨bs, h⟩
        rw [List.mapM_cons] at h
        obtain ⟨b, hb, h⟩ := bind_eq_ok.mp h
        obtain ⟨bs', hbs', -⟩ := bind_eq_ok.mp h
        exact ⟨⟨b, hb⟩, bs', hbs'⟩
      · rintro ⟨⟨b, hb⟩, bs, hbs⟩
        refine ⟨b :: bs, ?_⟩
        rw [List.mapM_cons, hb, ok_bind, hbs]
        rfl

/-- A loop that does not fail keeps what each of its turns keeps, of the
state and of what is left to do. -/
theorem foldlM_invariant {σ : Type _} {f : σ → α → Except ε σ}
    {I : σ → List α → Prop}
    (hstep : ∀ s a l s', I s (a :: l) → f s a = .ok s' → I s' l) {s s' : σ}
    {l : List α} (hs : I s l) (h : l.foldlM f s = .ok s') : I s' [] := by
  induction l generalizing s with
  | nil =>
      rw [List.foldlM_nil, pure_eq_ok] at h
      exact h ▸ hs
  | cons a l ih =>
      rw [List.foldlM_cons] at h
      obtain ⟨mid, hmid, h⟩ := bind_eq_ok.mp h
      exact ih (hstep s a l mid hs hmid) h

section Guards

variable {p : Prop} [Decidable p] {e : ε} {x : Except ε Unit} {u : Unit}

/-- A step that raises where `p` holds. -/
def raiseIf (p : Prop) [Decidable p] (e : ε) : Except ε Unit :=
  if p then .error e else .ok ()

/-- A step that is made where `p` holds. -/
def runIf (p : Prop) [Decidable p] (x : Except ε Unit) : Except ε Unit :=
  if p then x else .ok ()

theorem raiseIf_eq_ok : raiseIf p e = .ok u ↔ ¬ p := by
  unfold raiseIf
  split
  · next hp => exact ⟨fun h => (nomatch h), fun h => absurd hp h⟩
  · next hp => exact ⟨fun _ => hp, fun _ => rfl⟩

theorem runIf_eq_ok : runIf p x = .ok u ↔ (p → x = .ok u) := by
  unfold runIf
  split
  · next hp => exact ⟨fun h _ => h, fun h => h hp⟩
  · next hp => exact ⟨fun _ h => absurd h hp, fun _ => rfl⟩

end Guards

section Settle

variable {σ : Type _} {s : σ} {x : Except ε σ} {I : σ → Prop} {P : Prop}

/-- The state after a request: a refused one leaves it. -/
def settle (s : σ) : Except ε σ → σ
  | .ok s' => s'
  | .error _ => s

@[simp] theorem settle_ok {s' : σ} : settle s (.ok s' : Except ε σ) = s' := rfl

@[simp] theorem settle_error {e : ε} : settle s (.error e) = s := rfl

theorem settle_of_forall (hs : I s) (h : ∀ s', x = .ok s' → I s') :
    I (settle s x) := by
  cases x with
  | error e => exact hs
  | ok s' => exact h s' rfl

/-- Where an accepted request keeps an invariant exactly under `P`. -/
theorem settle_iff (hs : I s) (h : ∀ s', x = .ok s' → (I s' ↔ P)) :
    I (settle s x) ↔ ∀ s', x = .ok s' → P := by
  cases x with
  | error e => exact iff_of_true hs fun _ heq => (nomatch heq)
  | ok s' =>
      exact (h s' rfl).trans ⟨fun hp _ _ => hp, fun hp => hp s' rfl⟩

end Settle

end PatentEvidence.Fallible
