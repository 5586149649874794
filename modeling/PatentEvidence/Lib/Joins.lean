/-
Loops that are watched through a join.

A loop keeps a state, and what is asked of the state is a value in an order
with joins and a least value. If each turn joins that value with what the
turn's element marks (`Marks`), the whole loop joins it with all the marks
(`Marks.foldl`). Joined marks depend on which elements there are and on
neither their order nor their number (`joined_congr`), and one element more
adds its mark, wherever it stands (`joined_insert`). A dictionary that keeps
the highest entry of each key is such a state (`keepHighest_facts`). Where the
marks are in a linear order and may be missing, the join is the greatest
mark there is (`joined_eq_coe_iff`).
-/
import Mathlib.Data.Multiset.Lattice
import Mathlib.Order.Bounds.Basic
import Mathlib.Order.Lattice
import Mathlib.Order.WithBot
import PatentEvidence.Lib.Dict

namespace PatentEvidence.Joins

variable {σ ε β γ : Type _}

section Join

variable [SemilatticeSup β] [OrderBot β] [SemilatticeSup γ] [OrderBot γ]
  {mark : ε → β} {l l' : List ε}

/-- The marks of some elements, joined. -/
def joined (mark : ε → β) (l : List ε) : β :=
  (l.map mark : Multiset β).sup

@[simp] theorem joined_nil (mark : ε → β) : joined mark [] = ⊥ := rfl

@[simp] theorem joined_cons (mark : ε → β) (e : ε) (l : List ε) :
    joined mark (e :: l) = mark e ⊔ joined mark l := by
  rw [joined, List.map_cons, ← Multiset.cons_coe, Multiset.sup_cons]
  rfl

theorem joined_le_iff {bound : β} :
    joined mark l ≤ bound ↔ ∀ e ∈ l, mark e ≤ bound := by
  rw [joined, Multiset.sup_le]
  exact List.forall_mem_map

theorem le_joined (mark : ε → β) {e : ε} (he : e ∈ l) :
    mark e ≤ joined mark l :=
  joined_le_iff.mp (le_refl _) e he

theorem joined_mono (h : ∀ e ∈ l, e ∈ l') : joined mark l ≤ joined mark l' :=
  joined_le_iff.mpr fun e he => le_joined mark (h e he)

/-- Only which elements there are counts. -/
theorem joined_congr (h : ∀ e, e ∈ l ↔ e ∈ l') :
    joined mark l = joined mark l' :=
  le_antisymm (joined_mono fun e he => (h e).mp he)
    (joined_mono fun e he => (h e).mpr he)

/-- One element more adds its mark, wherever it stands. -/
theorem joined_insert (mark : ε → β) (before after : List ε) (e : ε) :
    joined mark (before ++ e :: after)
      = mark e ⊔ joined mark (before ++ after) := by
  rw [← joined_cons]
  refine joined_congr fun e' => ?_
  rw [List.mem_append, List.mem_cons, List.mem_cons, List.mem_append]
  exact or_left_comm

theorem joined_fst (mark : ε → β × γ) (l : List ε) :
    (joined mark l).1 = joined (fun e => (mark e).1) l := by
  induction l with
  | nil => rfl
  | cons e l ih => rw [joined_cons, joined_cons, Prod.fst_sup, ih]

theorem joined_snd (mark : ε → β × γ) (l : List ε) :
    (joined mark l).2 = joined (fun e => (mark e).2) l := by
  induction l with
  | nil => rfl
  | cons e l ih => rw [joined_cons, joined_cons, Prod.snd_sup, ih]

/-- Each turn of a loop joins what is observed of its state with the mark
of the turn's element. -/
def Marks (observe : σ → β) (step : σ → ε → σ) (mark : ε → β) : Prop :=
  ∀ s e, observe (step s e) = observe s ⊔ mark e

/-- The whole loop joins it with all the marks. -/
theorem Marks.foldl {observe : σ → β} {step : σ → ε → σ}
    (h : Marks observe step mark) (s : σ) (l : List ε) :
    observe (l.foldl step s) = observe s ⊔ joined mark l := by
  induction l generalizing s with
  | nil => exact (sup_bot_eq _).symm
  | cons e l ih => rw [List.foldl_cons, ih, h s e, joined_cons, sup_assoc]

end Join

section Highest

variable {κ ν : Type _} [DecidableEq κ] [SemilatticeSup β] [OrderBot β]

/-- An entry that takes the place of the one before only where it is new. -/
def keepHighest (newer : Bool) (d : Dict κ ν) (k : κ) (v : ν) : Dict κ ν :=
  if newer then d.set k v else d

/-- What is newer ranks at least as high as the entry there, and what is not
at most as high: so there is an entry where there was one and at the key, and
the rank of the entry kept is the join of the two. -/
theorem keepHighest_facts (rank : ν → β) (none v : ν) {newer : Bool} {d : Dict κ ν}
    {k : κ} (hnew : newer = true → rank (d.getD k none) ≤ rank v)
    (hold : newer = false →
      (d.get? k).isSome = true ∧ rank v ≤ rank (d.getD k none)) (k₀ : κ) :
    ((keepHighest newer d k v).get? k₀).isSome
        = ((d.get? k₀).isSome || decide (k = k₀))
      ∧ rank ((keepHighest newer d k v).getD k₀ none)
        = rank (d.getD k₀ none) ⊔ if k = k₀ then rank v else ⊥ := by
  by_cases hk : k = k₀
  · subst hk
    rw [decide_eq_true rfl, Bool.or_true, if_pos rfl]
    cases newer with
    | true =>
        rw [keepHighest, if_pos rfl, Dict.getD, Dict.get?_set_self]
        exact ⟨rfl, (sup_eq_right.mpr (hnew rfl)).symm⟩
    | false => exact ⟨(hold rfl).1, (sup_eq_left.mpr (hold rfl).2).symm⟩
  · rw [decide_eq_false hk, Bool.or_false, if_neg hk, sup_bot_eq]
    cases newer with
    | true =>
        rw [keepHighest, if_pos rfl, Dict.getD,
          Dict.get?_set_of_ne _ _ (Ne.symm hk)]
        exact ⟨rfl, rfl⟩
    | false => exact ⟨rfl, rfl⟩

end Highest

section Linear

variable [LinearOrder β] [OrderBot β]

/-- In a linear order the joined marks are the highest of them. -/
theorem joined_eq_mark (mark : ε → β) (l : List ε) :
    joined mark l = ⊥ ∨ ∃ e ∈ l, joined mark l = mark e := by
  induction l with
  | nil => exact .inl rfl
  | cons e l ih =>
      rw [joined_cons]
      rcases le_total (joined mark l) (mark e) with hle | hle
      · exact .inr ⟨e, List.mem_cons_self .., sup_eq_left.mpr hle⟩
      · rw [sup_eq_right.mpr hle]
        rcases ih with hbot | ⟨e', he', heq⟩
        · exact .inl hbot
        · exact .inr ⟨e', List.mem_cons_of_mem _ he', heq⟩

end Linear

section Dated

variable {ρ : Type _} [LinearOrder ρ] {mark : ε → WithBot ρ} {l : List ε} {x : ρ}

/-- Marks that may be missing are joined to the greatest there is. -/
theorem joined_eq_coe_iff :
    joined mark l = (x : WithBot ρ)
      ↔ IsGreatest { y : ρ | ∃ e ∈ l, mark e = (y : WithBot ρ) } x := by
  constructor
  · intro h
    refine ⟨?_, ?_⟩
    · rcases joined_eq_mark mark l with hbot | ⟨e, he, heq⟩
      · exact absurd (hbot.symm.trans h) WithBot.bot_ne_coe
      · exact ⟨e, he, heq.symm.trans h⟩
    · rintro y ⟨e, he, hy⟩
      have hle := le_joined mark he
      rw [hy, h] at hle
      exact WithBot.coe_le_coe.mp hle
  · rintro ⟨⟨e, he, heq⟩, hupper⟩
    refine le_antisymm (joined_le_iff.mpr fun e' he' => ?_) (heq ▸ le_joined mark he)
    cases hmark : mark e' with
    | bot => exact bot_le
    | coe y => exact WithBot.coe_le_coe.mpr (hupper ⟨e', he', hmark⟩)

theorem joined_lt_coe_iff : joined mark l < (x : WithBot ρ)
    ↔ ∀ e ∈ l, ∀ y : ρ, mark e = (y : WithBot ρ) → y < x := by
  constructor
  · intro h e he y hy
    have hle := le_joined mark he
    rw [hy] at hle
    exact WithBot.coe_lt_coe.mp (lt_of_le_of_lt hle h)
  · intro h
    rcases joined_eq_mark mark l with hbot | ⟨e, he, heq⟩
    · rw [hbot]
      exact WithBot.bot_lt_coe x
    · rw [heq]
      cases hmark : mark e with
      | bot => exact WithBot.bot_lt_coe x
      | coe y => exact WithBot.coe_lt_coe.mpr (h e he y hmark)

end Dated

end PatentEvidence.Joins
