/-
Lists read as sets, groups and rankings, the way comprehensions over an
insertion-ordered language read them.

`groupBy` is the `setdefault(key, []).append(item)` loop; `get?_groupBy`
says what it leaves under a key. `firstBy` is `min(items, key=…)`, which
answers the first item of the least rank.
-/
import Mathlib.Data.List.Dedup
import Mathlib.Data.List.Induction
import Mathlib.Data.List.Sort
import Mathlib.Order.Bounds.Basic
import Mathlib.Order.MinMax
import PatentEvidence.Lib.Dict

namespace PatentEvidence.Grouping

variable {α κ : Type _}

-- ============================================================= groups

section Groups

variable [DecidableEq κ]

/-- Group a list by a key: one entry per key, in order of first
appearance, holding its items in list order. -/
def groupBy (key : α → κ) (l : List α) : Dict κ (List α) :=
  l.foldl (fun groups a => groups.set (key a) (groups.getD (key a) [] ++ [a]))
    .empty

/-- The group of a key is the items bearing it; a key nothing bears has
no group. -/
theorem get?_groupBy (key : α → κ) (l : List α) (k : κ) :
    (groupBy key l).get? k
      = if k ∈ l.map key then some (l.filter fun a => key a = k)
        else none := by
  induction l using List.reverseRecOn with
  | nil => rfl
  | append_singleton l a ih =>
      have hstep : groupBy key (l ++ [a]) = (groupBy key l).set (key a)
          ((groupBy key l).getD (key a) [] ++ [a]) := by
        rw [groupBy, List.foldl_append]
        rfl
      rw [hstep, Dict.get?_set]
      by_cases hk : k = key a
      · subst hk
        rw [if_pos rfl, if_pos (by simp), Dict.getD, ih, List.filter_append]
        by_cases hin : key a ∈ l.map key
        · rw [if_pos hin]
          simp
        · rw [if_neg hin]
          have hnone : l.filter (fun b => key b = key a) = [] := by
            rw [List.filter_eq_nil_iff]
            intro b hb heq
            exact hin (List.mem_map.mpr ⟨b, hb, by simpa using heq⟩)
          simp [hnone]
      · have hne : ¬ key a = k := fun h => hk h.symm
        rw [if_neg hk, ih, List.filter_append]
        simp [hk, hne]

theorem mem_keys_groupBy {key : α → κ} {l : List α} {k : κ} :
    k ∈ (groupBy key l).keys ↔ k ∈ l.map key := by
  rw [← not_iff_not, ← Dict.get?_eq_none_iff, get?_groupBy]
  split <;> simp_all

/-- The distinct items of a list, in order of first appearance. -/
def firsts (l : List κ) : List κ := (groupBy id l).keys

theorem keys_groupBy_append (key : α → κ) (l : List α) (a : α) :
    (groupBy key (l ++ [a])).keys
      = if key a ∈ (groupBy key l).keys then (groupBy key l).keys
        else (groupBy key l).keys ++ [key a] := by
  rw [groupBy, List.foldl_append]
  exact Dict.keys_set ..

/-- The keys of a grouping are the distinct keys of the list. -/
theorem keys_groupBy (key : α → κ) (l : List α) :
    (groupBy key l).keys = firsts (l.map key) := by
  induction l using List.reverseRecOn with
  | nil => rfl
  | append_singleton l a ih =>
      rw [keys_groupBy_append, List.map_append, List.map_singleton, firsts,
        keys_groupBy_append, ih]
      rfl

theorem mem_firsts {l : List κ} {k : κ} : k ∈ firsts l ↔ k ∈ l := by
  rw [firsts, mem_keys_groupBy, List.map_id]

theorem nodup_firsts (l : List κ) : (firsts l).Nodup := (groupBy id l).nodup

theorem firsts_append_singleton (l : List κ) (k : κ) :
    firsts (l ++ [k]) = if k ∈ l then firsts l else firsts l ++ [k] := by
  rw [firsts, keys_groupBy_append]
  exact if_congr mem_firsts rfl rfl

/-- Of items in order of their rank, one that bears an earlier key has the
least rank among those that bear a later one. -/
theorem pairwise_firsts {ρ : Type _} [Preorder ρ] {l : List (κ × ρ)}
    (h : l.Pairwise fun p q => p.2 ≤ q.2) :
    (firsts (l.map Prod.fst)).Pairwise fun k k' =>
      ∀ q ∈ l, q.1 = k' → ∃ p ∈ l, p.1 = k ∧ p.2 ≤ q.2 := by
  induction l using List.reverseRecOn with
  | nil => exact List.Pairwise.nil
  | append_singleton l a ih =>
      obtain ⟨hl, -, hlast⟩ := List.pairwise_append.mp h
      have hle : ∀ p ∈ l, p.2 ≤ a.2 := fun p hp =>
        hlast p hp a (List.mem_singleton_self a)
      -- a key of before is borne by an item of before
      have hborne {k : κ} (hk : k ∈ firsts (l.map Prod.fst)) :
          ∃ p ∈ l ++ [a], p.1 = k ∧ p.2 ≤ a.2 := by
        obtain ⟨p, hp, rfl⟩ := List.mem_map.mp (mem_firsts.mp hk)
        exact ⟨p, List.mem_append_left _ hp, rfl, hle p hp⟩
      have hold : (firsts (l.map Prod.fst)).Pairwise fun k k' =>
          ∀ q ∈ l ++ [a], q.1 = k' → ∃ p ∈ l ++ [a], p.1 = k ∧ p.2 ≤ q.2 := by
        refine (ih hl).imp_of_mem fun hk _ hbefore q hq hkey => ?_
        rcases List.mem_append.mp hq with hq | hq
        · obtain ⟨p, hp, hpk, hrank⟩ := hbefore q hq hkey
          exact ⟨p, List.mem_append_left _ hp, hpk, hrank⟩
        · rw [List.mem_singleton.mp hq]
          exact hborne hk
      rw [List.map_append, List.map_singleton, firsts_append_singleton]
      split
      · exact hold
      · next hnew =>
          refine List.pairwise_append.mpr ⟨hold, List.pairwise_singleton .., ?_⟩
          intro k hk k' hk' q hq hkey
          rcases List.mem_append.mp hq with hq | hq
          · rw [List.mem_singleton.mp hk'] at hkey
            exact absurd (hkey ▸ List.mem_map_of_mem hq) hnew
          · rw [List.mem_singleton.mp hq]
            exact hborne hk

/-- An entry of the grouping: a key that occurs, with its items. -/
theorem mem_entries_groupBy {key : α → κ} {l : List α} {e : κ × List α} :
    e ∈ (groupBy key l).entries
      ↔ e.1 ∈ l.map key ∧ e.2 = l.filter fun a => key a = e.1 := by
  obtain ⟨k, group⟩ := e
  rw [Dict.mem_entries_iff, get?_groupBy]
  constructor
  · intro h
    split at h
    · next hk => exact ⟨hk, (Option.some.inj h).symm⟩
    · cases h
  · intro ⟨hk, hgroup⟩
    rw [if_pos hk]
    exact congrArg some hgroup.symm

end Groups

-- ============================================================ leading

/-- Each of the first `n` items comes before every item behind it. -/
def Leads (before : α → α → Prop) : Nat → List α → Prop
  | 0, _ => True
  | _ + 1, [] => True
  | n + 1, a :: l => (∀ b ∈ l, before a b) ∧ Leads before n l

instance Leads.decidable (before : α → α → Prop) [DecidableRel before] :
    (n : Nat) → (l : List α) → Decidable (Leads before n l)
  | 0, _ => .isTrue trivial
  | _ + 1, [] => .isTrue trivial
  | n + 1, a :: l =>
      have := Leads.decidable before n l
      inferInstanceAs (Decidable ((∀ b ∈ l, before a b) ∧ Leads before n l))

theorem leads_length {before : α → α → Prop} {l : List α}
    (h : l.Pairwise before) : Leads before l.length l := by
  induction l with
  | nil => trivial
  | cons a l ih =>
      obtain ⟨hfirst, hrest⟩ := List.pairwise_cons.mp h
      exact ⟨hfirst, ih hrest⟩

/-- The items that lead are the first ones in every order that has no item
behind one it comes before. -/
theorem take_eq_of_leads {before : α → α → Prop} {n : Nat} {l l' : List α}
    (hperm : l'.Perm l) (h : Leads before n l)
    (h' : l'.Pairwise fun a b => ¬ before b a) : l'.take n = l.take n := by
  induction n generalizing l l' with
  | zero => rfl
  | succ n ih =>
      cases l with
      | nil => rw [List.perm_nil.mp hperm]
      | cons a l =>
          cases l' with
          | nil => exact absurd (List.nil_perm.mp hperm) (List.cons_ne_nil a l)
          | cons b l' =>
              obtain ⟨hfirst, hrest⟩ := List.pairwise_cons.mp h'
              have heq : b = a := by
                by_contra hne
                have ha : a ∈ l' := (List.mem_cons.mp
                  (hperm.mem_iff.mpr List.mem_cons_self)).resolve_left (Ne.symm hne)
                have hb : b ∈ l := (List.mem_cons.mp
                  (hperm.mem_iff.mp List.mem_cons_self)).resolve_left hne
                exact hfirst a ha (h.1 b hb)
              subst heq
              rw [List.take_succ_cons, List.take_succ_cons,
                ih (List.Perm.cons_inv hperm) h.2 hrest]

-- ============================================================= ranking

section Ranking

variable {ρ : Type _} [LinearOrder ρ]

/-- `min(items, key=rank)` on a non-empty list: the first item of the
least rank. -/
def firstBy (rank : α → ρ) : α → List α → α
  | best, [] => best
  | best, a :: rest => firstBy rank (if rank a < rank best then a else best) rest

theorem firstBy_mem (rank : α → ρ) (best : α) (l : List α) :
    firstBy rank best l ∈ best :: l := by
  induction l generalizing best with
  | nil => exact List.mem_singleton.mpr rfl
  | cons a l ih =>
      rw [firstBy]
      have h := ih (if rank a < rank best then a else best)
      rw [List.mem_cons] at h
      rcases h with h | h
      · rw [h]
        split <;> simp
      · simp [h]

theorem rank_firstBy_le (rank : α → ρ) (best : α) (l : List α) :
    ∀ a ∈ best :: l, rank (firstBy rank best l) ≤ rank a := by
  induction l generalizing best with
  | nil => simp [firstBy]
  | cons b l ih =>
      rw [firstBy]
      intro a ha
      have h := ih (if rank b < rank best then b else best)
      have hhead := h _ (List.mem_cons_self ..)
      rcases List.mem_cons.mp ha with rfl | ha
      · refine hhead.trans ?_
        split
        · next hlt => exact hlt.le
        · exact le_refl _
      · rcases List.mem_cons.mp ha with rfl | ha
        · refine hhead.trans ?_
          split
          · exact le_refl _
          · next hnot => exact not_lt.mp hnot
        · exact h a (List.mem_cons_of_mem _ ha)

/-- The least of some items is what lies above every bound of them. -/
theorem le_foldl_min_iff {l : List ρ} {bound first : ρ} :
    bound ≤ l.foldl min first ↔ bound ≤ first ∧ ∀ a ∈ l, bound ≤ a := by
  induction l generalizing first with
  | nil => simp
  | cons a l ih =>
      rw [List.foldl_cons, ih, le_min_iff, List.forall_mem_cons, and_assoc]

/-- It is one of them. -/
theorem foldl_min_mem (l : List ρ) (first : ρ) :
    l.foldl min first ∈ first :: l := by
  induction l generalizing first with
  | nil => exact List.mem_singleton.mpr rfl
  | cons a l ih =>
      rw [List.foldl_cons]
      rcases List.mem_cons.mp (ih (min first a)) with h | h
      · rw [h]
        rcases min_choice first a with hmin | hmin <;> simp [hmin]
      · exact List.mem_cons_of_mem _ (List.mem_cons_of_mem _ h)

/-- What lies above the bounds of some items only is the least of them. -/
theorem isLeast_of_le_iff {first least : ρ} {l : List ρ}
    (h : ∀ bound, bound ≤ least ↔ bound ≤ first ∧ ∀ a ∈ l, bound ≤ a) :
    IsLeast { a | a ∈ first :: l } least := by
  have heq : least = l.foldl min first :=
    eq_of_forall_le_iff fun bound => (h bound).trans le_foldl_min_iff.symm
  constructor
  · rw [heq]
    exact foldl_min_mem l first
  · intro a ha
    obtain ⟨hfirst, hrest⟩ := (h least).mp (le_refl least)
    rcases List.mem_cons.mp ha with rfl | ha
    · exact hfirst
    · exact hrest a ha

/-- The more items, the less the least of them. -/
theorem foldl_min_anti {l l' : List ρ} (h : ∀ a ∈ l, a ∈ l') (first : ρ) :
    l'.foldl min first ≤ l.foldl min first := by
  obtain ⟨hfirst, hmem⟩ := le_foldl_min_iff.mp (le_refl (l'.foldl min first))
  exact le_foldl_min_iff.mpr ⟨hfirst, fun a ha => hmem a (h a ha)⟩

/-- Distinct items in ascending order. -/
theorem pairwise_lt_insertionSort {l : List ρ} (h : l.Nodup) :
    (l.insertionSort (· ≤ ·)).Pairwise (· < ·) := by
  have hle := List.pairwise_insertionSort (· ≤ ·) l
  have hne : (l.insertionSort (· ≤ ·)).Nodup :=
    (List.perm_insertionSort (· ≤ ·) l).nodup_iff.mpr h
  exact (hle.and hne).imp fun h => lt_of_le_of_ne h.1 h.2

/-- `sorted(set(items))` depends on which items there are. -/
theorem insertionSort_dedup_congr {l l' : List ρ} (h : ∀ a, a ∈ l ↔ a ∈ l') :
    l.dedup.insertionSort (· ≤ ·) = l'.dedup.insertionSort (· ≤ ·) := by
  refine (pairwise_lt_insertionSort (List.nodup_dedup l)).eq_of_mem_iff
    (pairwise_lt_insertionSort (List.nodup_dedup l')) fun a => ?_
  rw [List.mem_insertionSort, List.mem_insertionSort, List.mem_dedup,
    List.mem_dedup]
  exact h a

end Ranking

-- =============================================================== pairs

/-- `combinations(items, 2)`. -/
def pairs : List α → List (α × α)
  | [] => []
  | a :: l => l.map (fun b => (a, b)) ++ pairs l

/-- On an ascending list the pairs are the ascending ones. -/
theorem mem_pairs_iff [LinearOrder α] {l : List α} (h : l.Pairwise (· < ·))
    {a b : α} : (a, b) ∈ pairs l ↔ a ∈ l ∧ b ∈ l ∧ a < b := by
  induction l with
  | nil => simp [pairs]
  | cons c l ih =>
      rw [List.pairwise_cons] at h
      obtain ⟨hc, hl⟩ := h
      rw [pairs, List.mem_append, List.mem_map, ih hl]
      constructor
      · rintro (⟨b', hb', heq⟩ | ⟨ha, hb, hlt⟩)
        · cases heq
          exact ⟨List.mem_cons_self .., List.mem_cons_of_mem _ hb', hc b hb'⟩
        · exact ⟨List.mem_cons_of_mem _ ha, List.mem_cons_of_mem _ hb, hlt⟩
      · rintro ⟨ha, hb, hlt⟩
        rcases List.mem_cons.mp ha with rfl | ha'
        · rcases List.mem_cons.mp hb with rfl | hb'
          · exact absurd hlt (lt_irrefl _)
          · exact Or.inl ⟨b, hb', rfl⟩
        · rcases List.mem_cons.mp hb with rfl | hb'
          · exact absurd (hlt.trans (hc a ha')) (lt_irrefl _)
          · exact Or.inr ⟨ha', hb', hlt⟩

/-- No pair comes twice. -/
theorem nodup_pairs [LinearOrder α] {l : List α} (h : l.Pairwise (· < ·)) :
    (pairs l).Nodup := by
  induction l with
  | nil => exact List.nodup_nil
  | cons a l ih =>
      rw [List.pairwise_cons] at h
      rw [pairs, List.nodup_append]
      refine ⟨?_, ih h.2, ?_⟩
      · have hnodup : l.Nodup := h.2.imp fun h => ne_of_lt h
        exact hnodup.map fun b c hbc => (Prod.mk.inj hbc).2
      · rintro p hp q hq rfl
        obtain ⟨b, -, rfl⟩ := List.mem_map.mp hp
        exact absurd (h.1 a ((mem_pairs_iff h.2).mp hq).1) (lt_irrefl _)

end PatentEvidence.Grouping
