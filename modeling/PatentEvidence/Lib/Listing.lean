/-
Rows in the order of a rank.

A query with an order returns its rows sorted by a rank, and rows of one
rank in any order: `Lists` relates the rows to every list it may return. A
row directly follows another in all of them exactly if no third row is
ranked between the two, peers included (`follows_iff`): a row in between
can be put there by breaking the ties in its favour (`lists_sortedWith`).
-/
import Mathlib.Data.List.Sort
import Mathlib.Data.Prod.Lex

namespace PatentEvidence

variable {α ρ τ : Type _} [LinearOrder ρ] [LinearOrder τ] {rank : α → ρ}
  {rows l : List α} {a b : α}

/-- `ORDER BY rank`: the rows in order, those of one rank in any. -/
structure Lists (rank : α → ρ) (rows l : List α) : Prop where
  perm : l.Perm rows
  sorted : l.Pairwise fun a b => rank a ≤ rank b

namespace Lists

-- ========================================================= breaking ties

/-- The rows sorted by their rank, and those of one rank by something
else. -/
def sortedWith (rank : α → ρ) (tie : α → τ) (rows : List α) : List α :=
  rows.insertionSort fun a b => toLex (rank a, tie a) ≤ toLex (rank b, tie b)

theorem pairwise_sortedWith (rank : α → ρ) (tie : α → τ) (rows : List α) :
    (sortedWith rank tie rows).Pairwise fun a b : α =>
      rank a < rank b ∨ rank a = rank b ∧ tie a ≤ tie b := by
  have : Std.Total fun a b : α => toLex (rank a, tie a) ≤ toLex (rank b, tie b) :=
    ⟨fun a b => le_total (toLex (rank a, tie a)) (toLex (rank b, tie b))⟩
  have : IsTrans α fun a b => toLex (rank a, tie a) ≤ toLex (rank b, tie b) :=
    ⟨fun _ _ _ => le_trans⟩
  exact (List.pairwise_insertionSort (fun a b : α => toLex (rank a, tie a)
    ≤ toLex (rank b, tie b)) rows).imp Prod.Lex.toLex_le_toLex.mp

theorem lists_sortedWith (rank : α → ρ) (tie : α → τ) (rows : List α) :
    Lists rank rows (sortedWith rank tie rows) where
  perm := List.perm_insertionSort ..
  sorted := (pairwise_sortedWith rank tie rows).imp fun h =>
    h.elim le_of_lt fun h => h.1.le

-- ======================================================== following rows

/-- A row directly follows another if no row is ranked between them. -/
theorem follows (h : Lists rank rows l) (hnodup : rows.Nodup) (ha : a ∈ rows)
    (hb : b ∈ rows) (hlt : rank a < rank b)
    (hbetween : ∀ g ∈ rows, g ≠ a → g ≠ b → rank g < rank a ∨ rank b < rank g) :
    ∃ before after, l = before ++ a :: b :: after := by
  have hal := h.perm.mem_iff.mpr ha
  have hbl := h.perm.mem_iff.mpr hb
  have hl := h.perm.nodup_iff.mpr hnodup
  have hrows (g : α) (hg : g ∈ l) := hbetween g (h.perm.mem_iff.mp hg)
  obtain ⟨before, rest, rfl⟩ := List.append_of_mem hal
  obtain ⟨-, hrest, hbefore⟩ := List.pairwise_append.mp h.sorted
  obtain ⟨hfirst, hrest⟩ := List.pairwise_cons.mp hrest
  have hmem : b ∈ rest := by
    rcases List.mem_append.mp hbl with hb | hb
    · exact absurd (hbefore b hb a (List.mem_cons_self ..)) (not_le.mpr hlt)
    · rcases List.mem_cons.mp hb with rfl | hb
      · exact absurd hlt (lt_irrefl _)
      · exact hb
  cases rest with
  | nil => cases hmem
  | cons g rest =>
      rcases List.mem_cons.mp hmem with rfl | hmem
      · exact ⟨before, rest, rfl⟩
      · -- `g` is ranked between the two
        have hnot := (List.pairwise_append.mp hl).2.1
        rw [List.pairwise_cons] at hnot
        have hga : a ≠ g := hnot.1 g (List.mem_cons_self ..)
        have hgb : g ≠ b := (List.pairwise_cons.mp hnot.2).1 b hmem
        have hag := hfirst g (List.mem_cons_self ..)
        have hgb' := (List.pairwise_cons.mp hrest).1 b hmem
        have hg := hrows g (List.mem_append_right _
          (List.mem_cons_of_mem _ (List.mem_cons_self ..))) hga.symm hgb
        rcases hg with hg | hg
        · exact absurd hag (not_le.mpr hg)
        · exact absurd hgb' (not_le.mpr hg)

/-- It follows in every list exactly then. -/
theorem follows_iff (hnodup : rows.Nodup) (ha : a ∈ rows) (hb : b ∈ rows)
    (hlt : rank a < rank b) :
    (∀ l, Lists rank rows l → ∃ before after, l = before ++ a :: b :: after)
      ↔ ∀ g ∈ rows, g ≠ a → g ≠ b → rank g < rank a ∨ rank b < rank g := by
  classical
  refine ⟨fun h g hg hga hgb => ?_,
    fun hbetween l hl => hl.follows hnodup ha hb hlt hbetween⟩
  by_contra hbetween
  rw [not_or, not_lt, not_lt] at hbetween
  -- among its peers `g` comes last behind `a` and first before `b`
  let tie (x : α) : Nat := if x = g then 1 else if x = b then 2 else 0
  have hta : tie a = 0 := by
    have hab : a ≠ b := fun hab => absurd hlt (hab ▸ lt_irrefl _)
    simp only [tie, if_neg hga.symm, if_neg hab]
  have htg : tie g = 1 := if_pos rfl
  have htb : tie b = 2 := by
    simp only [tie, if_neg hgb.symm, if_true]
  obtain ⟨before, after, heq⟩ := h _ (lists_sortedWith rank tie rows)
  have hmem : g ∈ sortedWith rank tie rows :=
    (lists_sortedWith rank tie rows).perm.mem_iff.mpr hg
  have hsorted := pairwise_sortedWith rank tie rows
  rw [heq] at hmem hsorted
  obtain ⟨-, hrest, hbefore⟩ := List.pairwise_append.mp hsorted
  rcases List.mem_append.mp hmem with hg | hg
  · rcases hbefore g hg a (List.mem_cons_self ..) with hlt | ⟨-, hle⟩
    · exact absurd hbetween.1 (not_le.mpr hlt)
    · omega
  · rcases List.mem_cons.mp hg with hg | hg
    · exact hga hg
    · rcases List.mem_cons.mp hg with hg | hg
      · exact hgb hg
      · have hrest := (List.pairwise_cons.mp hrest).2
        rcases (List.pairwise_cons.mp hrest).1 g hg with hlt | ⟨-, hle⟩
        · exact absurd hbetween.2 (not_le.mpr hlt)
        · omega

/-- One row in the place of two that follow each other. -/
theorem replace {c : α} {before after others rows' : List α}
    (h : Lists rank rows (before ++ a :: b :: after))
    (hrows : rows.Perm (a :: b :: others)) (hrows' : rows'.Perm (c :: others))
    (hrank : rank c = rank a) : Lists rank rows' (before ++ c :: after) where
  perm := by
    have hperm : (a :: b :: (before ++ after)).Perm (a :: b :: others) :=
      (List.perm_middle.trans
        (List.perm_middle.cons a)).symm.trans (h.perm.trans hrows)
    have hothers := hperm.cons_inv.cons_inv
    exact (List.perm_middle.trans (hothers.cons c)).trans hrows'.symm
  sorted := by
    obtain ⟨hbefore, hrest, hcross⟩ := List.pairwise_append.mp h.sorted
    obtain ⟨hfirst, hrest⟩ := List.pairwise_cons.mp hrest
    rw [List.pairwise_append, List.pairwise_cons]
    refine ⟨hbefore, ⟨fun x hx => ?_, (List.pairwise_cons.mp hrest).2⟩,
      fun x hx y hy => ?_⟩
    · rw [hrank]
      exact hfirst x (List.mem_cons_of_mem _ hx)
    · rcases List.mem_cons.mp hy with rfl | hy
      · rw [hrank]
        exact hcross x hx a (List.mem_cons_self ..)
      · exact hcross x hx y
          (List.mem_cons_of_mem _ (List.mem_cons_of_mem _ hy))

end Lists

end PatentEvidence
