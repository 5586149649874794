/-
Spans of a text: half-open intervals of positions, cut at bounds and
stripped of the white space at their ends.

`Ordered` says that spans stand one after the other between two positions,
`Covers` that a position is inside one of them. Cutting a text at ascending
bounds and stripping each piece keeps everything but white space
(`covers_pieces`), and in an ordered list a covered position has one span
(`Ordered.unique`).

# Sections

- ordered spans;
- one piece, stripped;
- pieces between bounds.
-/
import Mathlib.Data.List.Pairwise
import PatentEvidence.Lib.Text

namespace PatentEvidence.Spans

open Text

-- ========================================================= ordered spans

/-- One span ends before the other begins. -/
def Apart (s t : Nat × Nat) : Prop := s.2 ≤ t.1 ∨ t.2 ≤ s.1

instance : Std.Symm Apart := ⟨fun _ _ h => h.symm⟩

/-- Spans with something in them, one after the other. -/
structure Ordered (low high : Nat) (spans : List (Nat × Nat)) : Prop where
  inside : ∀ s ∈ spans, low ≤ s.1 ∧ s.1 < s.2 ∧ s.2 ≤ high
  ordered : spans.Pairwise fun s t => s.2 ≤ t.1

/-- A position is inside one of the spans. -/
def Covers (spans : List (Nat × Nat)) (i : Nat) : Prop :=
  ∃ s ∈ spans, s.1 ≤ i ∧ i < s.2

section Ordered

variable {low mid high i : Nat} {spans spans' : List (Nat × Nat)}

theorem ordered_nil : Ordered low high [] where
  inside := fun _ hs => nomatch hs
  ordered := .nil

theorem Ordered.mono {low' high' : Nat} (h : Ordered low high spans)
    (hlow : low' ≤ low) (hhigh : high ≤ high') : Ordered low' high' spans where
  inside := fun s hs => by
    have hin := h.inside s hs
    omega
  ordered := h.ordered

/-- Some of the spans. -/
theorem Ordered.sublist (h : Ordered low high spans)
    (hsub : spans'.Sublist spans) : Ordered low high spans' where
  inside := fun s hs => h.inside s (hsub.subset hs)
  ordered := h.ordered.sublist hsub

/-- Spans up to a position and spans from it on. -/
theorem Ordered.append (h : Ordered low mid spans)
    (h' : Ordered mid high spans') (hlow : low ≤ mid) (hhigh : mid ≤ high) :
    Ordered low high (spans ++ spans') where
  inside := by
    intro s hs
    rcases List.mem_append.mp hs with hs | hs
    · have hin := h.inside s hs
      omega
    · have hin := h'.inside s hs
      omega
  ordered := by
    rw [List.pairwise_append]
    refine ⟨h.ordered, h'.ordered, fun s hs t ht => ?_⟩
    have hin := h.inside s hs
    have hin' := h'.inside t ht
    omega

/-- Two spans of an ordered list with a position in common are one. -/
theorem Ordered.unique (h : Ordered low high spans) {s t : Nat × Nat}
    (hs : s ∈ spans) (ht : t ∈ spans) (his : s.1 ≤ i ∧ i < s.2)
    (hit : t.1 ≤ i ∧ i < t.2) : s = t := by
  by_contra hne
  have hapart : spans.Pairwise Apart := h.ordered.imp Or.inl
  have hst : s.2 ≤ t.1 ∨ t.2 ≤ s.1 := hapart.forall hs ht hne
  omega

/-- The spans behind the first. -/
theorem Ordered.tail {s : Nat × Nat} (h : Ordered low high (s :: spans)) :
    Ordered s.2 high spans where
  inside := fun t ht => by
    have hin := h.inside t (List.mem_cons_of_mem _ ht)
    have hst := (List.pairwise_cons.mp h.ordered).1 t ht
    omega
  ordered := (List.pairwise_cons.mp h.ordered).2

theorem ordered_singleton {s : Nat × Nat} (hlow : low ≤ s.1) (hlt : s.1 < s.2)
    (hhigh : s.2 ≤ high) : Ordered low high [s] where
  inside := by
    intro t ht
    rw [List.mem_singleton.mp ht]
    exact ⟨hlow, hlt, hhigh⟩
  ordered := List.pairwise_singleton ..

theorem covers_append :
    Covers (spans ++ spans') i ↔ Covers spans i ∨ Covers spans' i := by
  simp only [Covers, List.mem_append, or_and_right, exists_or]

/-- Of things of which no two contain a position, at most one does. -/
theorem existsUnique_of_pairwise {α : Type _} {l : List α} {holds : α → Prop}
    (h : l.Pairwise fun a b => ¬ (holds a ∧ holds b))
    (hex : ∃ a ∈ l, holds a) : ∃! a, a ∈ l ∧ holds a := by
  obtain ⟨a, ha, hholds⟩ := hex
  refine ⟨a, ⟨ha, hholds⟩, fun b hb => ?_⟩
  by_contra hne
  have : Std.Symm fun a b : α => ¬ (holds a ∧ holds b) :=
    ⟨fun _ _ h => fun hba => h hba.symm⟩
  exact h.forall hb.1 ha hne ⟨hb.2, hholds⟩

/-- Numbering the items of a list keeps what holds between them. -/
theorem pairwise_mapIdx {α β : Type _} {R : β → β → Prop} {f : Nat → α → β}
    {l : List α} (h : l.Pairwise fun a b => ∀ i j, R (f i a) (f j b)) :
    (l.mapIdx f).Pairwise R := by
  rw [List.pairwise_iff_getElem] at h ⊢
  intro i j hi hj hlt
  rw [List.length_mapIdx] at hi hj
  rw [List.getElem_mapIdx, List.getElem_mapIdx]
  exact h i j hi hj hlt i j

theorem mem_slice {text : List Char} {c : Char} {s : Nat × Nat}
    (hi : text[i]? = some c) (his : s.1 ≤ i ∧ i < s.2) :
    c ∈ slice text s.1 s.2 := by
  have hget : (slice text s.1 s.2)[i - s.1]? = some c := by
    rw [slice, List.getElem?_drop, Nat.add_sub_cancel' his.1,
      List.getElem?_take_of_lt his.2, hi]
  exact List.mem_of_getElem? hget

theorem covers_singleton {s : Nat × Nat} :
    Covers [s] i ↔ s.1 ≤ i ∧ i < s.2 := by
  simp only [Covers, List.mem_singleton, exists_eq_left]

end Ordered

-- =================================================== one piece, stripped

/-- What is left of a piece of a text between two bounds when the white
space at its ends is taken away. -/
def stripped (text : List Char) (bounds : Nat × Nat) : Option (Nat × Nat) :=
  let piece := slice text bounds.1 bounds.2
  let left := piece.length - (piece.dropWhile isSpace).length
  let right := (piece.rdropWhile isSpace).length
  if right ≤ left then none else some (bounds.1 + left, bounds.1 + right)

section Stripped

variable {text : List Char} {bounds s : Nat × Nat} {i : Nat} {c : Char}

theorem stripped_eq_some (h : stripped text bounds = some s) :
    bounds.1 ≤ s.1 ∧ s.1 < s.2
      ∧ s.2 ≤ bounds.1 + (slice text bounds.1 bounds.2).length := by
  unfold stripped at h
  dsimp only at h
  split at h
  · cases h
  · next hpos =>
      have hright := (List.rdropWhile_prefix isSpace
        (slice text bounds.1 bounds.2)).length_le
      cases h
      dsimp only
      omega

/-- The span of a piece is inside it, and inside the text. -/
theorem stripped_inside (h : stripped text bounds = some s) :
    bounds.1 ≤ s.1 ∧ s.1 < s.2 ∧ s.2 ≤ bounds.2 ∧ s.2 ≤ text.length := by
  have hspan := stripped_eq_some h
  rw [slice, List.length_drop, List.length_take] at hspan
  omega

/-- What is left of a piece is solid. -/
theorem solid_stripped (h : stripped text bounds = some s) :
    Solid (slice text s.1 s.2) := by
  have hin := stripped_eq_some h
  unfold stripped at h
  dsimp only at h
  split at h
  · cases h
  · next hpos =>
      rw [not_le] at hpos
      have hsolid := solid_slice_of_strips hpos
      have hright := (List.rdropWhile_prefix isSpace
        (slice text bounds.1 bounds.2)).length_le
      have hlength : (slice text bounds.1 bounds.2).length
          ≤ bounds.2 - bounds.1 := by
        rw [slice, List.length_drop, List.length_take]
        omega
      rw [slice_slice text (by omega)] at hsolid
      cases h
      exact hsolid

/-- It begins with a solid character. -/
theorem head_stripped (h : stripped text bounds = some s) :
    ∃ c, text[s.1]? = some c ∧ isSpace c = false := by
  obtain ⟨⟨c, hc, hspace⟩, -⟩ := solid_stripped h
  rw [slice, List.head?_drop, List.getElem?_take_of_lt (stripped_eq_some h).2.1] at hc
  exact ⟨c, hc, hspace⟩

/-- A solid character is behind what the left strip takes. -/
theorem left_le {cs : List Char} (hi : cs[i]? = some c)
    (hsolid : isSpace c = false) :
    cs.length - (cs.dropWhile isSpace).length ≤ i := by
  by_contra hlt
  have hle := (List.dropWhile_suffix isSpace (l := cs)).length_le
  have htake : (cs.takeWhile isSpace).length
      = cs.length - (cs.dropWhile isSpace).length := by
    have hsum := congrArg List.length (List.takeWhile_append_dropWhile
      (p := isSpace) (l := cs))
    rw [List.length_append] at hsum
    omega
  have hmem : c ∈ cs.takeWhile isSpace := by
    rw [← List.takeWhile_append_dropWhile (p := isSpace) (l := cs),
      List.getElem?_append_left (by omega)] at hi
    exact List.mem_of_getElem? hi
  have hspace := List.mem_takeWhile_imp hmem
  rw [hsolid] at hspace
  cases hspace

/-- And before what the right strip takes. -/
theorem lt_right {cs : List Char} (hi : cs[i]? = some c)
    (hsolid : isSpace c = false) : i < (cs.rdropWhile isSpace).length := by
  obtain ⟨hlt, rfl⟩ := List.getElem?_eq_some_iff.mp hi
  have hrev : cs.reverse[cs.length - 1 - i]? = some cs[i] := by
    rw [List.getElem?_reverse (by omega)]
    rw [show cs.length - 1 - (cs.length - 1 - i) = i by omega]
    exact List.getElem?_eq_getElem hlt
  have hleft := left_le hrev hsolid
  have hle := (List.dropWhile_suffix isSpace (l := cs.reverse)).length_le
  rw [List.length_reverse] at hleft hle
  rw [List.rdropWhile, List.length_reverse]
  omega

/-- No solid character of a piece is lost. -/
theorem covers_stripped (hlow : bounds.1 ≤ i) (hhigh : i < bounds.2)
    (hi : text[i]? = some c) (hsolid : isSpace c = false) :
    Covers (stripped text bounds).toList i := by
  have hpiece : (slice text bounds.1 bounds.2)[i - bounds.1]? = some c := by
    rw [slice, List.getElem?_drop, Nat.add_sub_cancel' hlow,
      List.getElem?_take_of_lt hhigh, hi]
  have hleft := left_le hpiece hsolid
  have hright := lt_right hpiece hsolid
  unfold stripped
  dsimp only
  rw [if_neg (by omega), Option.toList_some, covers_singleton]
  dsimp only
  omega

end Stripped

-- ================================================= pieces between bounds

section Pieces

variable {text : List Char} {bound high i : Nat} {bounds : List Nat} {c : Char}

theorem ordered_stripped (text : List Char) (start stop : Nat) :
    Ordered start stop (stripped text (start, stop)).toList where
  inside := fun s hs => by
    have hin := stripped_inside (Option.mem_toList.mp hs)
    omega
  ordered := by
    cases stripped text (start, stop) with
    | none => exact .nil
    | some s => exact List.pairwise_singleton ..

theorem filterMap_cons_toList {α β : Type _} (f : α → Option β) (a : α)
    (l : List α) : (a :: l).filterMap f = (f a).toList ++ l.filterMap f := by
  rw [List.filterMap_cons]
  cases f a with
  | none => rfl
  | some b => rfl

/-- The stripped pieces between ascending bounds. -/
theorem ordered_pieces (hsorted : (bound :: bounds).Pairwise (· ≤ ·))
    (hhigh : ∀ b ∈ bound :: bounds, b ≤ high) :
    Ordered bound high
      (((bound :: bounds).zip bounds).filterMap (stripped text)) := by
  induction bounds generalizing bound with
  | nil => exact ordered_nil
  | cons next rest ih =>
      obtain ⟨hfirst, hrest⟩ := List.pairwise_cons.mp hsorted
      obtain ⟨-, hbounds⟩ := List.forall_mem_cons.mp hhigh
      have hle : bound ≤ next := hfirst next (List.mem_cons_self ..)
      have hnext : next ≤ high := hbounds next (List.mem_cons_self ..)
      rw [List.zip_cons_cons, filterMap_cons_toList]
      exact (ordered_stripped text bound next).append (ih hrest hbounds) hle
        hnext

/-- Every solid character between the first bound and the last is in the
span of a piece. -/
theorem covers_pieces (hlow : bound ≤ i) (hlast : ∃ b ∈ bounds, i < b)
    (hi : text[i]? = some c) (hsolid : isSpace c = false) :
    Covers (((bound :: bounds).zip bounds).filterMap (stripped text)) i := by
  induction bounds generalizing bound with
  | nil =>
      obtain ⟨b, hb, -⟩ := hlast
      cases hb
  | cons next rest ih =>
      rw [List.zip_cons_cons, filterMap_cons_toList,
        covers_append]
      by_cases hnext : i < next
      · exact .inl (@covers_stripped text (bound, next) i c hlow hnext hi hsolid)
      · right
        refine ih (by omega) ?_
        obtain ⟨b, hb, hlt⟩ := hlast
        rcases List.mem_cons.mp hb with rfl | hb
        · exact absurd hlt hnext
        · exact ⟨b, hb, hlt⟩

end Pieces

end PatentEvidence.Spans
