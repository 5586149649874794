/-
Which clause a character of a US claim is in.

`labels` is the text of a claim in document order, each character with the
number of its clause: clauses are numbered as they open, and only a
`claim-text` directly in a clause opens one. It says nothing of positions or
of the order in which a builder is filled. `Represents` relates it to a
builder: the pieces of a clause are in order, and they cover the positions
of its characters and no others. Every step of the walk keeps this
(`represents_add`, `represents_openClause`), and so does the walk
(`represents_walk`).
-/
import PatentEvidence.Fto.UsClaims

namespace PatentEvidence.Fto.UsClaims

open Spans Text

-- ================================================================ labels

mutual

/-- The text inside an element. -/
def innerText : Element → List Char
  | .mk _ _ text children _ => text.toList ++ innerTextAll children

def innerTextAll : List Element → List Char
  | [] => []
  | child :: children =>
      innerText child ++ (child.tail.toList ++ innerTextAll children)

end

/-- A text in one clause. -/
def inClause (k : Nat) (cs : List Char) : List (Char × Nat) :=
  cs.map fun c => (c, k)

mutual

/-- The characters of an element in clause `k`, where the next clause to
open is `n`; and the next clause to open behind it. -/
def labels : Element → Nat → Nat → List (Char × Nat) × Nat
  | .mk _ _ text children _, k, n =>
      (inClause k text.toList ++ (labelsAll children k n).1,
        (labelsAll children k n).2)

def labelsAll : List Element → Nat → Nat → List (Char × Nat) × Nat
  | [], _, n => ([], n)
  | child :: children, k, n =>
      let inside :=
        if child.tag = "claim-text" then labels child n (n + 1)
        else (inClause k (innerText child), n)
      let rest := labelsAll children k inside.2
      (inside.1 ++ (inClause k child.tail.toList ++ rest.1), rest.2)

end

/-- The characters of the clauses at the top of a claim. -/
def labelsTops : List Element → Nat → List (Char × Nat) × Nat
  | [], n => ([], n)
  | top :: tops, n =>
      let first := labels top n (n + 1)
      let rest := labelsTops tops first.2
      (first.1 ++ rest.1, rest.2)

-- =============================================================== builders

/-- A builder that has read some characters into `n` clauses. -/
structure Represents (b : Builder) (l : List (Char × Nat)) (n : Nat) : Prop where
  text : (b.parts.map String.toList).flatten = l.map Prod.fst
  position : b.position = l.length
  length : b.clauses.length = n
  ordered : ∀ pieces ∈ b.clauses, Ordered 0 l.length pieces
  covers : ∀ k pieces, b.clauses[k]? = some pieces →
    ∀ i, Covers pieces i ↔ ∃ c, l[i]? = some (c, k)
  opened : ∀ p ∈ l, p.2 < n

section Builder

variable {b : Builder} {l : List (Char × Nat)} {k n : Nat}

/-- The pieces of a clause are in the text. -/
theorem Represents.inText {pieces : List (Nat × Nat)} (h : Represents b l n)
    (hk : b.clauses[k]? = some pieces) : Ordered 0 (l.map Prod.fst).length pieces := by
  rw [List.length_map]
  exact h.ordered pieces (List.mem_of_getElem? hk)

/-- The clause of a character. -/
theorem Represents.exists_clause {i : Nat} {c : Char} (h : Represents b l n)
    (hi : l[i]? = some (c, k)) :
    ∃ pieces, b.clauses[k]? = some pieces := by
  have hlt : k < n := h.opened _ (List.mem_of_getElem? hi)
  exact ⟨_, List.getElem?_eq_getElem (by rw [h.length]; exact hlt)⟩

/-- The clause of a character of the text. -/
theorem exists_label {i : Nat} {c : Char}
    (hi : (l.map Prod.fst)[i]? = some c) : ∃ k, l[i]? = some (c, k) := by
  rw [List.getElem?_map, Option.map_eq_some_iff] at hi
  obtain ⟨⟨d, k⟩, hd, rfl⟩ := hi
  exact ⟨k, hd⟩

theorem getElem?_text {i : Nat} {c : Char} (hi : l[i]? = some (c, k)) :
    (l.map Prod.fst)[i]? = some c := by
  rw [List.getElem?_map, hi, Option.map_some]

theorem represents_empty : Represents {} [] 0 where
  text := rfl
  position := rfl
  length := rfl
  ordered := fun _ h => by cases h
  covers := fun _ _ h => by cases h
  opened := fun _ h => by cases h

/-- A new clause has no characters yet. -/
theorem represents_openClause (h : Represents b l n) :
    Represents b.openClause l (n + 1) where
  text := h.text
  position := h.position
  length := by rw [Builder.openClause, List.length_append, h.length]; rfl
  ordered := by
    intro pieces hpieces
    rcases List.mem_append.mp hpieces with hpieces | hpieces
    · exact h.ordered pieces hpieces
    · rw [List.mem_singleton.mp hpieces]
      exact ordered_nil
  covers := by
    intro k pieces hk i
    rw [Builder.openClause, List.getElem?_append] at hk
    split at hk
    · exact h.covers k pieces hk i
    · next hge =>
        rw [h.length, not_lt] at hge
        have hnil : pieces = [] := by
          rw [List.getElem?_singleton] at hk
          split at hk
          · exact (Option.some.inj hk).symm
          · cases hk
        subst hnil
        refine iff_of_false ?_ ?_
        · rintro ⟨s, hs, -⟩
          cases hs
        · rintro ⟨c, hc⟩
          have hlt : k < n := h.opened _ (List.mem_of_getElem? hc)
          omega
  opened := fun p hp => Nat.lt_succ_of_lt (h.opened p hp)

/-- Text added to a clause. -/
theorem represents_add (h : Represents b l n) (hk : k < n) (text : String) :
    Represents (b.add text (some k)) (l ++ inClause k text.toList) n := by
  unfold Builder.add
  split
  · next hempty =>
      subst hempty
      rw [inClause, String.toList_empty, List.map_nil, List.append_nil]
      exact h
  · next hne =>
      have hlength : (l ++ inClause k text.toList).length
          = l.length + text.toList.length := by
        rw [List.length_append, inClause, List.length_map]
      have hpos : 0 < text.toList.length := by
        rw [List.length_pos_iff, ne_eq, String.toList_eq_nil_iff]
        exact hne
      have hget (i : Nat) (c : Char) (j : Nat) :
          (l ++ inClause k text.toList)[i]? = some (c, j)
            ↔ l[i]? = some (c, j)
              ∨ j = k ∧ l.length ≤ i ∧ text.toList[i - l.length]? = some c := by
        rw [List.getElem?_append]
        split
        · next hlt =>
            refine ⟨.inl, fun h => h.resolve_right fun h => ?_⟩
            omega
        · next hge =>
            rw [not_lt] at hge
            rw [List.getElem?_eq_none hge, inClause, List.getElem?_map,
              Option.map_eq_some_iff]
            constructor
            · rintro ⟨d, hd, heq⟩
              cases heq
              exact .inr ⟨rfl, hge, hd⟩
            · rintro (hnone | ⟨rfl, -, hd⟩)
              · cases hnone
              · exact ⟨c, hd, rfl⟩
      -- a piece is added to clause `k`
      have hclause (j : Nat) (pieces' : List (Nat × Nat))
          (hj : (b.clauses.modify k fun pieces =>
            pieces ++ [(b.position, b.position + text.toList.length)])[j]?
              = some pieces') :
          ∃ pieces, b.clauses[j]? = some pieces ∧ pieces' = if k = j then
            pieces ++ [(l.length, l.length + text.toList.length)] else pieces := by
        rw [List.getElem?_modify, Option.map_eq_map, Option.map_eq_some_iff] at hj
        obtain ⟨pieces, hpieces, rfl⟩ := hj
        rw [h.position]
        exact ⟨pieces, hpieces, rfl⟩
      refine ⟨?_, ?_, ?_, ?_, ?_, ?_⟩
      · rw [List.map_append, List.flatten_append, h.text, List.map_append]
        refine congrArg _ ?_
        rw [inClause, List.map_map, List.map_singleton, List.flatten_singleton]
        exact (List.map_id _).symm
      · rw [hlength]
        exact congrArg (· + _) h.position
      · rw [List.length_modify, h.length]
      · intro pieces' hpieces'
        obtain ⟨j, hj⟩ := List.mem_iff_getElem?.mp hpieces'
        obtain ⟨pieces, hpieces, rfl⟩ := hclause j pieces' hj
        have hordered := h.ordered pieces (List.mem_of_getElem? hpieces)
        rw [hlength]
        split
        · exact hordered.append (ordered_singleton (le_refl _) (by dsimp only; omega)
            (le_refl _)) (Nat.zero_le _) (Nat.le_add_right ..)
        · exact hordered.mono (le_refl _) (Nat.le_add_right ..)
      · intro j pieces' hj i
        obtain ⟨pieces, hpieces, rfl⟩ := hclause j pieces' hj
        simp only [hget]
        split
        · next hkj =>
            subst hkj
            rw [covers_append, covers_singleton, h.covers k pieces hpieces i]
            dsimp only
            rw [exists_or]
            refine or_congr_right ?_
            constructor
            · rintro ⟨hlow, hhigh⟩
              exact ⟨_, rfl, hlow, List.getElem?_eq_getElem (by omega)⟩
            · rintro ⟨c, -, hlow, hc⟩
              have hlt := (List.getElem?_eq_some_iff.mp hc).1
              omega
        · next hkj =>
            rw [h.covers j pieces hpieces i]
            refine exists_congr fun c => ?_
            rw [or_iff_left]
            exact fun hj => hkj hj.1.symm
      · intro p hp
        rcases List.mem_append.mp hp with hp | hp
        · exact h.opened p hp
        · obtain ⟨c, -, rfl⟩ := List.mem_map.mp hp
          exact hk

-- =============================================================== walking

theorem inClause_append (k : Nat) (cs ds : List Char) :
    inClause k (cs ++ ds) = inClause k cs ++ inClause k ds := List.map_append

mutual

/-- Everything inside other markup is added to the clause around it. -/
theorem represents_walkInline (node : Element) {b : Builder}
    {l : List (Char × Nat)} {k n : Nat} (h : Represents b l n) (hk : k < n) :
    Represents (b.walkInline node (some k)) (l ++ inClause k (innerText node)) n := by
  cases node with
  | mk tag attributes text children tail =>
      have hadd := represents_add h hk text
      have hall := represents_walkInlineAll children hadd hk
      rw [innerText, inClause_append, ← List.append_assoc]
      exact hall

theorem represents_walkInlineAll (children : List Element) {b : Builder}
    {l : List (Char × Nat)} {k n : Nat} (h : Represents b l n) (hk : k < n) :
    Represents (b.walkInlineAll children (some k))
      (l ++ inClause k (innerTextAll children)) n := by
  cases children with
  | nil =>
      rw [innerTextAll, inClause, List.map_nil, List.append_nil]
      exact h
  | cons child children =>
      have hchild := represents_walkInline child h hk
      have htail := represents_add hchild hk child.tail
      have hall := represents_walkInlineAll children htail hk
      rw [innerTextAll, inClause_append, inClause_append, ← List.append_assoc,
        ← List.append_assoc]
      exact hall

end

mutual

/-- The walk reads the characters of an element into their clauses. -/
theorem represents_walk (node : Element) {b : Builder} {l : List (Char × Nat)}
    {k n : Nat} (h : Represents b l n) (hk : k < n) :
    Represents (b.walk node (some k)) (l ++ (labels node k n).1) (labels node k n).2
      ∧ n ≤ (labels node k n).2 := by
  cases node with
  | mk tag attributes text children tail =>
      have hadd := represents_add h hk text
      have hall := represents_walkAll children hadd hk
      rw [labels]
      dsimp only
      rw [← List.append_assoc]
      exact hall

theorem represents_walkAll (children : List Element) {b : Builder}
    {l : List (Char × Nat)} {k n : Nat} (h : Represents b l n) (hk : k < n) :
    Represents (b.walkAll children (some k)) (l ++ (labelsAll children k n).1)
        (labelsAll children k n).2
      ∧ n ≤ (labelsAll children k n).2 := by
  cases children with
  | nil =>
      rw [labelsAll, List.append_nil]
      exact ⟨h, le_refl _⟩
  | cons child children =>
      rw [labelsAll, Builder.walkAll]
      dsimp only
      split
      · have hopen := represents_openClause h
        obtain ⟨hchild, hle⟩ := represents_walk child hopen (Nat.lt_succ_self n)
        have hk' : k < (labels child n (n + 1)).2 := by omega
        have htail := represents_add hchild hk' child.tail
        obtain ⟨hall, hle'⟩ := represents_walkAll children htail hk'
        rw [h.length, ← List.append_assoc, ← List.append_assoc]
        exact ⟨hall, by omega⟩
      · have hchild := represents_walkInline child h hk
        have htail := represents_add hchild hk child.tail
        obtain ⟨hall, hle⟩ := represents_walkAll children htail hk
        rw [← List.append_assoc, ← List.append_assoc]
        exact ⟨hall, hle⟩

end

/-- The clauses at the top. -/
theorem represents_walkTops (tops : List Element) :
    Represents (Builder.walkTops tops) (labelsTops tops 0).1 (labelsTops tops 0).2 := by
  have hrun {b : Builder} {l : List (Char × Nat)} {n : Nat} (h : Represents b l n) :
      Represents (tops.foldl (fun b top =>
          b.openClause.walk top (some b.clauses.length)) b)
        (l ++ (labelsTops tops n).1) (labelsTops tops n).2 := by
    induction tops generalizing b l n with
    | nil =>
        rw [labelsTops, List.append_nil]
        exact h
    | cons top tops ih =>
        have hopen := represents_openClause h
        obtain ⟨htop, -⟩ := represents_walk top hopen (Nat.lt_succ_self n)
        rw [labelsTops, List.foldl_cons, h.length]
        dsimp only
        rw [← List.append_assoc]
        exact ih htop
  exact hrun represents_empty

end Builder

end PatentEvidence.Fto.UsClaims
