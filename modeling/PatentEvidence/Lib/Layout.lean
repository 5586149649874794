/-
Texts laid out one after the other, with one character between them.

`spans start` is where the texts stand if the first begins at `start`, and
`next` is where one more would. Adding a text at the end adds its span at
`next` and leaves the others (`spans_concat`), which is how a position that
is advanced by hand is kept in step.

What stands there is said of the texts joined by a separator, behind
anything: every span reads its text (`read_spans`), and between two spans is
one separator (`separated_spans`). With `head_spans` and `getLast_spans`
the spans and the separators are all of the joined text.
-/
import Mathlib.Data.List.Chain
import Mathlib.Data.List.Forall2
import PatentEvidence.Lib.Text

namespace PatentEvidence.Layout

open Text

-- ============================================================ positions

def spans (start : Nat) : List (List Char) → List (Nat × Nat)
  | [] => []
  | text :: texts =>
      (start, start + text.length) :: spans (start + text.length + 1) texts

def next (start : Nat) : List (List Char) → Nat
  | [] => start
  | text :: texts => next (start + text.length + 1) texts

theorem next_concat (start : Nat) (texts : List (List Char)) (text : List Char) :
    next start (texts ++ [text]) = next start texts + text.length + 1 := by
  induction texts generalizing start with
  | nil => rfl
  | cons first texts ih => exact ih (start + first.length + 1)

theorem spans_concat (start : Nat) (texts : List (List Char)) (text : List Char) :
    spans start (texts ++ [text])
      = spans start texts
        ++ [(next start texts, next start texts + text.length)] := by
  induction texts generalizing start with
  | nil => simp [spans, next]
  | cons first texts ih => simp [spans, ih, next]

-- ============================================================= the text

section Joined

variable (sep : Char)

theorem joined_cons (text : List Char) {texts : List (List Char)}
    (h : texts ≠ []) :
    [sep].intercalate (text :: texts)
      = text ++ sep :: [sep].intercalate texts := by
  cases texts with
  | nil => exact absurd rfl h
  | cons next texts => simp [List.intercalate_cons_cons]

theorem slice_between (before text after : List Char) :
    slice (before ++ (text ++ after)) before.length
      (before.length + text.length) = text := by
  unfold slice
  rw [List.take_length_add_append, List.drop_left, List.take_left]

/-- Texts but the first stand behind it and a separator. -/
theorem behind_first (before text : List Char) {texts : List (List Char)}
    (h : texts ≠ []) :
    before ++ [sep].intercalate (text :: texts)
      = (before ++ text ++ [sep]) ++ [sep].intercalate texts := by
  rw [joined_cons sep text h]
  simp

theorem length_behind (before text : List Char) :
    (before ++ text ++ [sep]).length = before.length + text.length + 1 := by
  rw [List.length_append, List.length_append, List.length_singleton]

/-- Every span reads its text, … -/
theorem read_spans (before : List Char) (texts : List (List Char)) :
    List.Forall₂
      (fun span text => span.1 ≤ span.2
        ∧ slice (before ++ [sep].intercalate texts) span.1 span.2 = text)
      (spans before.length texts) texts := by
  induction texts generalizing before with
  | nil => exact .nil
  | cons text texts ih =>
      refine .cons ⟨Nat.le_add_right .., ?_⟩ ?_
      · by_cases h : texts = []
        · subst h
          simpa using slice_between before text []
        · rw [joined_cons sep text h]
          exact slice_between before text _
      · by_cases h : texts = []
        · subst h
          exact .nil
        · have hrest := ih (before ++ text ++ [sep])
          rw [length_behind, ← behind_first sep before text h] at hrest
          exact hrest

/-- … between two spans is one separator, … -/
theorem separated_spans (before : List Char) (texts : List (List Char)) :
    (spans before.length texts).IsChain fun span span' =>
      span'.1 = span.2 + 1
        ∧ slice (before ++ [sep].intercalate texts) span.2 span'.1 = [sep] := by
  induction texts generalizing before with
  | nil => exact .nil
  | cons text texts ih =>
      cases texts with
      | nil => exact .singleton _
      | cons text' texts =>
          have hrest := ih (before ++ text ++ [sep])
          rw [length_behind, ← behind_first sep before text (by simp)] at hrest
          refine .cons_cons ⟨rfl, ?_⟩ hrest
          have hsep := slice_between (before ++ text) [sep]
            ([sep].intercalate (text' :: texts))
          rw [behind_first sep before text (by simp), List.append_assoc]
          simpa using hsep

/-- … the first stands at the start, … -/
theorem head_spans (start : Nat) (texts : List (List Char)) :
    ∀ span ∈ (spans start texts).head?, span.1 = start := by
  intro span h
  cases texts with
  | nil => cases h
  | cons text texts =>
      cases h
      rfl

/-- … and the last stands at the end. -/
theorem getLast_spans (before : List Char) (texts : List (List Char)) :
    ∀ span ∈ (spans before.length texts).getLast?,
      span.2 = (before ++ [sep].intercalate texts).length := by
  induction texts generalizing before with
  | nil =>
      intro span h
      cases h
  | cons text texts ih =>
      intro span h
      by_cases hnil : texts = []
      · subst hnil
        have hspan : (before.length, before.length + text.length) = span := by
          simpa [spans] using h
        subst hspan
        simp
      · have hrest := ih (before ++ text ++ [sep])
        rw [length_behind, ← behind_first sep before text hnil] at hrest
        apply hrest
        cases texts with
        | nil => exact absurd rfl hnil
        | cons text' texts => simpa [spans] using h

end Joined

end PatentEvidence.Layout
