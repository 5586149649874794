/-
What the splitter finds: spans in the order of the description, none
reaching into the next, and at each a text with something other than white
space at both ends.

A piece between two cuts is stripped (Lib/Spans.lean), and left out if there
is no word character in it. The bounds of a line ascend, so the spans of a
line are within the line; and the lines are the description, one after the
other.
-/
import Mathlib.Data.List.Dedup
import PatentEvidence.Fto.Product
import PatentEvidence.Lib.Spans

namespace PatentEvidence.Fto

open Spans Text

variable [Digits] [Alphanumeric] {text : List Char}

-- =============================================================== pieces

omit [Digits] in
/-- A piece is a feature if there is a word character in it. -/
theorem pieceSpan_eq_filter (text : List Char) (bounds : Nat × Nat) :
    pieceSpan text bounds
      = (stripped text bounds).filter fun s => (slice text s.1 s.2).any isWord := by
  unfold pieceSpan stripped
  dsimp only
  split
  · rfl
  · rw [Option.filter_some]

-- ================================================================ lines

omit [Alphanumeric] in
theorem listMarker_le (line : List Char) : listMarker line ≤ line.length := by
  unfold listMarker
  dsimp only
  split
  · exact Nat.sub_le ..
  · exact Nat.zero_le _

omit [Digits] [Alphanumeric] in
theorem mem_cutPoints {start stop cut : Nat}
    (h : cut ∈ cutPoints text start stop) : start ≤ cut ∧ cut ≤ stop := by
  unfold cutPoints at h
  rw [List.mem_insertionSort, List.mem_dedup, List.mem_map] at h
  obtain ⟨i, hi, rfl⟩ := h
  have hplace : i ∈ List.range' start (stop - start) := by
    rcases List.mem_append.mp hi with hi | hi
    · exact List.mem_of_mem_filter hi
    · exact List.mem_of_mem_filter hi
  rw [List.mem_range'_1] at hplace
  omega

section Line

variable {position : Nat} {line : List Char}

/-- The pieces of a line, stripped. -/
def linePieces (text : List Char) (position : Nat) (line : List Char) :
    List Span :=
  let bounds := cutPoints text (position + listMarker line)
    (position + line.length) ++ [position + line.length]
  (((position + listMarker line) :: bounds).zip bounds).filterMap (stripped text)

/-- The spans of a line are those with a word in them. -/
theorem lineSpans_eq_filter (text : List Char) (position : Nat)
    (line : List Char) :
    lineSpans text position line
      = (linePieces text position line).filter fun s =>
        (slice text s.1 s.2).any isWord := by
  unfold lineSpans linePieces
  dsimp only
  rw [List.tail_cons, funext (pieceSpan_eq_filter text), ← List.filter_filterMap]

omit [Alphanumeric] in
/-- The bounds of a line: the end of its marker, its cuts and its end. -/
theorem pairwise_lineBounds (text : List Char) (position : Nat)
    (line : List Char) :
    ((position + listMarker line) :: (cutPoints text
      (position + listMarker line) (position + line.length)
        ++ [position + line.length])).Pairwise (· ≤ ·) := by
  have hmarker := listMarker_le line
  rw [List.pairwise_cons, List.pairwise_append]
  refine ⟨fun b hb => ?_, List.pairwise_insertionSort (· ≤ ·) _,
    List.pairwise_singleton .., fun a ha b hb => ?_⟩
  · rcases List.mem_append.mp hb with hb | hb
    · exact (mem_cutPoints hb).1
    · rw [List.mem_singleton.mp hb]
      omega
  · rw [List.mem_singleton.mp hb]
    exact (mem_cutPoints ha).2

/-- The spans of a line are behind its marker. -/
theorem ordered_lineSpans (text : List Char) (position : Nat)
    (line : List Char) :
    Ordered (position + listMarker line) (position + line.length)
      (lineSpans text position line) := by
  have hmarker := listMarker_le line
  rw [lineSpans_eq_filter]
  refine Ordered.sublist (ordered_pieces (pairwise_lineBounds text position line)
    fun b hb => ?_) List.filter_sublist
  rcases List.mem_cons.mp hb with rfl | hb
  · omega
  · rcases List.mem_append.mp hb with hb | hb
    · exact (mem_cutPoints hb).2
    · rw [List.mem_singleton.mp hb]

/-- A span of a line is what both strips leave of a piece, and there is a
word in it. -/
theorem of_mem_lineSpans {s : Span} (h : s ∈ lineSpans text position line) :
    Solid (slice text s.1 s.2) ∧ (slice text s.1 s.2).any isWord = true := by
  rw [lineSpans_eq_filter, List.mem_filter] at h
  obtain ⟨hpiece, hword⟩ := h
  obtain ⟨bounds, -, hstripped⟩ := List.mem_filterMap.mp hpiece
  exact ⟨solid_stripped hstripped, hword⟩

end Line

-- ====================================================== the description

theorem ordered_spansFrom (text : List Char) (position : Nat)
    (lines : List (List Char)) :
    Ordered position (position + lines.flatten.length)
      (spansFrom text position lines) := by
  induction lines generalizing position with
  | nil => exact ordered_nil
  | cons line lines ih =>
      rw [List.flatten_cons, List.length_append, ← Nat.add_assoc]
      have hline := (ordered_lineSpans text position line).mono
        (Nat.le_add_right position _) (le_refl _)
      exact hline.append (ih _) (by omega) (by omega)

theorem of_mem_spansFrom {position : Nat} {lines : List (List Char)} {s : Span}
    (h : s ∈ spansFrom text position lines) :
    Solid (slice text s.1 s.2) ∧ (slice text s.1 s.2).any isWord = true := by
  induction lines generalizing position with
  | nil => cases h
  | cons line lines ih =>
      rcases List.mem_append.mp h with h | h
      · exact of_mem_lineSpans h
      · exact ih h

/-- The spans of the candidates. -/
theorem ordered_splitDescription (text : String) :
    Ordered 0 text.toList.length
      (spansFrom text.toList 0 (splitLines text.toList)) := by
  have h := ordered_spansFrom text.toList 0 (splitLines text.toList)
  rwa [flatten_splitLines, Nat.zero_add] at h

end PatentEvidence.Fto
