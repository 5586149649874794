/-
No word of a product description is lost by the splitter.

Between the end of the list marker and the end of a line the cuts ascend, and
of the pieces between them only white space and pieces without a word
character are left out. So a word character of a line is in a feature exactly
if it is not in the marker (`covers_spansFrom_iff`), and the lines are the
description.
-/
import PatentEvidence.Fto.Proofs.Product

namespace PatentEvidence.Fto

open Spans Text

-- =============================================================== markers

section Markers

variable [Digits]

/-- A position of some lines is inside the list marker of its line. -/
def InMarker (lines : List (List Char)) (i : Nat) : Prop :=
  ∃ before line after, lines = before ++ line :: after
    ∧ before.flatten.length ≤ i ∧ i < before.flatten.length + listMarker line

/-- In the marker of the first line, or of a line behind it. -/
theorem inMarker_cons {line : List Char} {lines : List (List Char)} {i : Nat} :
    InMarker (line :: lines) i
      ↔ i < listMarker line
        ∨ line.length ≤ i ∧ InMarker lines (i - line.length) := by
  constructor
  · rintro ⟨before, line', after, heq, hlow, hhigh⟩
    cases before with
    | nil =>
        cases heq
        rw [List.flatten_nil, List.length_nil, Nat.zero_add] at hhigh
        exact .inl hhigh
    | cons first before =>
        cases heq
        rw [List.flatten_cons, List.length_append] at hlow hhigh
        exact .inr ⟨by omega, before, line', after, rfl, by omega, by omega⟩
  · rintro (hlt | ⟨hle, before, line', after, rfl, hlow, hhigh⟩)
    · exact ⟨[], line, lines, rfl, Nat.zero_le _, by simpa using hlt⟩
    · refine ⟨line :: before, line', after, rfl, ?_, ?_⟩
      · rw [List.flatten_cons, List.length_append]
        omega
      · rw [List.flatten_cons, List.length_append]
        omega

end Markers

-- ================================================================ pieces

variable [Digits] [Alphanumeric] {text : List Char} {c : Char} {i : Nat}

/-- A word character of a line behind its marker is in one of its spans. -/
theorem covers_lineSpans {position : Nat} {line : List Char}
    (hspace : isSpace c = false) (hword : isWord c = true)
    (hi : text[i]? = some c) (hlow : position + listMarker line ≤ i)
    (hhigh : i < position + line.length) :
    Covers (lineSpans text position line) i := by
  have hpieces := covers_pieces hlow ⟨position + line.length,
    List.mem_append_right (cutPoints text (position + listMarker line)
      (position + line.length)) (List.mem_singleton.mpr rfl), hhigh⟩ hi hspace
  obtain ⟨s, hs, hcover⟩ := hpieces
  refine ⟨s, ?_, hcover⟩
  rw [lineSpans_eq_filter, List.mem_filter]
  exact ⟨hs, List.any_eq_true.mpr ⟨c, mem_slice hi hcover, hword⟩⟩

-- ================================================================= lines

/-- A word character of some lines is in one of their spans, or in a
marker. -/
theorem covers_spansFrom_iff {position : Nat} {lines : List (List Char)}
    (hspace : isSpace c = false) (hword : isWord c = true)
    (hlt : i < lines.flatten.length) (hi : text[position + i]? = some c) :
    Covers (spansFrom text position lines) (position + i)
      ↔ ¬ InMarker lines i := by
  induction lines generalizing position i with
  | nil => exact absurd hlt (Nat.not_lt_zero _)
  | cons line lines ih =>
      rw [List.flatten_cons, List.length_append] at hlt
      have hline := ordered_lineSpans text position line
      have hlines := ordered_spansFrom text (position + line.length) lines
      rw [spansFrom, covers_append, inMarker_cons]
      by_cases hfirst : i < line.length
      · -- the character is in the first line
        have hbehind : ¬ Covers
            (spansFrom text (position + line.length) lines) (position + i) := by
          rintro ⟨s, hs, hcover⟩
          have hs := hlines.inside s hs
          omega
        rw [or_iff_left hbehind, or_iff_left (by omega), not_lt]
        constructor
        · rintro ⟨s, hs, hcover⟩
          have hs := hline.inside s hs
          omega
        · intro hmarker
          exact covers_lineSpans hspace hword hi (by omega) (by omega)
      · have hbefore : ¬ Covers (lineSpans text position line) (position + i) := by
          rintro ⟨s, hs, hcover⟩
          have hs := hline.inside s hs
          omega
        have hmarker := listMarker_le line
        have hplace : position + line.length + (i - line.length)
            = position + i := by omega
        have hrest : Covers (spansFrom text (position + line.length) lines)
            (position + line.length + (i - line.length))
            ↔ ¬ InMarker lines (i - line.length) :=
          ih (by omega) (by rw [hplace, hi])
        rw [hplace] at hrest
        rw [or_iff_right hbefore, or_iff_right (by omega),
          and_iff_right (not_lt.mp hfirst), hrest]

-- ============================================================== features

omit [Digits] in
theorem not_isSpace_of_isWord
    (hspace : ∀ c, isSpace c = true → Alphanumeric.isAlnum c = false)
    (hword : isWord c = true) : isSpace c = false := by
  by_contra hc
  rw [Bool.not_eq_false] at hc
  rw [isWord, hspace c hc, Bool.false_or, decide_eq_true_eq] at hword
  subst hword
  exact absurd hc (by decide)

/-- A feature is the text at its span. -/
theorem mem_splitFeatures {text : String} {f : ProductFeature}
    (h : f ∈ (splitDescription text).features) :
    ∃ s ∈ spansFrom text.toList 0 (splitLines text.toList),
      f.spans = [s] ∧ f.text = spanText text s := by
  obtain ⟨i, hi, rfl⟩ := List.mem_mapIdx.mp h
  exact ⟨_, List.getElem_mem hi, rfl, rfl⟩

/-- The features of a description are in order in it, each the text at its
span, stripped and with a word in it; and a word character is in exactly
one of them unless it is in the marker of its line, where it is in none. -/
theorem splitDescription_partition
    (hspace : ∀ c, isSpace c = true → Alphanumeric.isAlnum c = false)
    (text : String) :
    (∀ f ∈ (splitDescription text).features, ∃ s, f.spans = [s]
      ∧ s.1 < s.2 ∧ s.2 ≤ text.toList.length
      ∧ f.text = String.ofList (slice text.toList s.1 s.2)
      ∧ strip f.text = f.text ∧ f.text.toList.any isWord = true)
    ∧ (splitDescription text).features.Pairwise (fun f g =>
      ∀ s ∈ f.spans, ∀ t ∈ g.spans, s.2 ≤ t.1)
    ∧ ∀ i c, text.toList[i]? = some c → isWord c = true →
      (InMarker (splitLines text.toList) i →
        ∀ f ∈ (splitDescription text).features, ¬ Covers f.spans i)
      ∧ (¬ InMarker (splitLines text.toList) i →
        ∃! f, f ∈ (splitDescription text).features ∧ Covers f.spans i) := by
  have hordered := ordered_splitDescription text
  have hpairwise : (splitDescription text).features.Pairwise fun f g =>
      ∀ s ∈ f.spans, ∀ t ∈ g.spans, s.2 ≤ t.1 := by
    refine pairwise_mapIdx (hordered.ordered.imp fun hst i j s hs t ht => ?_)
    rw [List.mem_singleton.mp hs, List.mem_singleton.mp ht]
    exact hst
  refine ⟨fun f hf => ?_, hpairwise, fun i c hi hword => ?_⟩
  · obtain ⟨s, hs, hspans, htext⟩ := mem_splitFeatures hf
    have hin := hordered.inside s hs
    obtain ⟨hsolid, hword⟩ := of_mem_spansFrom hs
    have htextList : f.text.toList = slice text.toList s.1 s.2 := by
      rw [htext, spanText, String.toList_ofList]
    refine ⟨s, hspans, hin.2.1, hin.2.2, htext, ?_, ?_⟩
    · rw [← htextList] at hsolid
      exact (solid_iff.mp hsolid).2
    · rw [htextList]
      exact hword
  · have hlines := flatten_splitLines text.toList
    have hlt : i < (splitLines text.toList).flatten.length := by
      rw [hlines]
      exact (List.getElem?_eq_some_iff.mp hi).1
    have hcovers : Covers
        (spansFrom text.toList 0 (splitLines text.toList)) (0 + i)
        ↔ ¬ InMarker (splitLines text.toList) i :=
      covers_spansFrom_iff (not_isSpace_of_isWord hspace hword) hword hlt
        (by rw [Nat.zero_add, hi])
    rw [Nat.zero_add] at hcovers
    constructor
    · rintro hmarker f hf hcover
      obtain ⟨s, hs, hspans, -⟩ := mem_splitFeatures hf
      rw [hspans, covers_singleton] at hcover
      exact hcovers.mp ⟨s, hs, hcover⟩ hmarker
    · intro hmarker
      refine existsUnique_of_pairwise (hpairwise.imp ?_) ?_
      · rintro f g hfg ⟨⟨s, hs, hsi⟩, t, ht, hti⟩
        have hst := hfg s hs t ht
        omega
      · obtain ⟨s, hs, hcover⟩ := hcovers.mpr hmarker
        obtain ⟨k, hk, rfl⟩ := List.getElem_of_mem hs
        exact ⟨_, List.mem_mapIdx.mpr ⟨k, hk, rfl⟩, covers_singleton.mpr hcover⟩

omit [Digits] [Alphanumeric] in
theorem splitDescription_partition_list :
    let _ : Digits := Scan.asciiDigits
    let _ : Alphanumeric := Scan.asciiAlphanumeric
    ∃! f, f ∈ (splitDescription "1) a; b").features ∧ Covers f.spans 6 := by
  let _ : Digits := Scan.asciiDigits
  let _ : Alphanumeric := Scan.asciiAlphanumeric
  have hmarker : listMarker "1) a; b".toList = 3 := by decide
  have hlines : splitLines "1) a; b".toList = ["1) a; b".toList] := by
    decide
  refine ((splitDescription_partition
    (fun _ => Scan.not_isAlphanum_of_isSpace) "1) a; b").2.2 6 'b'
    (by decide) (by decide +kernel)).2 ?_
  rw [hlines, inMarker_cons, hmarker]
  rintro (hlt | ⟨hle, -⟩)
  · omega
  · exact absurd hle (by decide)

end PatentEvidence.Fto
