/-
What the exporters write of a cell.

`split_inline` takes the marks off what stands between two of them, so the
exported text is shorter than the cell wherever its pattern reads something
(`length_exported_lt`), and the cell itself where it reads nothing. A text
cell is exported as it is when no mark encloses a part of it. A code cell
has ticks of the report around it; the first token begins with the first of
them and ends at the next tick, so the item is exported as it is when the
ticks behind its first character are at its end, and too few for a token of
their own (`shown_code_iff`).

# Sections

- marks and tokens;
- lengths;
- cells.
-/
import PatentEvidence.Reports.Blocks

namespace PatentEvidence.Reports

open Text Scan

-- ======================================================= marks and tokens

/-- Between two of the marks is some text in one line. -/
def Encloses (mark : String) (cs : List Char) : Prop :=
  ∃ front inner back, inner ≠ [] ∧ '\n' ∉ inner
    ∧ cs = front ++ (mark.toList ++ inner ++ mark.toList ++ back)

/-- The marks of bold text or of code enclose something. -/
def Marked (cs : List Char) : Prop := Encloses "**" cs ∨ Encloses "`" cs

variable {first : Option Char} {cs rest : List Char} {mark : String}

theorem afterMarked_eq_some (h : afterMarked mark cs = some rest) :
    ∃ inner, inner ≠ [] ∧ '\n' ∉ inner
      ∧ cs = mark.toList ++ inner ++ mark.toList ++ rest := by
  obtain ⟨more, hmark, hmore⟩ := Option.bind_eq_some_iff.mp h
  obtain ⟨inner, hne, hline, rfl⟩ := afterLazy_eq_some hmore
  refine ⟨inner, hne, hline, ?_⟩
  rw [afterLiteral_eq_some.mp hmark]
  simp only [List.append_assoc]

theorem isSome_afterMarked {inner : List Char} (hne : inner ≠ [])
    (hline : '\n' ∉ inner) (rest : List Char) :
    (afterMarked mark (mark.toList ++ inner ++ mark.toList ++ rest)).isSome
      = true := by
  rw [List.append_assoc, List.append_assoc, afterMarked, afterLiteral_append,
    Option.bind_some, ← List.append_assoc]
  exact isSome_afterLazy hne hline rest

/-- What a token is: the text between two marks, with the marks. -/
theorem inlineToken_eq_some {n : Nat} (h : inlineToken first cs = some n) :
    ∃ mark ∈ ["**", "`"], ∃ inner rest, inner ≠ [] ∧ '\n' ∉ inner
      ∧ cs = mark.toList ++ inner ++ mark.toList ++ rest
      ∧ n = (mark.toList ++ inner ++ mark.toList).length := by
  obtain ⟨rest, hrest, rfl⟩ := Option.map_eq_some_iff.mp h
  obtain ⟨mark, hmark, hread⟩ : ∃ mark ∈ ["**", "`"],
      afterMarked mark cs = some rest := by
    rcases Option.or_eq_some_iff.mp hrest with h | ⟨-, h⟩
    · exact ⟨"**", by simp, h⟩
    · exact ⟨"`", by simp, h⟩
  obtain ⟨inner, hne, hline, rfl⟩ := afterMarked_eq_some hread
  refine ⟨mark, hmark, inner, rest, hne, hline, rfl, ?_⟩
  rw [List.length_append, Nat.add_sub_cancel]

theorem isSome_inlineToken {inner : List Char} (hmark : mark ∈ ["**", "`"])
    (hne : inner ≠ []) (hline : '\n' ∉ inner) (first : Option Char)
    (rest : List Char) :
    (inlineToken first (mark.toList ++ inner ++ mark.toList ++ rest)).isSome
      = true := by
  have hsome : (afterMarked mark
      (mark.toList ++ inner ++ mark.toList ++ rest)).isSome = true :=
    isSome_afterMarked hne hline rest
  rw [inlineToken, reads, Option.isSome_map, Option.isSome_or, Bool.or_eq_true]
  rcases List.mem_pair.mp hmark with rfl | rfl
  · exact .inl hsome
  · exact .inr hsome

/-- Marks enclose a part of a text exactly when the pattern reads something
in front of the rest somewhere. -/
theorem marked_iff (first : Option Char) :
    Marked cs ↔ ∃ b ∈ cs.tails, (inlineToken first b).isSome = true := by
  constructor
  · intro hmarked
    obtain ⟨mark, hmark, front, inner, back, hne, hline, rfl⟩ :
        ∃ mark ∈ ["**", "`"], Encloses mark cs := by
      rcases hmarked with h | h
      · exact ⟨"**", by simp, h⟩
      · exact ⟨"`", by simp, h⟩
    exact ⟨_, (List.mem_tails _ _).mpr (List.suffix_append ..),
      isSome_inlineToken hmark hne hline first back⟩
  · rintro ⟨b, hb, hsome⟩
    obtain ⟨front, rfl⟩ := (List.mem_tails _ _).mp hb
    obtain ⟨n, hn⟩ := Option.isSome_iff_exists.mp hsome
    obtain ⟨mark, hmark, inner, back, hne, hline, rfl, -⟩ := inlineToken_eq_some hn
    rcases List.mem_pair.mp hmark with rfl | rfl
    · exact .inl ⟨front, inner, back, hne, hline, rfl⟩
    · exact .inr ⟨front, inner, back, hne, hline, rfl⟩

instance (cs : List Char) : Decidable (Marked cs) :=
  decidable_of_iff _ (marked_iff none).symm

theorem silent_iff : Silent inlineToken first cs [] ↔ ¬ Marked cs := by
  rw [marked_iff none]
  constructor
  · rintro hsilent ⟨b, hb, hsome⟩
    obtain ⟨front, rfl⟩ := (List.mem_tails _ _).mp hb
    cases b with
    | nil => cases hsome
    | cons c b =>
        have hnone := hsilent front (c :: b) rfl (List.cons_ne_nil _ _)
        rw [List.append_nil] at hnone
        exact Option.not_isSome_iff_eq_none.mpr hnone hsome
  · intro hnone front b hcs _
    rw [List.append_nil, ← Option.not_isSome_iff_eq_none]
    exact fun hsome => hnone ⟨b, (List.mem_tails _ _).mpr ⟨front, hcs.symm⟩, hsome⟩

-- ================================================================ lengths

/-- What is written of pieces. -/
def exported (pieces : List (List Char)) : List Char :=
  pieces.flatMap fun token => (inlineRun token).2

theorem toList_exportedText (cell : String) :
    (exportedText cell).toList = exported (Scan.split inlineToken cell.toList) := by
  have hjoin (texts : List String) :
      (join "" texts).toList = texts.flatMap String.toList := by
    induction texts with
    | nil => rfl
    | cons text texts ih =>
        rw [List.flatMap_cons, ← ih]
        cases texts with
        | nil => simp [join]
        | cons text' texts =>
            rw [join, String.intercalate_cons_cons, String.toList_append]
            simp [join]
  have hfilter (pieces : List (List Char)) :
      exported (pieces.filter (· ≠ [])) = exported pieces := by
    induction pieces with
    | nil => rfl
    | cons piece pieces ih =>
        cases piece with
        | nil => exact ih
        | cons c piece => exact congrArg (_ ++ ·) ih
  rw [exportedText, hjoin, splitInline, ← hfilter, List.map_map, exported,
    List.flatMap_map]
  simp only [Function.comp_apply, String.toList_ofList]

theorem length_inlineRun_le (token : List Char) :
    (inlineRun token).2.length ≤ token.length := by
  have hslice (start stop : Nat) : (slice token start stop).length ≤ token.length := by
    rw [slice, List.length_drop, List.length_take]
    omega
  unfold inlineRun
  split
  · exact hslice _ _
  split
  · exact hslice _ _
  exact Nat.le_refl _

theorem slice_between {a b c : List Char} {stop : Nat}
    (hstop : stop = a.length + b.length) : slice (a ++ b ++ c) a.length stop = b := by
  rw [slice, hstop, ← List.length_append, List.take_left, List.drop_left]

/-- The text of a token's run is what is inside. -/
theorem inlineRun_token {inner : List Char} (hmark : mark ∈ ["**", "`"])
    (hne : inner ≠ []) :
    (inlineRun (mark.toList ++ inner ++ mark.toList)).2 = inner := by
  have hpos : 0 < inner.length := List.length_pos_iff.mpr hne
  have hbegins : mark.toList.isPrefixOf (mark.toList ++ inner ++ mark.toList) = true :=
    List.isPrefixOf_iff_prefix.mpr (by rw [List.append_assoc]; exact List.prefix_append ..)
  have hends : mark.toList.isSuffixOf (mark.toList ++ inner ++ mark.toList) = true :=
    List.isSuffixOf_iff_suffix.mpr (List.suffix_append ..)
  have hlength : (mark.toList ++ inner ++ mark.toList).length
      = 2 * mark.toList.length + inner.length := by
    rw [List.length_append, List.length_append]
    omega
  rcases List.mem_pair.mp hmark with rfl | rfl
  · have htwo : "**".toList.length = 2 := rfl
    rw [inlineRun, if_pos ⟨hbegins, hends, by omega⟩]
    exact slice_between (a := "**".toList) (by omega)
  · have hone : "`".toList.length = 1 := rfl
    have hbold : "**".toList.isPrefixOf ("`".toList ++ inner ++ "`".toList) ≠ true :=
      Bool.noConfusion
    rw [inlineRun, if_neg fun h => hbold h.1, if_pos ⟨hbegins, hends, by omega⟩]
    exact slice_between (a := "`".toList) (by omega)

/-- Where the pattern reads nothing, the text is one piece and its own run. -/
theorem exported_split_of_not_marked (hline : '\n' ∉ cs) (h : ¬ Marked cs) :
    exported (Scan.split inlineToken cs) = cs := by
  have hrun : inlineRun cs = (.text, cs) := by
    -- marks at both ends of a text enclose what is between them
    have hends {mark : String} (hpos : 0 < mark.toList.length)
        (hbegins : mark.toList.isPrefixOf cs = true)
        (hlast : mark.toList.isSuffixOf cs = true)
        (hlength : 2 * mark.toList.length < cs.length) : Encloses mark cs := by
      obtain ⟨more, rfl⟩ := List.isPrefixOf_iff_prefix.mp hbegins
      rw [List.length_append] at hlength
      obtain ⟨inner, rfl⟩ := List.suffix_of_suffix_length_le
        (List.isSuffixOf_iff_suffix.mp hlast) (List.suffix_append ..) (by omega)
      refine ⟨[], inner, [], ?_, ?_, by simp⟩
      · rintro rfl
        rw [List.length_append, List.length_nil] at hlength
        omega
      · exact fun hmem => hline (by simp [hmem])
    rw [inlineRun, if_neg, if_neg]
    · exact fun hc => h (.inr (hends (by decide) hc.1 hc.2.1 hc.2.2))
    · exact fun hc => h (.inl (hends (by decide) hc.1 hc.2.1 hc.2.2))
  rw [Scan.split, splitFrom_silent (silent_iff.mpr h), exported, List.nil_append,
    List.flatMap_cons, hrun, List.flatMap_nil, List.append_nil]

/-- Nothing is added to the text by the cut. -/
theorem length_exported_le (pattern : Pattern) (skip : Nat) (first : Option Char)
    (gap cs : List Char) :
    (exported (splitFrom pattern skip first gap cs)).length
      ≤ gap.length + (cs.length - skip) := by
  induction cs generalizing skip first gap with
  | nil =>
      rw [splitFrom, exported, List.flatMap_cons, List.flatMap_nil, List.append_nil]
      exact Nat.le_trans (length_inlineRun_le gap) (Nat.le_add_right ..)
  | cons c cs ih =>
      rw [List.length_cons]
      cases skip with
      | succ skip =>
          have hrest := ih skip (some c) gap
          rw [splitFrom]
          omega
      | zero =>
          rw [splitFrom]
          split
          · have hrest := ih 0 (some c) (gap ++ [c])
            rw [List.length_append, List.length_singleton] at hrest
            omega
          · next n hn =>
              have hrest := ih (n - 1) (some c) []
              have hgap := length_inlineRun_le gap
              have htoken := length_inlineRun_le ((c :: cs).take n)
              rw [List.length_take, List.length_cons] at htoken
              rw [exported, List.flatMap_cons, List.flatMap_cons, List.length_append,
                List.length_append]
              rw [exported, List.length_nil] at hrest
              omega

/-- The marks of a token are taken away. -/
theorem length_exported_lt (h : Marked cs) :
    (exported (Scan.split inlineToken cs)).length < cs.length := by
  have hlt (first : Option Char) (gap cs : List Char)
      (hloud : ¬ Silent inlineToken first cs []) :
      (exported (splitFrom inlineToken 0 first gap cs)).length
        < gap.length + cs.length := by
    induction cs generalizing first gap with
    | nil =>
        refine absurd (fun a b hab hb => ?_) hloud
        exact absurd (List.append_eq_nil_iff.mp hab.symm).2 hb
    | cons c cs ih =>
        rw [splitFrom, List.length_cons]
        split
        · next hnone =>
            have hrest := ih (some c) (gap ++ [c]) fun hsilent =>
              hloud (Silent.cons (by rwa [List.append_nil]) hsilent)
            rw [List.length_append, List.length_singleton] at hrest
            omega
        · next n hn =>
            obtain ⟨mark, hmark, inner, back, hne, -, hcs, rfl⟩ :=
              inlineToken_eq_some hn
            have hmarks : 0 < mark.toList.length := by
              rcases List.mem_pair.mp hmark with rfl | rfl <;> decide
            have hrest := length_exported_le inlineToken
              ((mark.toList ++ inner ++ mark.toList).length - 1) (some c) [] cs
            have hgap := length_inlineRun_le gap
            have hlength := congrArg List.length hcs
            rw [List.length_cons, List.length_append] at hlength
            rw [hcs, List.take_left, exported, List.flatMap_cons, List.flatMap_cons,
              inlineRun_token hmark hne, List.length_append, List.length_append]
            rw [exported, List.length_nil] at hrest
            rw [List.length_append, List.length_append] at hrest hlength ⊢
            omega
  have hloud := hlt none [] cs fun hsilent => silent_iff.mp hsilent h
  rwa [List.length_nil, Nat.zero_add] at hloud

/-- A text in one line is exported as it is exactly when no marks enclose a
part of it. -/
theorem exported_split_eq_iff (hline : '\n' ∉ cs) :
    exported (Scan.split inlineToken cs) = cs ↔ ¬ Marked cs := by
  refine ⟨fun heq hmarked => ?_, exported_split_of_not_marked hline⟩
  have hlt := length_exported_lt hmarked
  rw [heq] at hlt
  exact Nat.lt_irrefl _ hlt

-- ================================================================== cells

/-- What an item has for a cell: a text, or a code, which the report prints
between ticks. -/
inductive ReportCell
  | text (s : String)
  | code (s : String)
  deriving DecidableEq

/-- The text of the item. -/
def ReportCell.item : ReportCell → String
  | .text s => s
  | .code s => s

/-- The cell in the row of the report. -/
def ReportCell.print : ReportCell → String
  | .text s => s
  | .code s => "`" ++ s ++ "`"

/-- The exporters write the text of the item, or this with the ticks of the
report around it. -/
def ReportCell.Exported (cell : ReportCell) : Prop :=
  exportedText cell.print = cell.item ∨ exportedText cell.print = cell.print

/-- At most two ticks, at the end. -/
def TicksAtEnd (cs : List Char) : Prop :=
  ∃ front n, n ≤ 2 ∧ '`' ∉ front ∧ cs = front ++ List.replicate n '`'

instance (cs : List Char) : Decidable (TicksAtEnd cs) :=
  decidable_of_iff (∃ n ∈ List.range 3, '`' ∉ cs.take (cs.length - n)
      ∧ cs = cs.take (cs.length - n) ++ List.replicate n '`') <| by
    constructor
    · rintro ⟨n, hn, htick, heq⟩
      exact ⟨_, n, Nat.lt_succ_iff.mp (List.mem_range.mp hn), htick, heq⟩
    · rintro ⟨front, n, hn, htick, rfl⟩
      have hfront : (front ++ List.replicate n '`').length - n = front.length := by
        rw [List.length_append, List.length_replicate, Nat.add_sub_cancel]
      refine ⟨n, List.mem_range.mpr (Nat.lt_succ_of_le hn), ?_, ?_⟩
      · rwa [hfront, List.take_left]
      · rw [hfront, List.take_left]

/-- No marks enclose a part of a text, and the ticks of a code behind its
first character are at its end, two at most. -/
def ReportCell.Clear : ReportCell → Prop
  | .text s => ¬ Marked s.toList
  | .code s => TicksAtEnd s.toList.tail

instance : (cell : ReportCell) → Decidable cell.Clear
  | .text s => inferInstanceAs (Decidable (¬ Marked s.toList))
  | .code s => inferInstanceAs (Decidable (TicksAtEnd s.toList.tail))

/-- Ticks alone enclose something from three on. -/
theorem marked_replicate_iff {n : Nat} :
    Marked (List.replicate n '`') ↔ 2 < n := by
  constructor
  · rintro (⟨front, inner, back, -, -, hcs⟩ | ⟨front, inner, back, hne, -, hcs⟩)
    · have hstar : '*' ∈ List.replicate n '`' := by
        rw [hcs]
        simp
      exact absurd (List.eq_of_mem_replicate hstar) (by decide)
    · have hlength := congrArg List.length hcs
      have hpos : 0 < inner.length := List.length_pos_iff.mpr hne
      have hone : "`".toList.length = 1 := rfl
      simp only [List.length_append, List.length_replicate, hone] at hlength
      omega
  · intro hn
    obtain ⟨k, rfl⟩ := Nat.exists_eq_add_of_lt hn
    refine .inr ⟨[], ['`'], List.replicate k '`', List.cons_ne_nil _ _, by decide, ?_⟩
    rw [show 2 + k + 1 = k + 3 by omega, List.replicate_succ, List.replicate_succ,
      List.replicate_succ]
    rfl

/-- The pattern looks at nothing in front. -/
theorem splitFrom_inlineToken (first first' : Option Char) (gap cs : List Char) :
    splitFrom inlineToken 0 first gap cs = splitFrom inlineToken 0 first' gap cs := by
  cases cs with
  | nil => rfl
  | cons c cs => rfl

/-- A code that is not empty: its first token ends at the first tick behind
its first character. -/
theorem exported_code {c : Char} {inner rest : List Char} (hc : c ≠ '\n')
    (hline : '\n' ∉ inner) (htick : '`' ∉ inner) :
    exported (Scan.split inlineToken ('`' :: c :: inner ++ '`' :: rest))
      = c :: inner ++ exported (Scan.split inlineToken rest) := by
  have htoken : '`' :: c :: inner ++ '`' :: rest
      = ("`".toList ++ (c :: inner) ++ "`".toList) ++ rest := by
    simp
  have hread : inlineToken none (("`".toList ++ (c :: inner) ++ "`".toList) ++ rest)
      = some ("`".toList ++ (c :: inner) ++ "`".toList).length := by
    refine reads_of_rest ?_
    have hbold : afterMarked "**" ('`' :: c :: inner ++ '`' :: rest) = none := rfl
    rw [← htoken, hbold, Option.none_or]
    exact afterLazy_first hc hline htick rest
  have hrun : (inlineRun ("`".toList ++ (c :: inner) ++ "`".toList)).2 = c :: inner :=
    inlineRun_token (by simp) (List.cons_ne_nil c inner)
  rw [htoken, Scan.split, splitFrom_match (by simp) hread, exported, List.flatMap_cons,
    List.flatMap_cons, hrun, splitFrom_inlineToken _ none]
  rfl

theorem eq_replicate_of_rotate {α : Type _} {a : α} {l : List α}
    (h : l ++ [a] = a :: l) : l = List.replicate l.length a := by
  induction l with
  | nil => rfl
  | cons b l ih =>
      obtain ⟨rfl, h⟩ := List.cons.inj h
      rw [List.length_cons, List.replicate_succ, ← ih h]

/-- So a code that is not empty is exported as it is when what is behind the
first token is ticks, too few for another. -/
theorem exported_code_iff {c : Char} {tail : List Char} (hc : c ≠ '\n')
    (hline : '\n' ∉ tail) :
    exported (Scan.split inlineToken ('`' :: (c :: tail ++ ['`']))) = c :: tail
      ↔ TicksAtEnd tail := by
  obtain ⟨inner, rest, hsplit, htick⟩ : ∃ inner rest,
      tail ++ ['`'] = inner ++ '`' :: rest ∧ '`' ∉ inner :=
    List.eq_append_cons_of_mem (List.mem_append_right _ (List.mem_singleton_self _))
  have hlines : '\n' ∉ inner ++ '`' :: rest := by
    rw [← hsplit]
    simpa using hline
  have hinner : '\n' ∉ inner := fun h => hlines (List.mem_append_left _ h)
  have hrest : '\n' ∉ rest := fun h =>
    hlines (List.mem_append_right _ (List.mem_cons_of_mem _ h))
  have hlength := congrArg List.length hsplit
  rw [List.length_append, List.length_append, List.length_singleton,
    List.length_cons] at hlength
  rw [List.cons_append, hsplit, ← List.cons_append, ← List.cons_append,
    exported_code hc hinner htick, List.cons_append, List.cons_inj_right]
  constructor
  · intro heq
    have hsame : rest.length ≤ (exported (Scan.split inlineToken rest)).length := by
      have htail := congrArg List.length heq
      rw [List.length_append] at htail
      omega
    have hclear : ¬ Marked rest := fun h =>
      absurd (length_exported_lt h) (Nat.not_lt.mpr hsame)
    rw [exported_split_of_not_marked hrest hclear] at heq
    rw [← heq, List.append_assoc] at hsplit
    have hticks := eq_replicate_of_rotate (List.append_cancel_left hsplit)
    rw [hticks, marked_replicate_iff] at hclear
    exact ⟨inner, rest.length, Nat.not_lt.mp hclear, htick, by rw [← hticks, heq]⟩
  · rintro ⟨front, n, hn, hfront, rfl⟩
    rw [List.append_assoc, ← List.replicate_succ', List.replicate_succ] at hsplit
    obtain ⟨rfl, rfl⟩ := append_cons_inj hsplit hfront htick
    have hclear : ¬ Marked (List.replicate n '`') := fun h =>
      absurd (marked_replicate_iff.mp h) (Nat.not_lt.mpr hn)
    rw [exported_split_of_not_marked hrest hclear]

/-- The cells whose text is exported are those that are clear. -/
theorem exported_iff_clear {cell : ReportCell} (hline : '\n' ∉ cell.print.toList) :
    cell.Exported ↔ cell.Clear := by
  have heq (s t : String) : exportedText s = t
      ↔ exported (Scan.split inlineToken s.toList) = t.toList := by
    rw [← String.toList_inj, toList_exportedText]
  rw [ReportCell.Exported, heq, heq, exported_split_eq_iff hline]
  cases cell with
  | text s =>
      rw [show (ReportCell.text s).item = (ReportCell.text s).print from rfl,
        exported_split_eq_iff hline, or_self]
      rfl
  | code s =>
      have hprint : (ReportCell.print (.code s)).toList = '`' :: (s.toList ++ ['`']) := by
        simp [ReportCell.print]
      rw [ReportCell.item, ReportCell.Clear]
      rw [hprint] at hline ⊢
      cases hs : s.toList with
      | nil =>
          refine iff_of_true (.inr ?_) ⟨[], 0, by omega, List.not_mem_nil, rfl⟩
          exact fun h => absurd (marked_replicate_iff (n := 2).mp h) (by omega)
      | cons c tail =>
          rw [hs] at hline
          have hinside : '\n' ∉ c :: tail := fun hmem =>
            hline (List.mem_cons_of_mem _ (List.mem_append_left _ hmem))
          have hmarked : Marked ('`' :: (c :: tail ++ ['`'])) :=
            .inr ⟨[], c :: tail, [], List.cons_ne_nil _ _, hinside, by simp⟩
          obtain ⟨hc, htail⟩ := List.ne_and_not_mem_of_not_mem_cons hinside
          rw [iff_false_intro (not_not_intro hmarked), or_false, List.tail_cons]
          exact exported_code_iff (Ne.symm hc) htail

example : exportedText "2**3**4" = "234" := by decide +kernel

end PatentEvidence.Reports
