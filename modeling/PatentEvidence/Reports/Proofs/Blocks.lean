/-
How the parser of blocks reads lines put together of parts.

A table takes the lines below it that have a bar, a code block takes all
lines up to a closing fence. A blank line ends a table, so the lines in
front of one are read on their own (`parseLines_append_of_even`), unless the
number of fences among them is odd: then the last of these opens a code
block that takes what follows (`parseLines_append_of_odd`). A line of a
table is no fence, since a fence has no bar, so the number is that of all
lines, whichever blocks they are in.

A cell that is read has no bar in it, no line boundary and no outer white
space (`Plain`); such cells are read back as they were written
(`tableCells_tableRow`).

# Sections

- one pass;
- lines in parts;
- cells.
-/
import PatentEvidence.Reports.Blocks
import Mathlib.Algebra.Group.Nat.Even

namespace PatentEvidence.Reports

open Text Lines

-- =========================================================== kinds of lines

/-- Ending with a blank line, if with any. -/
def EndsBlank (lines : List Line) : Prop :=
  ∀ line ∈ lines.getLast?, stripChars line = []

theorem EndsBlank.of_suffix {lines lines' : List Line} (h : EndsBlank lines)
    (hsuffix : lines' <:+ lines) : EndsBlank lines' := by
  intro line hline
  obtain ⟨front, rfl⟩ := hsuffix
  refine h line ?_
  rw [List.getLast?_append, Option.mem_def.mp hline]
  rfl

theorem isTableStart_eq {line : Line} {rest : List Line} :
    isTableStart line rest = true ↔ '|' ∈ stripChars line
      ∧ ∃ next lines, rest = next :: lines
        ∧ isSeparatorRow (stripChars next) = true := by
  rw [isTableStart, Bool.and_eq_true, decide_eq_true_eq]
  cases rest with
  | nil => simp
  | cons next lines => simp

/-- A separator row has bars between its cells. -/
theorem bar_mem_of_separator {line : Line} (h : isSeparatorRow line = true) :
    '|' ∈ line := by
  by_contra hbar
  have hone : ∀ b : Bool, isSeparatorRow line = b → b = false := by
    intro b hb
    rw [isSeparatorRow, List.splitOn_eq_singleton hbar] at hb
    cases line with
    | nil => exact hb.symm
    | cons c cs => exact hb.symm
  exact absurd (hone _ h) (Bool.noConfusion)

theorem bar_mem_of_isTableRow {line : Line} (h : isTableRow line = true) :
    '|' ∈ stripChars line := by
  rw [isTableRow, Bool.and_eq_true, decide_eq_true_eq] at h
  exact h.1

/-- The header and the separator of a table are not the last lines, and a line
that is no row is behind them. -/
theorem exists_below {line : Line} {rest : List Line}
    (hend : EndsBlank (line :: rest)) (hstart : isTableStart line rest = true) :
    ∃ separator below, rest = separator :: below ∧ '|' ∈ stripChars separator
      ∧ below.dropWhile isTableRow ≠ [] := by
  obtain ⟨-, separator, below, rfl, hseparator⟩ := isTableStart_eq.mp hstart
  have hbar := bar_mem_of_separator hseparator
  refine ⟨separator, below, rfl, hbar, fun hnil => ?_⟩
  have hrows := List.dropWhile_eq_nil_iff.mp hnil
  have hbelow : EndsBlank (separator :: below) :=
    hend.of_suffix (List.suffix_cons ..)
  have hlast : ∃ l ∈ (separator :: below).getLast?, '|' ∈ stripChars l := by
    rw [List.getLast?_cons]
    cases hl : below.getLast? with
    | none => exact ⟨separator, rfl, hbar⟩
    | some l =>
        exact ⟨l, rfl, bar_mem_of_isTableRow (hrows l (List.mem_of_getLast? hl))⟩
  obtain ⟨l, hl, hbar⟩ := hlast
  rw [hbelow l hl] at hbar
  cases hbar

section Parts

variable [Alphanumeric]

/-- The number of fences. -/
def fences (lines : List Line) : Nat := lines.countP isFenceLine

/-- A fence begins with a tick and has no bar. -/
theorem fence_facts (hpunct : Alphanumeric.isAlnum '|' = false) {line : Line}
    (h : isFenceLine line = true) :
    (∃ cs, stripChars line = '`' :: cs) ∧ '|' ∉ stripChars line := by
  rw [isFenceLine, isFence, Bool.and_eq_true, List.isPrefixOf_iff_prefix,
    List.all_eq_true] at h
  obtain ⟨⟨rest, hline⟩, hword⟩ := h
  rw [← hline] at hword ⊢
  refine ⟨⟨_, rfl⟩, fun hbar => ?_⟩
  have hrest : '|' ∈ rest := by simpa using hbar
  have hbarWord := hword '|' hrest
  rw [isWord, hpunct] at hbarWord
  exact absurd hbarWord (by decide)

/-- So a line with a bar is no fence. -/
theorem not_fence_of_bar (hpunct : Alphanumeric.isAlnum '|' = false) {line : Line}
    (h : '|' ∈ stripChars line) : isFenceLine line = false :=
  eq_false_of_ne_true fun hfence => (fence_facts hpunct hfence).2 h

-- =============================================================== one pass

theorem nextBlock_blank {line : Line} (h : stripChars line = [])
    (rest : List Line) : nextBlock line rest = (none, rest) := if_pos h

theorem nextBlock_table {line : Line} {rest : List Line}
    (h : isTableStart line rest = true) :
    nextBlock line rest = (some (tableBlock line (rest.tail.takeWhile isTableRow)),
      rest.tail.dropWhile isTableRow) := by
  have hne : stripChars line ≠ [] :=
    List.ne_nil_of_mem (isTableStart_eq.mp h).1
  rw [nextBlock, if_neg hne, if_pos h]

theorem nextBlock_fence (hpunct : Alphanumeric.isAlnum '|' = false) {line : Line}
    (h : isFenceLine line = true) (rest : List Line) :
    nextBlock line rest = (some (codeBlock (rest.takeWhile (!isFenceLine ·))),
      (rest.dropWhile (!isFenceLine ·)).tail) := by
  obtain ⟨⟨cs, hcs⟩, hbar⟩ := fence_facts hpunct h
  have hstart : isTableStart line rest ≠ true :=
    fun hs => hbar (isTableStart_eq.mp hs).1
  have hheading : heading? (stripChars line) = none := by
    rw [hcs]
    rfl
  have hrule : isRule (stripChars line) ≠ true := by
    rw [hcs]
    simp [isRule]
  rw [nextBlock, if_neg (by rw [hcs]; exact List.cons_ne_nil _ _), if_neg hstart,
    hheading]
  simp only [if_neg hrule, if_pos h]

/-- Any other line is a block of its own, or none. -/
theorem nextBlock_own {line : Line} {rest : List Line}
    (hfence : isFenceLine line = false) (hstart : isTableStart line rest = false) :
    nextBlock line rest = ((nextBlock line []).1, rest) := by
  have hstart' : isTableStart line [] = false := Bool.and_false _
  by_cases hblank : stripChars line = []
  · rw [nextBlock_blank hblank, nextBlock_blank hblank]
  rw [nextBlock, nextBlock, if_neg hblank, if_neg hblank, hstart, hstart', hfence,
    if_neg Bool.false_ne_true, if_neg Bool.false_ne_true]
  cases heading? (stripChars line) with
  | some found => rfl
  | none =>
      cases isRule (stripChars line) with
      | true => rfl
      | false =>
          cases bullet? (stripChars line) with
          | some text => rfl
          | none => cases quote? (stripChars line) <;> rfl

/-- A pass leaves the end of the lines. -/
theorem nextBlock_suffix (hpunct : Alphanumeric.isAlnum '|' = false)
    (line : Line) (rest : List Line) : (nextBlock line rest).2 <:+ rest := by
  by_cases hfence : isFenceLine line = true
  · rw [nextBlock_fence hpunct hfence]
    exact (List.tail_suffix _).trans (List.dropWhile_suffix _)
  by_cases hstart : isTableStart line rest = true
  · rw [nextBlock_table hstart]
    exact (List.dropWhile_suffix _).trans (List.tail_suffix _)
  rw [nextBlock_own (eq_false_of_ne_true hfence) (eq_false_of_ne_true hstart)]

/-- A fence that none closes. -/
def Unclosed (line : Line) (rest : List Line) : Prop :=
  isFenceLine line = true ∧ ∀ l ∈ rest, isFenceLine l = false

theorem exists_fence {line : Line} {rest : List Line}
    (hfence : isFenceLine line = true) (hclosed : ¬ Unclosed line rest) :
    rest.dropWhile (!isFenceLine ·) ≠ [] := by
  intro hnil
  refine hclosed ⟨hfence, fun l hl => ?_⟩
  exact Bool.not_eq_true' _ ▸ List.dropWhile_eq_nil_iff.mp hnil l hl

/-- What is behind a blank line is not looked at, unless by a fence that none
in front of it closes. -/
theorem nextBlock_append (hpunct : Alphanumeric.isAlnum '|' = false)
    {line : Line} {rest : List Line} (hend : EndsBlank (line :: rest)) (hclosed : ¬ Unclosed line rest)
    (more : List Line) : nextBlock line (rest ++ more)
      = ((nextBlock line rest).1, (nextBlock line rest).2 ++ more) := by
  by_cases hfence : isFenceLine line = true
  · have hne := exists_fence hfence hclosed
    rw [nextBlock_fence hpunct hfence, nextBlock_fence hpunct hfence,
      takeWhile_append_of_ne_nil hne, dropWhile_append_of_ne_nil hne,
      List.tail_append_of_ne_nil hne]
  have hfence := eq_false_of_ne_true hfence
  by_cases hstart : isTableStart line rest = true
  · obtain ⟨separator, below, rfl, -, hne⟩ := exists_below hend hstart
    have hstart' : isTableStart line (separator :: below ++ more) = true := hstart
    rw [nextBlock_table hstart, nextBlock_table hstart', List.cons_append,
      List.tail_cons, List.tail_cons, takeWhile_append_of_ne_nil hne,
      dropWhile_append_of_ne_nil hne]
  have hstart := eq_false_of_ne_true hstart
  have hstart' : isTableStart line (rest ++ more) = false := by
    cases rest with
    | nil =>
        -- the last line is blank
        rw [isTableStart, hend line rfl]
        rfl
    | cons next lines => exact hstart
  rw [nextBlock_own hfence hstart, nextBlock_own hfence hstart']

theorem fences_append (lines lines' : List Line) :
    fences (lines ++ lines') = fences lines + fences lines' :=
  List.countP_append ..

theorem fences_eq_zero {lines : List Line}
    (h : ∀ line ∈ lines, isFenceLine line = false) : fences lines = 0 :=
  List.countP_eq_zero.mpr fun line hline => ne_true_of_eq_false (h line hline)

theorem fences_cons_of_fence {line : Line} (h : isFenceLine line = true)
    (lines : List Line) : fences (line :: lines) = fences lines + 1 :=
  List.countP_cons_of_pos h

theorem fences_cons_of_not {line : Line} (h : isFenceLine line = false)
    (lines : List Line) : fences (line :: lines) = fences lines :=
  List.countP_cons_of_neg (ne_true_of_eq_false h)

/-- And the fences it takes are two or none. -/
theorem even_fences_nextBlock (hpunct : Alphanumeric.isAlnum '|' = false)
    {line : Line} {rest : List Line} (hclosed : ¬ Unclosed line rest) :
    Even (fences (nextBlock line rest).2) ↔ Even (fences (line :: rest)) := by
  by_cases hfence : isFenceLine line = true
  · have hne := exists_fence hfence hclosed
    obtain ⟨closing, below, hdrop⟩ := List.exists_cons_of_ne_nil hne
    have hclosing : isFenceLine closing = true := by
      obtain ⟨l, hl, hfence⟩ := head_dropWhile hne
      rw [hdrop] at hl
      cases hl
      exact Bool.not_inj hfence
    have hcode : fences (rest.takeWhile (!isFenceLine ·)) = 0 :=
      fences_eq_zero fun l hl => by simpa using List.mem_takeWhile_imp hl
    have hrest : fences rest = fences below + 1 := by
      rw [← List.takeWhile_append_dropWhile (p := (!isFenceLine ·)) (l := rest),
        fences_append, hcode, hdrop, fences_cons_of_fence hclosing, Nat.zero_add]
    rw [nextBlock_fence hpunct hfence, hdrop, List.tail_cons,
      fences_cons_of_fence hfence, hrest, Nat.add_assoc, Nat.even_add]
    exact (iff_true_right (by decide)).symm
  have hfence := eq_false_of_ne_true hfence
  rw [fences_cons_of_not hfence]
  by_cases hstart : isTableStart line rest = true
  · obtain ⟨-, separator, below, rfl, hseparator⟩ := isTableStart_eq.mp hstart
    have hrows : fences (below.takeWhile isTableRow) = 0 :=
      fences_eq_zero fun l hl => not_fence_of_bar hpunct (bar_mem_of_isTableRow (List.mem_takeWhile_imp hl))
    have hbelow : fences below = fences (below.dropWhile isTableRow) := by
      rw [← List.takeWhile_append_dropWhile (p := isTableRow) (l := below),
        fences_append, hrows, Nat.zero_add, List.takeWhile_append_dropWhile]
    rw [nextBlock_table hstart, List.tail_cons,
      fences_cons_of_not
        (not_fence_of_bar hpunct (bar_mem_of_separator hseparator)), hbelow]
  · rw [nextBlock_own hfence (eq_false_of_ne_true hstart)]

-- ========================================================== lines in parts

/-- Lines with an even number of fences are read on their own. -/
theorem parseLines_append_of_even (hpunct : Alphanumeric.isAlnum '|' = false)
    {lines : List Line} (hend : EndsBlank lines) (heven : Even (fences lines)) (more : List Line) :
    parseLines (lines ++ more) = parseLines lines ++ parseLines more := by
  fun_induction parseLines lines with
  | case1 => rfl
  | case2 line rest ih =>
      have hclosed : ¬ Unclosed line rest := by
        rintro ⟨hfence, hrest⟩
        have hcount : fences (line :: rest) = 1 := by
          rw [fences, List.countP_cons_of_pos hfence,
            List.countP_eq_zero.mpr fun l hl => ne_true_of_eq_false (hrest l hl)]
        rw [hcount] at heven
        exact absurd heven (by decide)
      have hleft := hend.of_suffix
        ((nextBlock_suffix hpunct line rest).trans (List.suffix_cons ..))
      rw [List.cons_append, parseLines, nextBlock_append hpunct hend hclosed more,
        ih hleft ((even_fences_nextBlock hpunct hclosed).mpr heven),
        List.append_assoc]

/-- With an odd number, a code block takes what follows up to a fence. -/
theorem parseLines_append_of_odd (hpunct : Alphanumeric.isAlnum '|' = false)
    {lines : List Line} (hend : EndsBlank lines) (hodd : ¬ Even (fences lines)) :
    ∃ blocks code, ∀ more, parseLines (lines ++ more)
      = blocks ++ codeBlock (code ++ more.takeWhile (!isFenceLine ·))
        :: parseLines (more.dropWhile (!isFenceLine ·)).tail := by
  fun_induction parseLines lines with
  | case1 => exact absurd Even.zero hodd
  | case2 line rest ih =>
      by_cases hclosed : Unclosed line rest
      · obtain ⟨hfence, hrest⟩ := hclosed
        have hcode : ∀ l ∈ rest, (!isFenceLine l) = true := fun l hl => by
          rw [hrest l hl]
          rfl
        refine ⟨[], rest, fun more => ?_⟩
        rw [List.cons_append, parseLines, nextBlock_fence hpunct hfence,
          List.takeWhile_append_of_pos hcode, List.dropWhile_append_of_pos hcode]
        rfl
      · have hleft := hend.of_suffix
          ((nextBlock_suffix hpunct line rest).trans (List.suffix_cons ..))
        obtain ⟨blocks, code, hmore⟩ := ih hleft fun heven =>
          hodd ((even_fences_nextBlock hpunct hclosed).mp heven)
        refine ⟨(nextBlock line rest).1.toList ++ blocks, code, fun more => ?_⟩
        rw [List.cons_append, parseLines, nextBlock_append hpunct hend hclosed more,
          hmore, List.append_assoc]

-- ================================================================= cells

/-- A table is read where one starts. -/
theorem eq_tableBlock {line : Line} {rest : List Line} {header : List String}
    {rows : List (List String)}
    (h : (nextBlock line rest).1 = some (.table header rows)) :
    .table header rows = tableBlock line (rest.tail.takeWhile isTableRow) := by
  unfold nextBlock at h
  split at h
  · cases h
  split at h
  · exact (Option.some.inj h).symm
  split at h
  · cases h
  split at h
  · cases h
  split at h
  · cases h
  split at h
  · cases h
  split at h <;> cases h

end Parts

/-- A text that is one cell: without a bar, a line boundary and outer white
space. -/
structure Plain (cell : String) : Prop where
  no_bar : '|' ∉ cell.toList
  unbroken : Unbroken cell.toList
  stripped : stripChars cell.toList = cell.toList

theorem Plain.no_newline {cell : String} (h : Plain cell) : '\n' ∉ cell.toList :=
  fun hmem => absurd (h.unbroken '\n' hmem) (by decide)

theorem beforeBar_afterBar_subset (cs : List Char) :
    beforeBar (afterBar cs) ⊆ cs := by
  have hafter : afterBar cs ⊆ cs := by
    unfold afterBar
    split
    · exact List.tail_subset _
    · exact List.Subset.refl _
  refine List.Subset.trans ?_ hafter
  unfold beforeBar
  split
  · exact List.dropLast_subset _
  · exact List.Subset.refl _

/-- What is read of a row is cells. -/
theorem plain_of_mem_splitTableRow {line cell : Line} (hline : Unbroken line)
    (h : cell ∈ splitTableRow line) : Plain (String.ofList cell) := by
  obtain ⟨piece, hpiece, rfl⟩ := List.mem_map.mp h
  obtain ⟨hbar, hsub⟩ := piece_facts hpiece
  constructor
  · rw [String.toList_ofList]
    exact fun hmem => hbar (stripChars_subset piece hmem)
  · rw [String.toList_ofList]
    exact fun c hc => hline c (stripChars_subset line
      (beforeBar_afterBar_subset _ (hsub (stripChars_subset piece hc))))
  · rw [String.toList_ofList]
    exact stripChars_stripChars piece

theorem plain_empty : Plain "" :=
  ⟨List.not_mem_nil, List.forall_mem_nil _, rfl⟩

theorem plain_of_mem_tableCells {line : Line} (hline : Unbroken line)
    {columns : Nat} {cell : String} (h : cell ∈ tableCells columns line) : Plain cell := by
  obtain ⟨col, -, rfl⟩ := List.mem_map.mp h
  rw [List.getD_eq_getElem?_getD]
  cases hcell : (splitTableRow line)[col]? with
  | none => exact plain_empty
  | some cell => exact plain_of_mem_splitTableRow hline (List.mem_of_getElem? hcell)

/-- So a table that is read has cells only. -/
theorem plain_of_mem_parseLines [Alphanumeric]
    (hpunct : Alphanumeric.isAlnum '|' = false) {lines : List Line} (h : ∀ line ∈ lines, Unbroken line) {header : List String}
    {rows : List (List String)} (hmem : .table header rows ∈ parseLines lines) :
    ∀ row ∈ rows, ∀ cell ∈ row, Plain cell := by
  fun_induction parseLines lines with
  | case1 => cases hmem
  | case2 line rest ih =>
      obtain ⟨-, hrest⟩ := List.forall_mem_cons.mp h
      rcases List.mem_append.mp hmem with hmem | hmem
      · have htable := eq_tableBlock (Option.mem_toList.mp hmem)
        rw [tableBlock, Block.table.injEq] at htable
        intro row hrow cell hcell
        rw [htable.2] at hrow
        obtain ⟨below, hbelow, rfl⟩ := List.mem_map.mp hrow
        have hin := List.mem_of_mem_tail ((List.takeWhile_prefix _).subset hbelow)
        exact plain_of_mem_tableCells (hrest below hin) hcell
      · have hleft := (nextBlock_suffix hpunct line rest).subset
        exact ih (fun l hl => hrest l (hleft hl)) hmem

-- ============================================================== rows read back

/-- The line of a row, as the report has it. -/
def tableRow (cells : List String) : String := "| " ++ join " | " cells ++ " |"

/-- The characters of a row: its cells, each between blanks, between bars. -/
theorem toList_tableRow {cells : List String} (hne : cells ≠ []) :
    (tableRow cells).toList
      = '|' :: ['|'].intercalate (cells.map fun cell => ' ' :: cell.toList ++ [' '])
        ++ ['|'] := by
  have hjoin : ∀ cells : List String, cells ≠ [] →
      ' ' :: (join " | " cells).toList ++ [' ']
        = ['|'].intercalate
          (cells.map fun cell => ' ' :: cell.toList ++ [' ']) := by
    intro cells hne
    induction cells with
    | nil => exact absurd rfl hne
    | cons cell cells ih =>
        cases cells with
        | nil => simp [join]
        | cons cell' cells =>
            have ih := ih (List.cons_ne_nil _ _)
            rw [join, String.intercalate_cons_of_ne_nil (List.cons_ne_nil _ _),
              List.map_cons, List.intercalate_cons_of_ne_nil (by simp), ← ih]
            simp [join]
  rw [tableRow, String.toList_append, String.toList_append, ← hjoin cells hne]
  simp

theorem stripChars_between {cs : List Char} (h : stripChars cs = cs) :
    stripChars (' ' :: cs ++ [' ']) = cs := by
  by_cases hne : cs = []
  · rw [hne]
    decide
  · have hsolid : Solid (stripChars cs) := solid_stripChars (by rw [h]; exact hne)
    rw [h] at hsolid
    obtain ⟨⟨c, hc, hspace⟩, hlast⟩ := hsolid
    have hhead : ∃ c ∈ (cs ++ [' ']).head?, isSpace c = false := by
      refine ⟨c, ?_, hspace⟩
      rw [List.head?_append, Option.mem_def.mp hc]
      rfl
    rw [stripChars, List.cons_append, List.dropWhile_cons_of_pos (by decide),
      dropWhile_of_head hhead, List.rdropWhile_concat_pos _ _ _ (by decide),
      rdropWhile_of_getLast hlast]

section Row

variable {cells : List String}

theorem solid_tableRow (hne : cells ≠ []) : Solid (tableRow cells).toList := by
  rw [toList_tableRow hne]
  exact ⟨⟨'|', rfl, by decide⟩, '|', List.getLast?_concat .., by decide⟩

theorem isTableRow_tableRow (hne : cells ≠ []) :
    isTableRow (tableRow cells).toList = true := by
  rw [isTableRow, (solid_tableRow hne).strip, Bool.and_eq_true, decide_eq_true_eq,
    decide_eq_true_eq]
  refine ⟨?_, (solid_tableRow hne).ne_nil⟩
  rw [toList_tableRow hne]
  exact List.mem_cons_self ..

/-- A row of cells is read as these cells. -/
theorem splitTableRow_tableRow (hne : cells ≠ []) (h : ∀ cell ∈ cells, Plain cell) :
    splitTableRow (tableRow cells).toList = cells.map String.toList := by
  have hbar : ∀ piece ∈ cells.map fun cell => ' ' :: cell.toList ++ [' '],
      '|' ∉ piece := by
    intro piece hpiece
    obtain ⟨cell, hcell, rfl⟩ := List.mem_map.mp hpiece
    simpa using (h cell hcell).no_bar
  have hpieces : cells.map (fun cell => ' ' :: cell.toList ++ [' ']) ≠ [] :=
    fun hnil => hne (List.map_eq_nil_iff.mp hnil)
  have hinside (cs : List Char) :
      beforeBar (afterBar ('|' :: cs ++ ['|'])) = cs := by
    have hafter : afterBar ('|' :: cs ++ ['|']) = cs ++ ['|'] := rfl
    rw [hafter, beforeBar, if_pos (List.getLast?_concat ..), List.dropLast_concat]
  rw [splitTableRow, (solid_tableRow hne).strip, toList_tableRow hne, hinside,
    List.splitOn_intercalate _ hbar hpieces, List.map_map]
  exact List.map_congr_left fun cell hcell =>
    stripChars_between (h cell hcell).stripped

theorem tableCells_tableRow (hne : cells ≠ []) (h : ∀ cell ∈ cells, Plain cell) :
    tableCells cells.length (tableRow cells).toList = cells := by
  rw [tableCells, splitTableRow_tableRow hne h]
  refine List.ext_getElem (by simp) fun n hn hn' => ?_
  simp [List.getElem?_eq_getElem hn']

theorem unbroken_tableRow (h : ∀ cell ∈ cells, Plain cell) :
    Unbroken (tableRow cells).toList := by
  rw [tableRow, String.toList_append, String.toList_append]
  exact List.forall_mem_append.mpr ⟨List.forall_mem_append.mpr
    ⟨by decide, unbroken_join (by decide)
      fun cell hcell => (h cell hcell).unbroken⟩, by decide⟩

end Row

-- ================================================================ a table

/-- The table with a header line and these rows. -/
def tableOf (header : Line) (rows : List (List String)) : Block :=
  .table ((splitTableRow header).map String.ofList) rows

/-- The lines of rows, as they are cut. -/
def rowLines (rows : List (List String)) : List Line :=
  physical (rows.map fun cells => (tableRow cells).toList)

section Tables

variable [Alphanumeric] {header separator : Line} {rows : List (List String)}
  {lines below : List Line}

/-- Rows of cells are read as the table of these rows. -/
theorem parseLines_table (hstart : isTableStart header [separator] = true)
    (hrows : ∀ cells ∈ rows, cells.length = (splitTableRow header).length)
    (hplain : ∀ cells ∈ rows, ∀ cell ∈ cells, Plain cell)
    (hbelow : ∃ line ∈ below.head?, stripChars line = []) :
    parseLines (header :: separator :: (rowLines rows ++ below))
      = tableOf header rows :: parseLines below := by
  have hne : ∀ cells ∈ rows, cells ≠ [] := by
    rintro cells hcells rfl
    refine List.splitOn_ne_nil '|' (beforeBar (afterBar (stripChars header))) ?_
    rw [← List.map_eq_nil_iff (f := stripChars)]
    exact List.eq_nil_of_length_eq_zero (hrows [] hcells).symm
  have hphysical : rowLines rows = rows.map fun cells => (tableRow cells).toList :=
    physical_of_unbroken fun line hline => by
      obtain ⟨cells, hcells, rfl⟩ := List.mem_map.mp hline
      exact unbroken_tableRow (hplain cells hcells)
  have hrow : ∀ line ∈ rowLines rows, isTableRow line = true := by
    intro line hline
    rw [hphysical] at hline
    obtain ⟨cells, hcells, rfl⟩ := List.mem_map.mp hline
    exact isTableRow_tableRow (hne cells hcells)
  have hstart' :
      isTableStart header (separator :: (rowLines rows ++ below)) = true := hstart
  obtain ⟨blank, hblank, hempty⟩ := hbelow
  obtain ⟨more, rfl⟩ : ∃ more, below = blank :: more :=
    List.head?_eq_some_iff.mp hblank
  have hnot : ∀ line ∈ (blank :: more).head?, isTableRow line = false := by
    intro line hline
    cases hline
    refine eq_false_of_ne_true fun h => ?_
    have hbar := bar_mem_of_isTableRow h
    rw [hempty] at hbar
    cases hbar
  have hcells :
      (rowLines rows).map (tableCells (splitTableRow header).length) = rows := by
    rw [hphysical, List.map_map]
    refine (List.map_congr_left fun cells hcells => ?_).trans (List.map_id _)
    rw [← hrows cells hcells]
    exact tableCells_tableRow (hne cells hcells) (hplain cells hcells)
  rw [parseLines, nextBlock_table hstart', List.tail_cons,
    takeWhile_run hrow hnot, dropWhile_run hrow hnot, tableBlock, hcells]
  rfl

/-- Lines in front of a table, the table and what is behind it are read so
exactly when the fences in front are even and the rows are of cells. -/
theorem table_prefix_iff (hpunct : Alphanumeric.isAlnum '|' = false)
    (hend : EndsBlank lines)
    (hunbroken : ∀ line ∈ lines ++ header :: separator :: (rowLines rows ++ below),
      Unbroken line)
    (hstart : isTableStart header [separator] = true)
    (hrows : ∀ cells ∈ rows, cells.length = (splitTableRow header).length)
    (hbelow : ∃ line ∈ below.head?, stripChars line = []) (blocks : List Block) :
    parseLines lines ++ tableOf header rows :: blocks
        <+: parseLines (lines ++ header :: separator :: (rowLines rows ++ below))
      ↔ Even (fences lines) ∧ (∀ cells ∈ rows, ∀ cell ∈ cells, Plain cell)
        ∧ blocks <+: parseLines below := by
  by_cases heven : Even (fences lines)
  · rw [and_iff_right heven]
    by_cases hplain : ∀ cells ∈ rows, ∀ cell ∈ cells, Plain cell
    · rw [and_iff_right hplain, parseLines_append_of_even hpunct hend heven,
        parseLines_table hstart hrows hplain hbelow, List.prefix_append_right_inj,
        List.cons_prefix_cons, and_iff_right rfl]
    · refine iff_of_false (fun hprefix => hplain ?_) fun h => hplain h.1
      have hmem := hprefix.subset (List.mem_append_right _ (List.mem_cons_self ..))
      exact plain_of_mem_parseLines hpunct hunbroken hmem
  · refine iff_of_false (fun hprefix => ?_) fun h => heven h.1
    obtain ⟨front, code, hmore⟩ := parseLines_append_of_odd hpunct hend heven
    have hheader : isFenceLine header = false :=
      not_fence_of_bar hpunct (isTableStart_eq.mp hstart).1
    have hlines := hmore []
    rw [List.append_nil, List.takeWhile_nil, List.append_nil] at hlines
    rw [hlines, hmore, List.append_assoc, List.prefix_append_right_inj,
      List.cons_append, List.cons_prefix_cons] at hprefix
    -- the header is in the code block
    have hcode := Block.code.inj hprefix.1
    rw [List.takeWhile_cons_of_pos (by rw [hheader]; rfl)] at hcode
    have hlength := congrArg List.length hcode
    rw [List.length_map, List.length_map, List.length_append,
      List.length_cons] at hlength
    omega

end Tables

end PatentEvidence.Reports
