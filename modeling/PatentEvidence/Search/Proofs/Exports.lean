/-
Exported tables, read back.

A table is exported with every cell in quotes, a quote inside a cell being
written twice, so cells may contain delimiters, quotes and line ends. The
reader takes the text line by line and a record may go on over several
lines; `Reads` says what is read from a point inside a line on, and there is
one lemma for each kind of character. From them: a cell, a row and a table.

What an import makes of an exported table then depends on the table only.
-/
import Mathlib.Data.List.Basic
import PatentEvidence.Lib.Fallible
import PatentEvidence.Search.Importer

namespace PatentEvidence.Search

open Fallible Text

-- =============================================================== exports

/-- The characters of a cell, a quote being written twice. -/
def doubled (cs : List Char) : List Char :=
  cs.flatMap fun c => if c = '"' then ['"', '"'] else [c]

/-- A row: every cell in quotes. -/
def exportedRow (delimiter : Char) : List String → List Char
  | [] => []
  | [cell] => '"' :: (doubled cell.toList ++ ['"', '\n'])
  | cell :: cells =>
      '"' :: (doubled cell.toList ++ '"' :: delimiter :: exportedRow delimiter cells)

def exportedTable (delimiter : Char) (table : List (List String)) : String :=
  String.ofList (table.flatMap (exportedRow delimiter))

/-- A table that has an export: rows have cells, and the reader has room for
each. -/
structure Exportable (table : List (List String)) : Prop where
  inhabited : ∀ row ∈ table, row ≠ []
  room : ∀ row ∈ table, ∀ cell ∈ row, cell.toList.length ≤ fieldSizeLimit

-- =============================================================== reading

section Reading

variable {delimiter : Char} {reader reader' : CsvReader} {c : Char}
  {text : List Char} {rows : List (List String)}

/-- From inside a line on, where the reader has come to `reader`, the text is
read as these rows. -/
def Reads (delimiter : Char) (reader : CsvReader) (text : List Char)
    (rows : List (List String)) : Prop :=
  ∀ start line, line.foldlM (fun r c => r.processChar delimiter c) start = .ok reader →
    csvRecords delimiter start (stringLines line text) = .ok rows

theorem foldlM_concat {start : CsvReader} {line : List Char}
    (hline : line.foldlM (fun r c => CsvReader.processChar delimiter r c) start
      = .ok reader)
    (h : reader.processChar delimiter c = .ok reader') :
    (line ++ [c]).foldlM (fun r c => CsvReader.processChar delimiter r c) start
      = .ok reader' := by
  rw [List.foldlM_append, hline, ok_bind, List.foldlM_cons, h, ok_bind, List.foldlM_nil]
  rfl

/-- A character inside a line. -/
theorem reads_char (hc : c ≠ '\n') (h : reader.processChar delimiter c = .ok reader')
    (hr : Reads delimiter reader' text rows) : Reads delimiter reader (c :: text) rows := by
  intro start line hline
  rw [stringLines, if_neg hc]
  exact hr start (line ++ [c]) (foldlM_concat hline h)

/-- The end of a line, where the record goes on. -/
theorem reads_newline (h : reader.processChar delimiter '\n' = .ok reader')
    (hend : reader'.endLine = reader') (hstate : reader'.state ≠ .startRecord)
    (hr : Reads delimiter reader' text rows) :
    Reads delimiter reader ('\n' :: text) rows := by
  intro start line hline
  rw [stringLines, if_pos rfl, csvRecords, foldlM_concat hline h, ok_bind]
  simp only [hend]
  rw [if_neg hstate]
  exact hr reader' [] rfl

/-- The end of a record. -/
theorem reads_end (h : reader.processChar delimiter '\n' = .ok reader')
    (hstate : reader'.endLine.state = .startRecord)
    (hr : csvRecords delimiter {} (stringLines [] text) = .ok rows) :
    Reads delimiter reader ('\n' :: text) (reader'.endLine.fields :: rows) := by
  intro start line hline
  rw [stringLines, if_pos rfl, csvRecords, foldlM_concat hline h, ok_bind]
  simp only
  rw [if_pos hstate, hr]
  rfl

theorem addChar_eq_ok {state : CsvState} (h : reader.field.length < fieldSizeLimit) :
    reader.addChar c state
      = .ok { reader with state := state, field := reader.field ++ [c] } :=
  if_neg (Nat.not_le.mpr h)

theorem doubled_cons (c : Char) (cs : List Char) :
    doubled (c :: cs) = (if c = '"' then ['"', '"'] else [c]) ++ doubled cs :=
  List.flatMap_cons

/-- The characters of a cell. -/
theorem reads_doubled {field cs : List Char} {fields : List String}
    (hroom : field.length + cs.length ≤ fieldSizeLimit)
    (hr : Reads delimiter ⟨.inQuotedField, field ++ cs, fields⟩ text rows) :
    Reads delimiter ⟨.inQuotedField, field, fields⟩ (doubled cs ++ text) rows := by
  induction cs generalizing field with
  | nil =>
      rw [List.append_nil] at hr
      exact hr
  | cons c cs ih =>
      rw [List.length_cons] at hroom
      have hnext : Reads delimiter ⟨.inQuotedField, field ++ [c], fields⟩
          (doubled cs ++ text) rows := by
        refine ih ?_ ?_
        · rw [List.length_append, List.length_singleton]
          omega
        · rw [List.append_assoc]
          exact hr
      have hfield : field.length < fieldSizeLimit := by omega
      rw [doubled_cons]
      by_cases hquote : c = '"'
      · -- the first quote is taken back by the second
        subst hquote
        exact reads_char (by decide) rfl
          (reads_char (by decide) (addChar_eq_ok (by exact hfield)) hnext)
      · have hstep : CsvReader.processChar delimiter ⟨.inQuotedField, field, fields⟩ c
            = .ok ⟨.inQuotedField, field ++ [c], fields⟩ := by
          show (if c = '"' then _ else _) = _
          rw [if_neg hquote]
          exact addChar_eq_ok hfield
        rw [if_neg hquote]
        by_cases hline : c = '\n'
        · subst hline
          exact reads_newline hstep rfl (by rintro ⟨⟩) hnext
        · exact reads_char hline hstep hnext

/-- A delimiter is a character that means nothing else. -/
def IsDelimiter (delimiter : Char) : Prop :=
  delimiter ≠ '"' ∧ delimiter ≠ '\n' ∧ delimiter ≠ '\r'

/-- A row, from its first cell or a later one on. -/
theorem reads_row (hd : IsDelimiter delimiter) {cells : List String} (hne : cells ≠ [])
    (hroom : ∀ cell ∈ cells, cell.toList.length ≤ fieldSizeLimit)
    (hr : csvRecords delimiter {} (stringLines [] text) = .ok rows)
    {state : CsvState} (hstate : state = .startRecord ∨ state = .startField)
    {fields : List String} :
    Reads delimiter ⟨state, [], fields⟩ (exportedRow delimiter cells ++ text)
      ((fields ++ cells) :: rows) := by
  have hopen : ∀ fields, CsvReader.processChar delimiter ⟨state, [], fields⟩ '"'
      = .ok ⟨.inQuotedField, [], fields⟩ := by
    intro fields
    rcases hstate with rfl | rfl <;> rfl
  induction cells generalizing fields state with
  | nil => exact absurd rfl hne
  | cons cell cells ih =>
      obtain ⟨hcell, hcells⟩ := List.forall_mem_cons.mp hroom
      have hsaved : String.ofList ([] ++ cell.toList) = cell := by
        rw [List.nil_append, String.ofList_toList]
      cases cells with
      | nil =>
          have hclose : Reads delimiter ⟨.inQuotedField, [] ++ cell.toList, fields⟩
              ('"' :: '\n' :: text) ((fields ++ [cell]) :: rows) := by
            have hlast : Reads delimiter ⟨.quoteInQuotedField, [] ++ cell.toList, fields⟩
                ('\n' :: text) ((fields ++ [String.ofList ([] ++ cell.toList)]) :: rows) := by
              have hsave : CsvReader.processChar delimiter
                  ⟨.quoteInQuotedField, [] ++ cell.toList, fields⟩ '\n'
                  = .ok ⟨.eatCrnl, [], fields ++ [String.ofList ([] ++ cell.toList)]⟩ := rfl
              exact reads_end hsave rfl hr
            rw [hsaved] at hlast
            exact reads_char (by decide) rfl hlast
          have hread := reads_char (by decide) (hopen fields)
            (reads_doubled (by simpa using hcell) hclose)
          simpa [exportedRow] using hread
      | cons next cells =>
          have hclose : Reads delimiter ⟨.inQuotedField, [] ++ cell.toList, fields⟩
              ('"' :: delimiter :: (exportedRow delimiter (next :: cells) ++ text))
              ((fields ++ cell :: next :: cells) :: rows) := by
            have hnext : Reads delimiter ⟨.startField, [], fields ++ [cell]⟩
                (exportedRow delimiter (next :: cells) ++ text)
                ((fields ++ [cell] ++ next :: cells) :: rows) :=
              ih (List.cons_ne_nil _ _) hcells (.inr rfl) fun _ => rfl
            rw [List.append_assoc] at hnext
            refine reads_char (by decide) rfl (reads_char hd.2.1 ?_ hnext)
            show (if delimiter = '"' then _ else _) = _
            rw [if_neg hd.1]
            show (if delimiter = '\n' ∨ delimiter = '\r' then _ else _) = _
            rw [if_neg (not_or.mpr hd.2), if_pos rfl]
            show Except.ok (CsvReader.mk .startField []
              (fields ++ [String.ofList ([] ++ cell.toList)])) = _
            rw [hsaved]
          have hread := reads_char (by decide) (hopen fields)
            (reads_doubled (by simpa using hcell) hclose)
          simpa [exportedRow] using hread

/-- An exported table is read back. -/
theorem csvRows_exportedTable (hd : IsDelimiter delimiter) {table : List (List String)}
    (h : Exportable table) :
    csvRows delimiter (exportedTable delimiter table) = .ok table := by
  unfold csvRows exportedTable
  rw [String.toList_ofList]
  obtain ⟨hinhabited, hroom⟩ := h
  induction table with
  | nil => rfl
  | cons row table ih =>
      obtain ⟨hrow, hinhabited⟩ := List.forall_mem_cons.mp hinhabited
      obtain ⟨hcells, hroom⟩ := List.forall_mem_cons.mp hroom
      rw [List.flatMap_cons]
      exact reads_row hd hrow hcells (ih hinhabited hroom) (.inl rfl) {} [] rfl

/-- An export of some rows has a quote in it. -/
theorem not_blank_exportedTable {table : List (List String)} (hne : table ≠ [])
    (h : Exportable table) : ¬ Blank (exportedTable delimiter table) := by
  rw [blank_iff, exportedTable, String.toList_ofList]
  intro hall
  cases table with
  | nil => exact hne rfl
  | cons row table =>
      have hquote : '"' ∈ exportedRow delimiter row := by
        cases row with
        | nil => exact absurd rfl (h.inhabited [] (List.mem_cons_self ..))
        | cons cell cells => cases cells <;> simp [exportedRow]
      have hspace := hall '"' (List.mem_flatMap.mpr ⟨row, List.mem_cons_self .., hquote⟩)
      exact absurd hspace (by decide)

end Reading

-- =============================================================== imports

section Imports

variable {ν : Type} [Casing]

/-- An exported table is read back, cell by cell. Where the tab that separates
the cells is found in time, and no cell is taken for one, an export with tabs
and one with commas are imported alike. -/
theorem exported_tables_import_alike {table : List (List String)} (h : Exportable table) :
    (∀ delimiter, IsDelimiter delimiter →
        csvRows delimiter (exportedTable delimiter table) = .ok table)
      ∧ ('\t' ∉ (exportedTable ',' table).toList.take 1024 →
        '\t' ∈ (exportedTable '\t' table).toList.take 1024 →
        importFromCsv (exportedTable ',' table)
          = (importFromCsv (exportedTable '\t' table) :
            Except SearchError (List (ImportedCandidate ν)))) := by
  have hread : ∀ delimiter, IsDelimiter delimiter →
      csvRows delimiter (exportedTable delimiter table) = .ok table :=
    fun delimiter hd => csvRows_exportedTable hd h
  refine ⟨hread, fun hcommas htabs => ?_⟩
  have hcsv := hread ',' ⟨by decide, by decide, by decide⟩
  have htsv := hread '\t' ⟨by decide, by decide, by decide⟩
  have hne : table ≠ [] := by
    rintro rfl
    simp [exportedTable] at htabs
  unfold importFromCsv
  rw [if_neg (not_blank_exportedTable hne h), if_neg (not_blank_exportedTable hne h),
    if_neg hcommas, if_pos htabs]
  dsimp only
  rw [hcsv, htsv]

end Imports

section Examples

local instance exportCasing : Casing := ⟨id, id⟩

theorem exported_tables_import_alike_quoted :
    csvRows ';' (exportedTable ';' [["公开号", "名称"], ["CN1", "a \"hinge\"; bent"]])
        = .ok [["公开号", "名称"], ["CN1", "a \"hinge\"; bent"]]
      ∧ importFromCsv (exportedTable ',' [["公开号", "名称"], ["CN1", "a \"hinge\", bent"]])
        = (importFromCsv (exportedTable '\t'
            [["公开号", "名称"], ["CN1", "a \"hinge\", bent"]]) :
          Except SearchError (List (ImportedCandidate Int))) :=
  ⟨(exported_tables_import_alike (ν := Int) ⟨by decide, by decide⟩).1 ';'
      ⟨by decide, by decide, by decide⟩,
    (exported_tables_import_alike ⟨by decide, by decide⟩).2 (by decide) (by decide)⟩

end Examples

end PatentEvidence.Search
