/-
The tables of a report, read back by the parser of blocks.

A report is written as parts, each some lines, a header line, a separator
and one line for each row of a table, and what is behind them; the blocks
of a part are those of its lines and the table with its rows. The exporters
parse the text again, so what they show is the parts only where each is
`Legible`: the lines above its table have an even number of fences, its
cells have no bar, line boundary or outer white space (`parts_prefix_iff`),
and no cell has marks of bold text or of code in it. No text is escaped on
the way, so this is a condition on the texts of the payload.

# Sections

- parts of a report;
- the rows of the items;
- the report.
-/
import PatentEvidence.Lib.Fallible
import PatentEvidence.Lib.Scan
import PatentEvidence.Reports.Generator
import PatentEvidence.Reports.Proofs.Blocks
import PatentEvidence.Reports.Proofs.Inline

namespace PatentEvidence.Reports

open Fallible Json Lines Text

-- ===================================================== parts of a report

/-- Lines, a table with its header and separator, and the cells of its rows. -/
structure Part where
  above : List String
  header : String
  separator : String
  rows : List (List ReportCell)

/-- Lines as they are cut again. -/
def cut (lines : List String) : List Line := physical (lines.map String.toList)

/-- A row as the report prints its cells. -/
def printed (cells : List ReportCell) : List String := cells.map ReportCell.print

/-- The line of a row. -/
def rowOf (cells : List ReportCell) : String := tableRow (printed cells)

/-- The lines of a part, as they are written. -/
def Part.lines (p : Part) : List String :=
  p.above ++ p.header :: p.separator :: p.rows.map rowOf

/-- The part that begins with these lines, the last two of which are those of
the table. -/
def partOf (head : List String) (rows : List (List ReportCell)) : Part where
  above := head.rdrop 2
  header := (head.rdrop 1).getLast?.getD ""
  separator := head.getLast?.getD ""
  rows

/-- A part around a table: blank lines above and below the other lines, and a
cell in each row for each of the header. -/
structure Part.WellFormed (p : Part) : Prop where
  blank_last : p.above.getLast? = some ""
  unbroken_header : Unbroken p.header.toList
  unbroken_separator : Unbroken p.separator.toList
  isTableStart : isTableStart p.header.toList [p.separator.toList] = true
  length_cells : ∀ cells ∈ p.rows,
    cells.length = (splitTableRow p.header.toList).length

/-- The two lines a table of so many columns begins with. -/
structure TableHead (header separator : String) (columns : Nat) : Prop where
  unbroken_header : Unbroken header.toList
  unbroken_separator : Unbroken separator.toList
  isTableStart : isTableStart header.toList [separator.toList] = true
  length_header : (splitTableRow header.toList).length = columns

theorem partOf_append (above : List String) (header separator : String)
    (rows : List (List ReportCell)) :
    partOf (above ++ [header, separator]) rows
      = ⟨above, header, separator, rows⟩ := by
  have htwo : above ++ [header, separator] = above ++ [header] ++ [separator] := by
    simp
  rw [partOf, htwo, List.rdrop_concat_succ, List.rdrop_concat_succ, List.rdrop_zero,
    List.rdrop_concat_succ, List.rdrop_zero, List.getLast?_concat,
    List.getLast?_concat]
  rfl

theorem wellFormed_partOf {above : List String} {header separator : String}
    {columns : Nat} {rows : List (List ReportCell)} (hlast : above.getLast? = some "")
    (hhead : TableHead header separator columns)
    (hrows : ∀ cells ∈ rows, cells.length = columns) :
    (partOf (above ++ [header, separator]) rows).WellFormed
      ∧ (partOf (above ++ [header, separator]) rows).lines
        = above ++ [header, separator] ++ rows.map rowOf := by
  rw [partOf_append, List.append_assoc]
  refine ⟨⟨hlast, hhead.unbroken_header, hhead.unbroken_separator,
    hhead.isTableStart, fun cells hcells => ?_⟩, rfl⟩
  rw [hhead.length_header]
  exact hrows cells hcells

theorem cut_append (lines lines' : List String) :
    cut (lines ++ lines') = cut lines ++ cut lines' := by
  rw [cut, List.map_append, physical_append]
  rfl

theorem cut_cons {line : String} (h : Unbroken line.toList) (lines : List String) :
    cut (line :: lines) = line.toList :: cut lines := by
  rw [cut, List.map_cons, physical, List.flatMap_cons, splitlines_of_unbroken h]
  rfl

theorem unbroken_of_mem_cut {lines : List String} {line : Line}
    (h : line ∈ cut lines) : Unbroken line := by
  obtain ⟨_, -, hline⟩ := List.mem_flatMap.mp h
  exact unbroken_of_mem_splitlines hline

theorem cut_blank (lines : List String) : cut ("" :: lines) = [] :: cut lines :=
  cut_cons (by decide) lines

theorem endsBlank_cut {lines : List String} (h : lines.getLast? = some "") :
    EndsBlank (cut lines) := by
  obtain ⟨front, rfl⟩ := List.getLast?_eq_some_iff.mp h
  rw [cut_append, cut_blank]
  intro line hline
  rw [show cut [] = [] from rfl, List.getLast?_concat] at hline
  cases hline
  rfl

theorem startsBlank_cut {lines : List String} (h : lines.head? = some "") :
    ∃ line ∈ (cut lines).head?, stripChars line = [] := by
  obtain ⟨more, rfl⟩ := List.head?_eq_some_iff.mp h
  rw [cut_blank]
  exact ⟨[], rfl, rfl⟩

theorem cut_lines {p : Part} (h : p.WellFormed) : cut p.lines
    = cut p.above ++ p.header.toList :: p.separator.toList
      :: rowLines (p.rows.map printed) := by
  have hrows : cut (p.rows.map rowOf) = rowLines (p.rows.map printed) := by
    rw [cut, rowLines, List.map_map, List.map_map]
    rfl
  rw [Part.lines, cut_append, cut_cons h.unbroken_header,
    cut_cons h.unbroken_separator, hrows]

section Parse

variable [Alphanumeric]

/-- The blocks of a part. -/
def Part.blocks (p : Part) : List Block :=
  parseLines (cut p.above) ++ [tableOf p.header.toList (p.rows.map printed)]

/-- A part that is read back as its blocks. -/
structure Part.Parsable (p : Part) : Prop where
  even_fences : Even (fences (cut p.above))
  plain : ∀ cells ∈ p.rows, ∀ cell ∈ cells, Plain cell.print

/-- And its cells are exported as they are. -/
structure Part.Legible (p : Part) : Prop extends p.Parsable where
  clear : ∀ cells ∈ p.rows, ∀ cell ∈ cells, cell.Clear

/-- Parts are read back at the front of a text exactly when each is parsable. -/
theorem parts_prefix_iff (hpunct : Alphanumeric.isAlnum '|' = false)
    {parts : List Part} {rest : List String}
    (hparts : ∀ p ∈ parts, p.WellFormed)
    (hblank : ∀ p ∈ parts.tail, p.above.head? = some "")
    (hrest : rest.head? = some "") :
    parts.flatMap Part.blocks
        <+: parseLines (cut (parts.flatMap Part.lines ++ rest))
      ↔ ∀ p ∈ parts, p.Parsable := by
  induction parts with
  | nil => exact iff_of_true (List.nil_prefix ..) (List.forall_mem_nil _)
  | cons p parts ih =>
      obtain ⟨hp, hparts⟩ := List.forall_mem_cons.mp hparts
      have hnext : (parts.flatMap Part.lines ++ rest).head? = some "" := by
        cases parts with
        | nil => exact hrest
        | cons q parts =>
            have hq : q.above.head? = some "" := hblank q (List.mem_cons_self ..)
            rw [List.flatMap_cons, Part.lines, List.append_assoc, List.append_assoc,
              List.head?_append, hq]
            rfl
      have hlines : cut ((p :: parts).flatMap Part.lines ++ rest)
          = cut p.above ++ p.header.toList :: p.separator.toList
            :: (rowLines (p.rows.map printed)
              ++ cut (parts.flatMap Part.lines ++ rest)) := by
        rw [List.flatMap_cons, List.append_assoc, cut_append, cut_lines hp,
          List.append_assoc]
        rfl
      have hunbroken : ∀ line ∈ cut p.above ++ p.header.toList :: p.separator.toList
          :: (rowLines (p.rows.map printed)
            ++ cut (parts.flatMap Part.lines ++ rest)),
          Unbroken line := fun line hline =>
        unbroken_of_mem_cut (hlines ▸ hline)
      have hlength : ∀ cells ∈ p.rows.map printed,
          cells.length = (splitTableRow p.header.toList).length :=
        List.forall_mem_map.mpr fun cells hcells => by
          rw [printed, List.length_map]
          exact hp.length_cells cells hcells
      have hplain : (∀ cells ∈ p.rows.map printed, ∀ cell ∈ cells, Plain cell)
          ↔ ∀ cells ∈ p.rows, ∀ cell ∈ cells, Plain cell.print := by
        simp only [printed, List.forall_mem_map]
      rw [hlines, List.flatMap_cons, Part.blocks, List.append_assoc,
        List.singleton_append, table_prefix_iff hpunct (endsBlank_cut hp.blank_last)
          hunbroken hp.isTableStart hlength (startsBlank_cut hnext), hplain,
        ih hparts fun q hq => hblank q (List.mem_of_mem_tail hq),
        List.forall_mem_cons]
      exact ⟨fun h => ⟨⟨h.1, h.2.1⟩, h.2.2⟩, fun h => ⟨h.1.1, h.1.2, h.2⟩⟩

end Parse

/-- Joined lines, the last of them empty, are cut one by one. -/
theorem splitlines_join (lines : List String) :
    splitlines (join "\n" (lines ++ [""])).toList = cut lines := by
  have hjoin : (join "\n" (lines ++ [""])).toList
      = unlines (lines.map String.toList) := by
    induction lines with
    | nil => rfl
    | cons line lines ih =>
        rw [List.cons_append, join, String.intercalate_cons_of_ne_nil (by simp),
          String.toList_append, String.toList_append]
        rw [join] at ih
        rw [ih]
        rfl
  rw [hjoin, splitlines_unlines]
  rfl

/-- The blocks of a report begin with those of its parts, and the exporters
write the cells of these as they are. -/
def Carried [Alphanumeric] (parts : List Part) (report : String) : Prop :=
  parts.flatMap Part.blocks <+: parseBlocks report
    ∧ ∀ p ∈ parts, ∀ cells ∈ p.rows, ∀ cell ∈ cells, cell.Exported

theorem carried_join_iff [Alphanumeric] (hpunct : Alphanumeric.isAlnum '|' = false)
    {parts : List Part} {rest : List String} (hwell : ∀ p ∈ parts, p.WellFormed)
    (hblank : ∀ p ∈ parts.tail, p.above.head? = some "")
    (hrest : rest.head? = some "") :
    Carried parts (join "\n" (parts.flatMap Part.lines ++ rest ++ [""]))
      ↔ ∀ p ∈ parts, p.Legible := by
  have hcells {p : Part} (hp : p.Parsable) :
      (∀ cells ∈ p.rows, ∀ cell ∈ cells, cell.Exported)
        ↔ ∀ cells ∈ p.rows, ∀ cell ∈ cells, cell.Clear :=
    forall₄_congr fun cells hrow cell hcell =>
      exported_iff_clear (hp.plain cells hrow cell hcell).no_newline
  rw [Carried, parseBlocks, splitlines_join, parts_prefix_iff hpunct hwell hblank hrest]
  constructor
  · rintro ⟨hparsable, hexported⟩ p hp
    exact ⟨hparsable p hp, (hcells (hparsable p hp)).mp (hexported p hp)⟩
  · intro hlegible
    exact ⟨fun p hp => (hlegible p hp).toParsable,
      fun p hp => (hcells (hlegible p hp).toParsable).mpr (hlegible p hp).clear⟩

/-- The tables of the features, of the candidates and of the comparison. -/
theorem tableHead_features : TableHead
    "| 特征编号 | 特征类型 | 所在段落 | 特征具体技术内容 |" "| :--- | :--- | :--- | :--- |" 4 :=
  ⟨by decide, by decide, by decide, by decide⟩

theorem tableHead_candidates : TableHead
    "| 公开号 | 发明名称 | 初筛结论 | 排除原因与代理师批注 |" "| :--- | :--- | :--- | :--- |" 4 :=
  ⟨by decide, by decide, by decide, by decide⟩

theorem tableHead_chart : TableHead
    "| 特征项 | 对比文献 | 判定结论 | 引文位置与原文摘录 | 技术论证分析 |"
    "| :--- | :--- | :--- | :--- | :--- |" 5 :=
  ⟨by decide, by decide, by decide, by decide⟩

-- ==================================================== the rows of the items

section Items

variable {ν : Type _} [JsonNumber ν] [Printable]

/-- The cells of a feature. -/
def featureCells (f : Json ν) : Py (List ReportCell) := do
  let featureType ← f.get "feature_type"
  let typeText :=
    if featureType.equal (.str "preamble") then "前序特征" else "表征特征"
  return [.code (← fieldShown f "feature_code"), .text typeText,
    .code (← fieldOr f "source_paragraph_id" "全文"),
    .text (← fieldShown f "feature_statement")]

/-- The cells of a candidate. -/
def candidateCells (c : Json ν) : Py (List ReportCell) := do
  let status ← c.get "triage_status"
  let statusText :=
    if status.equal (.str "included") then "✓ 纳入比对" else "✕ 排除"
  let reason := ((← c.get "exclusion_reason").orElse (← c.get "notes")).orElse
    (.str "符合对比条件")
  return [.code (← fieldShown c "publication_number"),
    .text (← fieldShown c "title"), .text statusText, .text reason.toStr]

/-- The cells of a compared cell of the matrix. -/
def comparisonCells (item : Json ν) : Py (List ReportCell) := do
  let judgment ← item.get "judgment"
  let judgmentText :=
    if judgment.equal (.str "identical") then "🔴 相同公开"
    else if judgment.equal (.str "equivalent") then "🟡 等同替代"
    else "🟢 存在差异"
  let location ← fieldOr item "citation_location" "全文"
  let quote ← item.get "citation_quote"
  let quoteText :=
    if quote.truthy then "“" ++ quote.toStr ++ "”" else "无明确公开"
  return [.code (← fieldShown item "feature_code"),
    .code (← fieldShown item "candidate_pub_number"), .text judgmentText,
    .text (location ++ "<br>" ++ quoteText),
    .text (← fieldShown item "reasoning_analysis")]

/-- The line of an item is the row of its cells. -/
theorem featureLine_eq (f : Json ν) :
    featureLine f = (featureCells f).map rowOf := by
  simp only [featureLine, featureCells, map_bind]
  refine bind_congr_ok fun featureType _ => bind_congr_ok fun code _ =>
    bind_congr_ok fun paragraph _ => bind_congr_ok fun statement _ =>
    congrArg Except.ok ?_
  rw [← String.toList_inj]
  simp [rowOf, printed, ReportCell.print, tableRow, join]

theorem candidateLine_eq (c : Json ν) :
    candidateLine c = (candidateCells c).map rowOf := by
  simp only [candidateLine, candidateCells, map_bind]
  refine bind_congr_ok fun status _ => bind_congr_ok fun exclusion _ =>
    bind_congr_ok fun notes _ => bind_congr_ok fun publication _ =>
    bind_congr_ok fun title _ => congrArg Except.ok ?_
  rw [← String.toList_inj]
  simp [rowOf, printed, ReportCell.print, tableRow, join]

theorem comparisonLine_eq (item : Json ν) :
    comparisonLine item = (comparisonCells item).map rowOf := by
  simp only [comparisonLine, comparisonCells, map_bind]
  refine bind_congr_ok fun judgment _ => bind_congr_ok fun location _ =>
    bind_congr_ok fun quote _ => bind_congr_ok fun code _ =>
    bind_congr_ok fun publication _ => bind_congr_ok fun reasoning _ =>
    congrArg Except.ok ?_
  rw [← String.toList_inj]
  simp [rowOf, printed, ReportCell.print, tableRow, join]

theorem length_featureCells {f : Json ν} {cells : List ReportCell}
    (h : featureCells f = .ok cells) : cells.length = 4 := by
  simp only [featureCells, bind_eq_ok, pure_eq_ok] at h
  obtain ⟨_, -, _, -, _, -, _, -, rfl⟩ := h
  rfl

theorem length_candidateCells {c : Json ν} {cells : List ReportCell}
    (h : candidateCells c = .ok cells) : cells.length = 4 := by
  simp only [candidateCells, bind_eq_ok, pure_eq_ok] at h
  obtain ⟨_, -, _, -, _, -, _, -, _, -, rfl⟩ := h
  rfl

theorem length_comparisonCells {item : Json ν} {cells : List ReportCell}
    (h : comparisonCells item = .ok cells) : cells.length = 5 := by
  simp only [comparisonCells, bind_eq_ok, pure_eq_ok] at h
  obtain ⟨_, -, _, -, _, -, _, -, _, -, _, -, rfl⟩ := h
  rfl

omit [JsonNumber ν] [Printable] in
/-- The lines of items whose lines are rows of cells. -/
theorem rows_of_mapM {line : Json ν → Py String}
    {cellsOf : Json ν → Py (List ReportCell)} {columns : Nat}
    (hline : ∀ item, line item = (cellsOf item).map rowOf)
    (hlength : ∀ item cells, cellsOf item = .ok cells → cells.length = columns)
    {items : List (Json ν)} {lines : List String}
    (h : items.mapM line = .ok lines) :
    ∃ rows, items.mapM cellsOf = .ok rows ∧ lines = rows.map rowOf
      ∧ ∀ cells ∈ rows, cells.length = columns := by
  induction items generalizing lines with
  | nil => exact ⟨[], rfl, (pure_eq_ok.mp h).symm, List.forall_mem_nil _⟩
  | cons item items ih =>
      rw [List.mapM_cons, bind_eq_ok] at h
      obtain ⟨first, hfirst, h⟩ := h
      obtain ⟨others, hothers, h⟩ := bind_eq_ok.mp h
      obtain rfl := pure_eq_ok.mp h
      obtain ⟨rows, hrows, rfl, hall⟩ := ih hothers
      rw [hline] at hfirst
      cases hcells : cellsOf item with
      | error e =>
          rw [hcells] at hfirst
          cases hfirst
      | ok cells =>
          rw [hcells] at hfirst
          obtain rfl := Except.ok.inj hfirst
          refine ⟨cells :: rows, ?_, rfl,
            List.forall_mem_cons.mpr ⟨hlength item cells hcells, hall⟩⟩
          rw [List.mapM_cons, hcells, ok_bind, hrows, ok_bind]
          rfl

-- ============================================================== the report

/-- The parts of a report up to its third table. -/
def reportParts (snapshotPayload : Json ν) (rootSha256 : String) :
    Py (List Part) := do
  let case_ ← snapshotPayload.getD "case" (.obj [])
  let doc ← snapshotPayload.getD "document" (.obj [])
  let featuresPart ← snapshotPayload.getD "features" (.obj [])
  let features ← featuresPart.getD "items" (.arr [])
  let search ← snapshotPayload.getD "search" (.obj [])
  let candidates ← snapshotPayload.getD "candidates" (.arr [])
  let comparison ← snapshotPayload.getD "comparison" (.obj [])
  let sealedAt ← fieldText snapshotPayload "sealed_at" ""
  let sealedBy ← fieldText snapshotPayload "sealed_by" ""
  let heading ← headingLines case_ doc sealedAt sealedBy rootSha256
  let featureRows ← (← features.iter).mapM featureCells
  let searchPart ← searchLines search
  let candidateRows ← (← candidates.iter).mapM candidateCells
  let compItems ← comparison.getD "comparisons" (.arr [])
  let comparisonRows ← (← compItems.iter).mapM comparisonCells
  return [partOf heading featureRows, partOf searchPart candidateRows,
    partOf chartHeading comparisonRows]

theorem headingLines_eq {case_ doc : Json ν} {sealedAt sealedBy root : String}
    {heading : List String}
    (h : headingLines case_ doc sealedAt sealedBy root = .ok heading) :
    ∃ above, above.getLast? = some "" ∧ heading = above
      ++ ["| 特征编号 | 特征类型 | 所在段落 | 特征具体技术内容 |",
        "| :--- | :--- | :--- | :--- |"] := by
  simp only [headingLines, bind_eq_ok, pure_eq_ok] at h
  obtain ⟨_, -, _, -, _, -, _, -, _, -, _, -, rfl⟩ := h
  exact ⟨[_, _, _, _, _, _, _, _, _, _, _, _, _, _, _, _, _, _], rfl, rfl⟩

theorem searchLines_eq {search : Json ν} {lines : List String}
    (h : searchLines search = .ok lines) :
    ∃ above, above.head? = some "" ∧ above.getLast? = some "" ∧ lines = above
      ++ ["| 公开号 | 发明名称 | 初筛结论 | 排除原因与代理师批注 |",
        "| :--- | :--- | :--- | :--- |"] := by
  simp only [searchLines, bind_eq_ok, pure_eq_ok] at h
  obtain ⟨_, -, rfl⟩ := h
  exact ⟨[_, _, _, _, _, _, _, _, _, _, _, _, _, _], rfl, rfl, rfl⟩

omit [JsonNumber ν] [Printable] in
theorem chartHeading_eq : ∃ above, above.head? = some "" ∧ above.getLast? = some ""
    ∧ chartHeading = above ++ ["| 特征项 | 对比文献 | 判定结论 | 引文位置与原文摘录 | 技术论证分析 |",
      "| :--- | :--- | :--- | :--- | :--- |"] :=
  ⟨[_, _, _, _, _], rfl, rfl, rfl⟩

variable [Text.Digits]

/-- A report is its parts, and lines that begin and end with an empty one. -/
theorem parts_of_generate {snapshot : Json ν} {root report : String}
    (h : generate snapshot root = .ok report) :
    ∃ parts rest, reportParts snapshot root = .ok parts
      ∧ (∀ p ∈ parts, p.WellFormed) ∧ (∀ p ∈ parts.tail, p.above.head? = some "")
      ∧ rest.head? = some ""
      ∧ report = join "\n" (parts.flatMap Part.lines ++ rest ++ [""]) := by
  simp only [generate, bind_eq_ok, pure_eq_ok] at h
  obtain ⟨assessment, -, eligibility, -, case_, hcase, doc, hdoc,
    featuresPart, hfeaturesPart, features, hfeatures, search, hsearch,
    candidates, hcandidates, comparison, hcomparison, sealedAt, hsealedAt,
    sealedBy, hsealedBy, heading, hheading, featureItems, hfeatureItems,
    featureLines, hfeatureLines, searchPart, hsearchPart,
    candidateItems, hcandidateItems, candidateLines, hcandidateLines,
    compItems, hcompItems, compared, hcompared,
    comparisonLines, hcomparisonLines, assessed, -, conclusion, -, rfl⟩ := h
  obtain ⟨featureRows, hfeatureRows, rfl, hfeatureLengths⟩ :=
    rows_of_mapM featureLine_eq (fun _ _ => length_featureCells) hfeatureLines
  obtain ⟨candidateRows, hcandidateRows, rfl, hcandidateLengths⟩ :=
    rows_of_mapM candidateLine_eq (fun _ _ => length_candidateCells) hcandidateLines
  obtain ⟨comparisonRows, hcomparisonRows, rfl, hcomparisonLengths⟩ :=
    rows_of_mapM comparisonLine_eq (fun _ _ => length_comparisonCells)
      hcomparisonLines
  have hparts : reportParts snapshot root = .ok [partOf heading featureRows,
      partOf searchPart candidateRows, partOf chartHeading comparisonRows] := by
    simp only [reportParts, hcase, hdoc, hfeaturesPart, hfeatures, hsearch,
      hcandidates, hcomparison, hsealedAt, hsealedBy, hheading, hfeatureItems,
      hfeatureRows, hsearchPart, hcandidateItems, hcandidateRows, hcompItems,
      hcompared, hcomparisonRows, ok_bind]
    rfl
  obtain ⟨above, hlast, rfl⟩ := headingLines_eq hheading
  obtain ⟨above', hfirst', hlast', rfl⟩ := searchLines_eq hsearchPart
  obtain ⟨above'', hfirst'', hlast'', hchart⟩ := chartHeading_eq
  rw [hchart] at hparts ⊢
  obtain ⟨hwell, hlines⟩ :=
    wellFormed_partOf hlast tableHead_features hfeatureLengths
  obtain ⟨hwell', hlines'⟩ :=
    wellFormed_partOf hlast' tableHead_candidates hcandidateLengths
  obtain ⟨hwell'', hlines''⟩ :=
    wellFormed_partOf hlast'' tableHead_chart hcomparisonLengths
  obtain ⟨ending, hending⟩ : ∃ ending, integrityLines sealedAt sealedBy root
      = ending ++ [""] := ⟨[_, _, _, _, _, _, _, _, _, _, _, _], rfl⟩
  refine ⟨_, ["", "---", ""] ++ assessed ++ conclusion ++ ending, hparts, ?_, ?_,
    rfl, ?_⟩
  · simpa using ⟨hwell, hwell', hwell''⟩
  · rw [partOf_append, partOf_append, partOf_append]
    simpa using ⟨hfirst', hfirst''⟩
  · rw [List.flatMap_cons, List.flatMap_cons, List.flatMap_cons, hlines, hlines',
      hlines'', hending]
    simp only [List.flatMap_nil, List.append_assoc, List.append_nil]

/-- A report shows the exporters its tables, with one row for each item and the
cells as they are, exactly when the lines above each table have an even
number of fences and no cell has a bar, a line boundary, outer white space
or marks of bold text or of code. -/
theorem carried_iff [Alphanumeric] (hpunct : Alphanumeric.isAlnum '|' = false)
    {snapshot : Json ν} {root report : String} (h : generate snapshot root = .ok report) :
    ∃ parts, reportParts snapshot root = .ok parts
      ∧ (Carried parts report ↔ ∀ p ∈ parts, p.Legible) := by
  obtain ⟨parts, rest, hread, hwell, hblank, hrest, rfl⟩ := parts_of_generate h
  exact ⟨parts, hread, carried_join_iff hpunct hwell hblank hrest⟩

end Items

-- =============================================================== two payloads

instance (cell : String) : Decidable (Plain cell) :=
  decidable_of_iff ('|' ∉ cell.toList ∧ Unbroken cell.toList
    ∧ stripChars cell.toList = cell.toList)
    ⟨fun h => ⟨h.1, h.2.1, h.2.2⟩, fun h => ⟨h.1, h.2, h.3⟩⟩

instance [Alphanumeric] (p : Part) : Decidable p.Legible :=
  decidable_of_iff (Even (fences (cut p.above))
    ∧ (∀ cells ∈ p.rows, ∀ cell ∈ cells, Plain cell.print)
    ∧ ∀ cells ∈ p.rows, ∀ cell ∈ cells, cell.Clear)
    ⟨fun h => ⟨⟨h.1, h.2.1⟩, h.2.2⟩,
      fun h => ⟨h.even_fences, h.plain, h.clear⟩⟩

local instance tableAlphanumeric : Alphanumeric := Scan.asciiAlphanumeric

local instance tableDigits : Digits := Scan.asciiDigits

local instance tablePrintable : Printable := ⟨fun _ => false⟩

/-- A payload with one item for each table, and this statement of the feature. -/
def payloadOf (statement : String) : Json Int :=
  .obj [
    ("features", .obj [("items", .arr [.obj [("feature_code", .str "F1"),
      ("feature_type", .str "preamble"), ("feature_statement", .str statement)]])]),
    ("candidates", .arr [.obj [("publication_number", .str "CN1A"),
      ("title", .str "装置"), ("triage_status", .str "included")]]),
    ("comparison", .obj [("comparisons", .arr [.obj [("feature_code", .str "F1"),
      ("candidate_pub_number", .str "CN1A"), ("judgment", .str "identical"),
      ("citation_quote", .str "转轴"), ("reasoning_analysis", .str "相同")]])])]

/-- The report of a payload, and whether its parts are legible. -/
theorem exists_report (snapshot : Json Int) (root : String) {legible : Bool}
    (hreport : (generate snapshot root).toOption.isSome = true)
    (hparts : (reportParts snapshot root).toOption.map
      (fun parts => decide (∀ p ∈ parts, p.Legible)) = some legible) :
    ∃ report parts, generate snapshot root = .ok report
      ∧ reportParts snapshot root = .ok parts
      ∧ decide (∀ p ∈ parts, p.Legible) = legible := by
  obtain ⟨report, hreport⟩ := Option.isSome_iff_exists.mp hreport
  obtain ⟨parts, hread, hlegible⟩ := Option.map_eq_some_iff.mp hparts
  exact ⟨report, parts, toOption_eq_some.mp hreport, toOption_eq_some.mp hread,
    hlegible⟩

theorem carried_iff_hinge : ∃ report parts,
    generate (payloadOf "转轴") "ab12" = .ok report
      ∧ reportParts (payloadOf "转轴") "ab12" = .ok parts ∧ Carried parts report := by
  obtain ⟨report, parts, hreport, hparts, hlegible⟩ :=
    exists_report (payloadOf "转轴") "ab12" (by decide +kernel)
      (by decide +kernel : _ = some true)
  obtain ⟨parts', hparts', hiff⟩ := carried_iff rfl hreport
  obtain rfl := Except.ok.inj (hparts.symm.trans hparts')
  exact ⟨report, parts, hreport, hparts, hiff.mpr (of_decide_eq_true hlegible)⟩

/-- A bar in the statement of a feature begins another cell. -/
theorem not_carried_bar : ∃ report parts,
    generate (payloadOf "转轴|铰链") "ab12" = .ok report
      ∧ reportParts (payloadOf "转轴|铰链") "ab12" = .ok parts
      ∧ ¬ Carried parts report := by
  obtain ⟨report, parts, hreport, hparts, hlegible⟩ :=
    exists_report (payloadOf "转轴|铰链") "ab12" (by decide +kernel)
      (by decide +kernel : _ = some false)
  obtain ⟨parts', rest, hparts', hwell, hblank, hrest, hjoin⟩ :=
    parts_of_generate hreport
  obtain rfl := Except.ok.inj (hparts.symm.trans hparts')
  refine ⟨report, parts, hreport, hparts, fun hcarried => ?_⟩
  rw [hjoin] at hcarried
  exact of_decide_eq_false hlegible
    ((carried_join_iff rfl hwell hblank hrest).mp hcarried)

end PatentEvidence.Reports
