/-
The paragraphs of a parsed document are where they say they are.

Four loops append blocks, and each keeps an offset and an index by hand.
`InStep` says what they keep: the blocks have the texts of the chunks, their
spans are those of the chunks laid out one after the other, the offset is
where the next chunk would stand, and the blocks are numbered from 1.
Appending a block with the next number keeps this (`InStep.append`), and
every loop appends with the next number, whether it counts itself
(`CountedInStep`) or `enumerate` does. The text is the chunks joined by
newlines, so what holds of the layout holds of the blocks (`anchored`).
-/
import PatentEvidence.Cases.Parser
import PatentEvidence.Lib.Layout
import PatentEvidence.Lib.Run

namespace PatentEvidence.Cases

open Fallible Layout Runs Text

-- ========================================================= the invariant

def ParagraphBlock.span (block : ParagraphBlock) : Nat × Nat :=
  (block.offsetStart, block.offsetEnd)

/-- The loops are in step. -/
structure InStep (progress : Progress) : Prop where
  texts : progress.paragraphs.map ParagraphBlock.text = progress.fullTextChunks
  spans : progress.paragraphs.map ParagraphBlock.span
    = spans 0 (progress.fullTextChunks.map String.toList)
  offset : progress.currentOffset
    = next 0 (progress.fullTextChunks.map String.toList)
  numbers : progress.paragraphs.map (fun block => (block.id, block.index))
    = (List.range progress.paragraphs.length).map
      fun i => ("p" ++ toString (i + 1), i + 1)

theorem inStep_start : InStep {} := ⟨rfl, rfl, rfl, rfl⟩

/-- A block with the next number keeps them so. -/
theorem InStep.append {progress : Progress} (h : InStep progress) {idx : Nat}
    (hidx : idx = progress.paragraphs.length + 1) (sectionName text : String) :
    InStep (progress.append idx sectionName text) := by
  subst hidx
  unfold Progress.append
  refine ⟨?_, ?_, ?_, ?_⟩
  · simp [h.texts]
  · rw [List.map_append, List.map_append, h.spans, List.map_singleton,
      List.map_singleton, spans_concat, ← h.offset]
    rfl
  · rw [List.map_append, List.map_singleton, next_concat, ← h.offset]
    rfl
  · rw [List.map_append, List.length_append, List.length_singleton,
      List.range_succ, List.map_append, h.numbers]
    rfl

/-- With the number of the next block counted by hand. -/
structure CountedInStep (counted : Counted) : Prop where
  inStep : InStep counted.toProgress
  idx : counted.idx = counted.paragraphs.length + 1

theorem countedInStep_start : CountedInStep {} := ⟨inStep_start, rfl⟩

theorem CountedInStep.append {counted : Counted} (h : CountedInStep counted)
    (sectionName text : String) :
    CountedInStep (counted.append sectionName text) := by
  refine ⟨h.inStep.append h.idx sectionName text, ?_⟩
  simp [Counted.append, Progress.append, h.idx]

-- ============================================================== the loops

theorem countedInStep_docxParagraph (state : DocxState) (p : DocxParagraph)
    (h : CountedInStep state.toCounted) :
    CountedInStep (docxParagraph state p).toCounted := by
  unfold docxParagraph
  dsimp only
  split
  · exact h
  · exact h.append _ _

theorem countedInStep_docxTable (state : DocxState)
    (table : List (List String) × Nat) (h : CountedInStep state.toCounted) :
    CountedInStep (docxTable state table).toCounted := by
  unfold docxTable
  dsimp only
  split
  · exact h
  · exact h.append _ _

theorem countedInStep_docxBlocks (doc : Docx) :
    CountedInStep (docxBlocks doc).toCounted := by
  have hparagraphs :
      CountedInStep (doc.paragraphs.foldl docxParagraph {}).toCounted :=
    run_invariant_of_forall
      (I := fun state : DocxState => CountedInStep state.toCounted)
      countedInStep_docxParagraph countedInStep_start
  exact run_invariant_of_forall
    (I := fun state : DocxState => CountedInStep state.toCounted)
    countedInStep_docxTable hparagraphs

theorem countedInStep_flush {state : PageState} (sectionName : String)
    (h : CountedInStep state.toCounted) :
    CountedInStep (state.flush sectionName).toCounted :=
  h.append _ _

theorem countedInStep_pageLine (sectionName : String) (state : PageState)
    (line : String) (h : CountedInStep state.toCounted) :
    CountedInStep (pageLine sectionName state line).toCounted := by
  unfold pageLine
  dsimp only
  split
  · exact countedInStep_flush sectionName h
  · exact h

theorem countedInStep_pdfPage (counted : Counted) (page : Option String × Nat)
    (h : CountedInStep counted) : CountedInStep (pdfPage counted page) := by
  have hlines (sectionName : String) :
      CountedInStep ((strippedLines (page.1.getD "")).foldl
        (pageLine sectionName) { counted with currentParaLines := [] }).toCounted :=
    run_invariant_of_forall
      (I := fun state : PageState => CountedInStep state.toCounted)
      (countedInStep_pageLine sectionName) h
  unfold pdfPage
  dsimp only
  split
  · exact hlines _
  · exact countedInStep_flush _ (hlines _)

theorem countedInStep_pdfBlocks (pages : List (Option String)) :
    CountedInStep (pdfBlocks pages) :=
  run_invariant_of_forall countedInStep_pdfPage countedInStep_start

/-- `enumerate` counts the lines, and every line is a block. -/
theorem inStep_textLines {progress : Progress} (h : InStep progress)
    (lines : List String) :
    InStep ((lines.zipIdx (progress.paragraphs.length + 1)).foldl textLine
      progress) := by
  induction lines generalizing progress with
  | nil => exact h
  | cons line lines ih =>
      have hnext := ih (h.append rfl "正文" line)
      have hlength : (progress.append (progress.paragraphs.length + 1) "正文"
          line).paragraphs.length = progress.paragraphs.length + 1 := by
        simp [Progress.append]
      rw [hlength] at hnext
      exact hnext

-- ============================================================ the document

/-- What an anchor relies on. -/
structure Anchored (parsedText : String) (paragraphs : List ParagraphBlock) :
    Prop where
  numbers : paragraphs.map (fun block => (block.id, block.index))
    = (List.range paragraphs.length).map
      fun i => ("p" ++ toString (i + 1), i + 1)
  reads : ∀ block ∈ paragraphs, block.offsetStart ≤ block.offsetEnd
    ∧ slice parsedText.toList block.offsetStart block.offsetEnd
      = block.text.toList
  separated : paragraphs.IsChain fun block block' =>
    block'.offsetStart = block.offsetEnd + 1
      ∧ slice parsedText.toList block.offsetEnd block'.offsetStart = ['\n']
  starts : ∀ block ∈ paragraphs.head?, block.offsetStart = 0
  ends : ∀ block ∈ paragraphs.getLast?, block.offsetEnd = parsedText.length
  empty : paragraphs = [] → parsedText = ""

theorem toList_fullText (progress : Progress) :
    progress.fullText.toList
      = [] ++ ['\n'].intercalate (progress.fullTextChunks.map String.toList) := by
  rw [Progress.fullText, join, String.toList_intercalate]
  rfl

/-- Blocks in step are anchored in their text. -/
theorem InStep.anchored {progress : Progress} (h : InStep progress) :
    Anchored progress.fullText progress.paragraphs := by
  have htexts : progress.fullTextChunks.map String.toList
      = progress.paragraphs.map fun block => block.text.toList := by
    rw [← h.texts, List.map_map]
    rfl
  have hread := read_spans '\n' []
    (progress.fullTextChunks.map String.toList)
  have hseparated := separated_spans '\n' []
    (progress.fullTextChunks.map String.toList)
  have hends := getLast_spans '\n' []
    (progress.fullTextChunks.map String.toList)
  rw [← toList_fullText, List.length_nil, ← h.spans] at hread hseparated hends
  refine ⟨h.numbers, ?_, ?_, ?_, ?_, ?_⟩
  · rw [htexts, List.forall₂_map_left_iff, List.forall₂_map_right_iff,
      List.forall₂_same] at hread
    exact hread
  · rw [List.isChain_map] at hseparated
    exact hseparated
  · intro block hblock
    apply head_spans 0 (progress.fullTextChunks.map String.toList) block.span
    rw [← h.spans, List.head?_map]
    exact Option.mem_map_of_mem _ hblock
  · intro block hblock
    rw [← String.length_toList]
    apply hends block.span
    rw [List.getLast?_map]
    exact Option.mem_map_of_mem _ hblock
  · intro hnil
    have hchunks := h.texts
    rw [hnil] at hchunks
    rw [Progress.fullText, ← hchunks]
    rfl

section Parser

variable {Error Drawing : Type} {readers : Readers Error Drawing}

theorem parseDocx_anchored {data : ByteArray} {sha256 : String}
    {doc : ParsedDocument Drawing}
    (h : parseDocx readers data sha256 = .ok doc) :
    Anchored doc.parsedText doc.paragraphs := by
  obtain ⟨docx, -, h⟩ := bind_eq_ok.mp h
  cases h
  exact (countedInStep_docxBlocks docx).inStep.anchored

theorem parsePdf_anchored {data : ByteArray} {sha256 : String}
    {doc : ParsedDocument Drawing}
    (h : parsePdf readers data sha256 = .ok doc) :
    Anchored doc.parsedText doc.paragraphs := by
  obtain ⟨pages, -, h⟩ := bind_eq_ok.mp h
  cases h
  exact (countedInStep_pdfBlocks pages).inStep.anchored

theorem parseText_anchored (text sha256 : String) :
    Anchored (parseText text sha256 : ParsedDocument Drawing).parsedText
      (parseText text sha256 : ParsedDocument Drawing).paragraphs := by
  apply InStep.anchored
  exact inStep_textLines inStep_start (strippedLines text)

theorem docResult_anchored {data : ByteArray} {filename : String}
    {mimeType : Option String} {sha256 : String} {doc : ParsedDocument Drawing}
    (h : docResult readers data filename mimeType sha256 = .ok doc) :
    Anchored doc.parsedText doc.paragraphs := by
  unfold docResult at h
  split at h
  · exact parseDocx_anchored h
  · split at h
    · exact parsePdf_anchored h
    · cases h
      exact parseText_anchored _ _

/-- The blocks of every document the parser returns are numbered from 1 in
order, each reads its text at its offsets, one newline is between two of
them, and with the newlines they are the whole text. -/
theorem parseBytes_anchored {data : ByteArray} {filename : String}
    {mimeType : Option String} {doc : ParsedDocument Drawing}
    (h : parseBytes readers data filename mimeType = .ok doc) :
    Anchored doc.parsedText doc.paragraphs := by
  obtain ⟨result, hresult, h⟩ := bind_eq_ok.mp h
  obtain ⟨drawings, -, h⟩ := bind_eq_ok.mp h
  cases h
  show Anchored result.parsedText result.paragraphs
  exact docResult_anchored hresult

end Parser

-- lines up to one that ends a sentence, and those left over
example : (pdfBlocks [some "1. A hinge\nof steel.\n2. A pin", none]).fullTextChunks
    = ["1. A hinge of steel.", "2. A pin"] := by decide +kernel

/-- A heading, a paragraph and a table in a DOCX. -/
def sampleReaders : Readers Empty Unit where
  sha256 _ := ""
  document _ := .ok {
    paragraphs := [⟨" Claims ", some "Heading 1"⟩, ⟨"", none⟩, ⟨"A hinge.", none⟩]
    tables := [[["part", " "], ["", ""], ["pin", "steel"]]] }
  pdfPages _ := .ok []
  decode _ := ""
  extractDrawings _ _ _ _ := .ok []

theorem parseBytes_anchored_docx :
    Anchored "Claims\nA hinge.\n[表格 1]\npart\npin | steel"
      [⟨"p1", 1, "Claims", "Claims", 0, 6⟩, ⟨"p2", 2, "Claims", "A hinge.", 7, 15⟩,
        ⟨"p3", 3, "表格 1", "[表格 1]\npart\npin | steel", 16, 39⟩] := by
  have hparsed : parseBytes sampleReaders .empty "a.docx" none = .ok
      { parsedText := "Claims\nA hinge.\n[表格 1]\npart\npin | steel"
        paragraphs :=
          [⟨"p1", 1, "Claims", "Claims", 0, 6⟩, ⟨"p2", 2, "Claims", "A hinge.", 7, 15⟩,
            ⟨"p3", 3, "表格 1", "[表格 1]\npart\npin | steel", 16, 39⟩]
        sha256 := "" } := by
    decide +kernel
  exact parseBytes_anchored hparsed

end PatentEvidence.Cases
