/-
The document parser (modules/cases/parser.py): the text of a DOCX, PDF or
plain-text file, and its paragraphs with their positions in that text.

Reading the formats is python-docx's and pypdf's; what they find in a file
is a parameter (`Readers`), and so are the decoder, the digest and the
drawing extractor. Positions count characters. Every block is appended by
`Progress.append`; who calls it brings the number of the block.
-/
import PatentEvidence.Lib.Fallible
import PatentEvidence.Lib.Text

namespace PatentEvidence.Cases

open Text

-- ============================================================= documents

/-- A paragraph of a DOCX: its text, and the name of its style if it has a
style and that a name. -/
structure DocxParagraph where
  text : String
  styleName : Option String

/-- The paragraphs, and the texts of the cells of the rows of the tables. -/
structure Docx where
  paragraphs : List DocxParagraph
  tables : List (List (List String))

/-- `ParagraphBlock`, with `sectionName` for its `section`. -/
structure ParagraphBlock where
  id : String
  index : Nat
  sectionName : String
  text : String
  offsetStart : Nat
  offsetEnd : Nat
  deriving DecidableEq

structure ParsedDocument (Drawing : Type) where
  parsedText : String
  paragraphs : List ParagraphBlock
  sha256 : String
  isScanned : Bool := false
  drawings : List Drawing := []
  deriving DecidableEq

/-- What is not this module's. A page has no text where `extract_text`
returns none. -/
structure Readers (Error Drawing : Type) where
  sha256 : ByteArray → String
  document : ByteArray → Except Error Docx
  pdfPages : ByteArray → Except Error (List (Option String))
  decode : ByteArray → String
  extractDrawings : ByteArray → String → Option String → String →
    Except Error (List Drawing)

-- ======================================================= blocks in order

/-- `paragraphs`, `full_text_chunks` and `current_offset`. -/
structure Progress where
  paragraphs : List ParagraphBlock := []
  fullTextChunks : List String := []
  currentOffset : Nat := 0

/-- One more block, and the newline behind it. -/
def Progress.append (progress : Progress) (idx : Nat)
    (sectionName text : String) : Progress :=
  let offsetStart := progress.currentOffset
  let offsetEnd := offsetStart + text.length
  { paragraphs := progress.paragraphs ++
      [{ id := "p" ++ toString idx, index := idx, sectionName, text,
         offsetStart, offsetEnd }]
    fullTextChunks := progress.fullTextChunks ++ [text]
    currentOffset := offsetEnd + 1 }

/-- `full_text`. -/
def Progress.fullText (progress : Progress) : String :=
  join "\n" progress.fullTextChunks

/-- With `idx`, where the loop counts by hand. -/
structure Counted extends Progress where
  idx : Nat := 1

def Counted.append (counted : Counted) (sectionName text : String) : Counted :=
  { counted.toProgress.append counted.idx sectionName text with
    idx := counted.idx + 1 }

/-- `[line.strip() for line in text.split("\n") if line.strip()]`. -/
def strippedLines (text : String) : List String :=
  ((text.toList.splitOn '\n').map fun line => String.ofList (stripChars line)).filter
    fun line => decide (line ≠ "")

-- ================================================================== DOCX

/-- With `current_section`. -/
structure DocxState extends Counted where
  currentSection : String := "正文"

/-- The loop over the paragraphs. -/
def docxParagraph (state : DocxState) (p : DocxParagraph) : DocxState :=
  let rawText := strip p.text
  if rawText = "" then state
  else
    let styleName := lower (p.styleName.getD "")
    let currentSection :=
      if occursIn "heading" styleName || occursIn "title" styleName then
        String.ofList (rawText.toList.take 64)
      else state.currentSection
    { state.toCounted.append currentSection rawText with currentSection }

/-- The text of a row; an empty one is dropped. -/
def rowText (row : List String) : String :=
  join " | " ((row.map strip).filter fun cell => decide (cell ≠ ""))

/-- The loop over the tables, from 1. -/
def docxTable (state : DocxState) (table : List (List String) × Nat) :
    DocxState :=
  let tableRowsText := (table.1.map rowText).filter fun row => decide (row ≠ "")
  if tableRowsText = [] then state
  else
    let title := "表格 " ++ toString table.2
    { state.toCounted.append title
        ("[" ++ title ++ "]\n" ++ join "\n" tableRowsText) with
      currentSection := state.currentSection }

/-- The blocks of a DOCX. -/
def docxBlocks (doc : Docx) : DocxState :=
  (doc.tables.zipIdx 1).foldl docxTable (doc.paragraphs.foldl docxParagraph {})

-- =================================================================== PDF

/-- `line.endswith((".", "。", "；", ";", "：", ":", "！", "!"))`. -/
def endsParagraph (line : String) : Bool :=
  match line.toList.getLast? with
  | some c => ['.', '。', '；', ';', '：', ':', '！', '!'].contains c
  | none => false

/-- With `current_para_lines`. -/
structure PageState extends Counted where
  currentParaLines : List String := []

/-- The lines read so far as a block. -/
def PageState.flush (state : PageState) (sectionName : String) : PageState :=
  { state.toCounted.append sectionName (join " " state.currentParaLines) with
    currentParaLines := [] }

/-- The loop over the lines of a page. -/
def pageLine (sectionName : String) (state : PageState) (line : String) :
    PageState :=
  let state :=
    { state with currentParaLines := state.currentParaLines ++ [line] }
  if endsParagraph line then state.flush sectionName else state

/-- The loop over the pages, from 1. -/
def pdfPage (counted : Counted) (page : Option String × Nat) : Counted :=
  let sectionName := "第 " ++ toString page.2 ++ " 页"
  let state := (strippedLines (page.1.getD "")).foldl (pageLine sectionName)
    { counted with currentParaLines := [] }
  if state.currentParaLines = [] then state.toCounted
  else (state.flush sectionName).toCounted

/-- The blocks of a PDF. -/
def pdfBlocks (pages : List (Option String)) : Counted :=
  (pages.zipIdx 1).foldl pdfPage {}

-- ================================================================== text

/-- The loop over the lines of a text; it is `enumerate` that counts. -/
def textLine (progress : Progress) (line : String × Nat) : Progress :=
  progress.append line.2 "正文" line.1

/-- The blocks of a plain text. -/
def textBlocks (text : String) : Progress :=
  ((strippedLines text).zipIdx 1).foldl textLine {}

-- ================================================================ parser

section Parser

variable {Error Drawing : Type} (readers : Readers Error Drawing)

/-- The document of some blocks, scanned if `fewer` than so many characters
are left of the stripped text. -/
def Progress.document (progress : Progress) (sha256 : String) (fewer : Nat) :
    ParsedDocument Drawing where
  parsedText := progress.fullText
  paragraphs := progress.paragraphs
  sha256 := sha256
  isScanned := decide ((strip progress.fullText).length < fewer)

/-- `_parse_docx`. -/
def parseDocx (data : ByteArray) (sha256 : String) :
    Except Error (ParsedDocument Drawing) := do
  let doc ← readers.document data
  return (docxBlocks doc).document sha256 1

/-- `_parse_pdf`. -/
def parsePdf (data : ByteArray) (sha256 : String) :
    Except Error (ParsedDocument Drawing) := do
  let pages ← readers.pdfPages data
  return (pdfBlocks pages).document sha256 50

/-- `_parse_text`. -/
def parseText (text sha256 : String) : ParsedDocument Drawing :=
  (textBlocks text).document sha256 1

def docxMimeType : String :=
  "application/vnd.openxmlformats-officedocument.wordprocessingml.document"

/-- `filename.lower().endswith(extension)`. -/
def hasExtension (extension filename : String) : Bool :=
  extension.toList.isSuffixOf (lower filename).toList

/-- `doc_result`. -/
def docResult (data : ByteArray) (filename : String) (mimeType : Option String)
    (sha256 : String) : Except Error (ParsedDocument Drawing) :=
  if hasExtension ".docx" filename || mimeType == some docxMimeType then
    parseDocx readers data sha256
  else if hasExtension ".pdf" filename
      || mimeType == some "application/pdf" then
    parsePdf readers data sha256
  else .ok (parseText (readers.decode data) sha256)

/-- `parse_bytes`. -/
def parseBytes (data : ByteArray) (filename : String)
    (mimeType : Option String) : Except Error (ParsedDocument Drawing) := do
  let result ← docResult readers data filename mimeType (readers.sha256 data)
  let drawings ←
    readers.extractDrawings data filename mimeType result.parsedText
  return { result with drawings }

end Parser

end PatentEvidence.Cases
