/-
Candidates out of pasted search results (modules/search/importer.py).

A CNIPR export is read as a table whose columns are found by their
headings; without a heading the first column has the numbers. What is no
table is read line by line. `csv.reader` is written out as its state
machine, over the lines of the text, the end of a line being an input of
its own.
-/
import PatentEvidence.Lib.Json
import PatentEvidence.Lib.Text

namespace PatentEvidence.Search

open Text

/-- The language's tables of letter case. -/
class Casing where
  lower : String → String
  upper : String → String

/-- Why a request is refused. -/
inductive SearchError
  | http (statusCode : Nat) (detail : String)
  | csvError (message : String)
  | attributeError
  | indexError
  /-- a constraint of the database -/
  | integrityError
  deriving DecidableEq

-- ============================================================ csv.reader

inductive CsvState
  | startRecord
  | startField
  | inField
  | inQuotedField
  | quoteInQuotedField
  | eatCrnl
  deriving DecidableEq

/-- The reader inside a record. -/
structure CsvReader where
  state : CsvState := .startRecord
  field : List Char := []
  fields : List String := []

/-- `csv.field_size_limit()`. -/
def fieldSizeLimit : Nat := 131072

namespace CsvReader

def saveField (reader : CsvReader) (state : CsvState) : CsvReader where
  state := state
  field := []
  fields := reader.fields ++ [String.ofList reader.field]

def addChar (reader : CsvReader) (c : Char) (state : CsvState) :
    Except SearchError CsvReader :=
  if fieldSizeLimit ≤ reader.field.length then
    .error (.csvError "field larger than field limit (131072)")
  else .ok { reader with state := state, field := reader.field ++ [c] }

/-- A character of a field that may end here. -/
def fieldChar (delimiter : Char) (reader : CsvReader) (c : Char) :
    Except SearchError CsvReader :=
  if c = '\n' ∨ c = '\r' then .ok (reader.saveField .eatCrnl)
  else if c = delimiter then .ok (reader.saveField .startField)
  else reader.addChar c .inField

/-- A character at the start of a field. -/
def startFieldChar (delimiter : Char) (reader : CsvReader) (c : Char) :
    Except SearchError CsvReader :=
  if c = '"' then .ok { reader with state := .inQuotedField }
  else reader.fieldChar delimiter c

def processChar (delimiter : Char) (reader : CsvReader) (c : Char) :
    Except SearchError CsvReader :=
  match reader.state with
  | .startRecord =>
      if c = '\n' ∨ c = '\r' then .ok { reader with state := .eatCrnl }
      else reader.startFieldChar delimiter c
  | .startField => reader.startFieldChar delimiter c
  | .inField => reader.fieldChar delimiter c
  | .inQuotedField =>
      if c = '"' then .ok { reader with state := .quoteInQuotedField }
      else reader.addChar c .inQuotedField
  | .quoteInQuotedField =>
      if c = '"' then reader.addChar c .inQuotedField
      else reader.fieldChar delimiter c
  | .eatCrnl =>
      if c = '\n' ∨ c = '\r' then .ok reader
      else .error (.csvError ("new-line character seen in unquoted field - "
        ++ "do you need to open the file with newline=\x27\x27?"))

/-- The end of a line. -/
def endLine (reader : CsvReader) : CsvReader :=
  match reader.state with
  | .startRecord => reader
  | .startField | .inField | .quoteInQuotedField => reader.saveField .startRecord
  | .inQuotedField => reader
  | .eatCrnl => { reader with state := .startRecord }

end CsvReader

/-- The lines of `io.StringIO`, each with its end. -/
def stringLines (line : List Char) : List Char → List (List Char)
  | [] => if line = [] then [] else [line]
  | c :: cs =>
      if c = '\n' then (line ++ [c]) :: stringLines [] cs
      else stringLines (line ++ [c]) cs

/-- `list(reader)`: an unfinished quoted field ends with the text. -/
def csvRecords (delimiter : Char) (reader : CsvReader) :
    List (List Char) → Except SearchError (List (List String))
  | [] =>
      if reader.field ≠ [] ∨ reader.state = .inQuotedField then
        .ok [(reader.saveField .startRecord).fields]
      else .ok []
  | line :: lines => do
      let after := (← line.foldlM (·.processChar delimiter ·) reader).endLine
      if after.state = .startRecord then
        return after.fields :: (← csvRecords delimiter {} lines)
      else csvRecords delimiter after lines

/-- `list(csv.reader(io.StringIO(content), delimiter=delimiter))`. -/
def csvRows (delimiter : Char) (content : String) :
    Except SearchError (List (List String)) :=
  csvRecords delimiter {} (stringLines [] content.toList)

-- ============================================================ candidates

structure ImportedCandidate (ν : Type _) where
  publicationNumber : String
  publicationNumberNormalized : String
  title : String
  abstract : String
  publicationDate : Option String := none
  applicant : Option String := none
  ipcClassification : Option String := none
  sourceType : String := "cnipr_manual"
  rawMetadata : Option (List (String × Json ν)) := none

variable [Casing]

/-- `normalize_pub_number`. -/
def normalizePubNumber (pubNo : String) : String :=
  Casing.upper (String.ofList (pubNo.toList.filter fun c =>
    !(isSpace c || c ∈ ['.', '-', '_', '/'])))

/-- The title of a candidate that has none. -/
def numberTitle (normPub : String) : String := "专利 " ++ normPub

-- =============================================================== columns

/-- The columns found so far, by their indices. -/
structure CsvColumns where
  pub : Option Nat := none
  title : Option Nat := none
  abstract : Option Nat := none
  date : Option Nat := none
  applicant : Option Nat := none
  ipc : Option Nat := none

def pubHeadings : List String :=
  ["公开号", "公告号", "公开(公告)号", "申请号", "申请(专利)号", "pub_no",
    "publication", "doc_number"]

def titleHeadings : List String :=
  ["发明名称", "专利名称", "名称", "标题", "题名", "title"]

def abstractHeadings : List String := ["摘要", "文摘", "摘要(文摘)", "abstract"]

def dateHeadings : List String :=
  ["公开日", "公告日", "公开(公告)日", "申请日", "date"]

def applicantHeadings : List String :=
  ["申请人", "专利权人", "申请人/专利权人", "当前权利人", "applicant",
    "assignee"]

def ipcHeadings : List String := ["主分类号", "分类号", "ipc", "cpc"]

/-- `.replace("（", "(").replace("）", ")")`. -/
def plainBrackets (s : String) : String :=
  String.ofList (s.toList.map fun c =>
    if c = '（' then '(' else if c = '）' then ')' else c)

/-- One turn of the loop over the headings: the first column of a kind
counts. -/
def headingColumn (columns : CsvColumns) (heading : String × Nat) : CsvColumns :=
  let (h, i) := heading
  let hClean := strip (plainBrackets (Casing.lower h))
  let named (headings : List String) : Bool := headings.any fun k => occursIn k hClean
  if named pubHeadings then { columns with pub := columns.pub <|> some i }
  else if named titleHeadings then
    { columns with title := columns.title <|> some i }
  else if named abstractHeadings then
    { columns with abstract := columns.abstract <|> some i }
  else if named dateHeadings then
    { columns with date := columns.date <|> some i }
  else if named applicantHeadings then
    { columns with applicant := columns.applicant <|> some i }
  else if named ipcHeadings then { columns with ipc := columns.ipc <|> some i }
  else columns

/-- `row[idx].strip()`, where the row has the column. -/
def cell (row : List String) (idx : Option Nat) : Option String :=
  (idx.bind fun i => row[i]?).map strip

-- =============================================================== reading

variable {ν : Type _}

/-- One row of an export, where it has a number. -/
def rowCandidate (pub : Nat) (columns : CsvColumns) (row : List String) :
    Option (ImportedCandidate ν) := do
  let rawPub ← cell row (some pub)
  guard (rawPub ≠ "")
  let normPub := normalizePubNumber rawPub
  guard (normPub ≠ "")
  let title := (cell row columns.title).getD (numberTitle normPub)
  return {
    publicationNumber := rawPub
    publicationNumberNormalized := normPub
    title := if title = "" then numberTitle normPub else title
    abstract := (cell row columns.abstract).getD ""
    publicationDate := cell row columns.date
    applicant := cell row columns.applicant
    ipcClassification := cell row columns.ipc
    sourceType := "cnipr_manual"
    rawMetadata := some [("raw_row", .arr (row.map .str))] }

/-- `import_from_csv`. -/
def importFromCsv (csvContent : String) :
    Except SearchError (List (ImportedCandidate ν)) := do
  if Blank csvContent then return []
  let delimiter := if '\t' ∈ csvContent.toList.take 1024 then '\t' else ','
  match ← csvRows delimiter csvContent with
  | [] => return []
  | header :: body =>
      let headers := header.map strip
      let columns := headers.zipIdx.foldl headingColumn {}
      match columns.pub with
      | some pub => return body.filterMap (rowCandidate pub columns)
      | none =>
          let title := if 1 < headers.length then 1 else 0
          return (header :: body).filterMap
            (rowCandidate 0 { columns with title := some title })

/-- `import_from_text`. -/
def importFromText (text : String) :
    Except SearchError (List (ImportedCandidate ν)) := do
  let lines := ((splitLines (stripChars text.toList)).map stripChars).filter (· ≠ [])
  let read ← lines.mapM fun line =>
    if '\t' ∈ line ∨ ',' ∈ line then importFromCsv (String.ofList line)
    else
      let normPub := normalizePubNumber (String.ofList line)
      .ok (if normPub ≠ "" then
        [{ publicationNumber := String.ofList line
           publicationNumberNormalized := normPub
           title := numberTitle normPub
           abstract := ""
           sourceType := "cnipr_manual" }]
      else [])
  return read.flatten

end PatentEvidence.Search
