/-
What an upload is checked for (modules/cases/upload_guard.py).

The archive and XML libraries are parameters: what a ZIP file lists, with
what reading each entry gives, and the element tree of an XML text. The
archive looks names up, and where several entries have one name it reads
the last. The check of PDFs is a parameter as well.

A library may raise what the guard turns into a rejection, or something
else, which is not an answer of the guard.

# Sections

Targets of relationships; elements; entries; DDE fields; the inspection.
-/
import Mathlib.Data.List.Dedup
import Mathlib.Data.List.Infix
import Mathlib.Data.List.Sort
import Mathlib.Data.String.Basic
import PatentEvidence.Lib.Base32
import PatentEvidence.Lib.Text

namespace PatentEvidence.Uploads

open Text Fallible

-- ============================================================== targets

/-- `[a-z]` of a pattern that ignores case, over all of Unicode. -/
def isSchemeLetter (c : Char) : Bool :=
  c.isAlpha || c ∈ ['İ', 'ı', 'ſ', '\u212a']

/-- `[a-z0-9+.-]`, likewise. -/
def isSchemeChar (c : Char) : Bool :=
  isSchemeLetter c || c.isDigit || c ∈ ['+', '.', '-']

/-- `_URL_SCHEME_RE.match`: the scheme and what follows its colon. -/
def urlScheme : List Char → Option (List Char × List Char)
  | [] => none
  | c :: cs =>
      if isSchemeLetter c then
        match cs.dropWhile isSchemeChar with
        | ':' :: path => some (c :: cs.takeWhile isSchemeChar, path)
        | _ => none
      else none

/-- `_DRIVE_RE.match`. -/
def isDrive : List Char → Bool
  | c :: ':' :: _ => isSchemeLetter c
  | _ => false

def isSeparator (c : Char) : Bool := c = '/' || c = '\\'

/-- `_is_network_target`, of a stripped target. -/
def isNetworkValue (value : List Char) : Bool :=
  let isUnc := ['\\', '\\'].isPrefixOf value || ['/', '/'].isPrefixOf value
  match urlScheme value with
  | none => isUnc
  | some (scheme, path) =>
      if isDrive value then isUnc
      else if lower (String.ofList scheme) ≠ "file" then true
      else
        let slashes := (path.takeWhile isSeparator).length
        slashes = 2 || 4 ≤ slashes

/-- `_is_network_target`. -/
def isNetworkTarget (target : String) : Bool :=
  isNetworkValue (stripChars target.toList)

-- ============================================================= elements

/-- An element of a parsed XML text. -/
inductive Element
  | node (tag : String) (attributes : List (String × String))
      (children : List Element)

namespace Element

/-- `element.get(key)`. -/
def get (key : String) : Element → Option String
  | node _ attributes _ => attributes.lookup key

mutual

/-- `element.iter(tag)`: the element and what is below it, in the order of the
text. -/
def iter (tag : String) : Element → List Element
  | node t attributes children =>
      (if t = tag then [node t attributes children] else [])
        ++ iterAll tag children

def iterAll (tag : String) : List Element → List Element
  | [] => []
  | child :: children => iter tag child ++ iterAll tag children

end

end Element

def dangerousExternalRelationships : List String :=
  ["attachedTemplate", "oleObject", "frame", "subDocument", "externalLinkPath"]

/-- `text.rsplit("/", 1)[-1]`. -/
def afterLastSlash (text : String) : String :=
  String.ofList (text.toList.reverse.takeWhile (· ≠ '/')).reverse

/-- A relationship that Word follows to a network location by itself. -/
def isDangerous (rel : Element) : Bool :=
  rel.get "TargetMode" = some "External"
    && afterLastSlash ((rel.get "Type").getD "") ∈ dangerousExternalRelationships
    && isNetworkTarget ((rel.get "Target").getD "")

def relationshipTag : String :=
  "\x7bhttp://schemas.openxmlformats.org/package/2006/relationships\x7dRelationship"

-- ============================================================ libraries

/-- What a library raised: something the guard catches there, or not. -/
inductive LibraryError
  | caught
  | uncaught
  deriving DecidableEq

/-- `ZipInfo`, with what reading the entry gives. -/
structure ZipInfo where
  filename : String
  fileSize : Nat
  compressSize : Nat
  content : Except LibraryError (List Byte)

class Libraries where
  /-- `zipfile.ZipFile(io.BytesIO(data)).infolist()` -/
  infolist : List Byte → Except LibraryError (List ZipInfo)
  /-- `ElementTree.fromstring(data)` -/
  fromstring : List Byte → Except LibraryError Element
  /-- `_inspect_pdf`: the findings, or the code it is rejected with -/
  inspectPdf : List Byte → Except String (List String)

inductive GuardError
  | rejected (code : String)
  | raised
  deriving DecidableEq

/-- The `except` clause around a library call. -/
def rejecting {α : Type _} (code : String) :
    Except LibraryError α → Except GuardError α
  | .ok a => .ok a
  | .error .caught => .error (.rejected code)
  | .error .uncaught => .error .raised

def mismatch : String := "file_content_does_not_match_extension"

def suspicious : String := "suspicious_archive_structure"

-- ============================================================== entries

def maxZipEntries : Nat := 5000

def maxUncompressedTotal : Nat := 300 * 1024 * 1024

def maxCompressionRatio : Nat := 200

def ratioCheckMinSize : Nat := 1024 * 1024

/-- `s.endswith(ending)`. -/
def endsWith (ending s : String) : Bool := ending.toList.isSuffixOf s.toList

/-- The loop over the entries, with what the ones before take unpacked. -/
def checkEntries (total : Nat) : List ZipInfo → Except GuardError Unit
  | [] => .ok ()
  | info :: infos => do
      raiseIf (startsWith "/" info.filename ∨ '\\' ∈ info.filename.toList
        ∨ ['.', '.'] ∈ info.filename.toList.splitOn '/') (.rejected suspicious)
      raiseIf (maxUncompressedTotal < total + info.fileSize) (.rejected suspicious)
      raiseIf (ratioCheckMinSize ≤ info.fileSize
        ∧ maxCompressionRatio * max info.compressSize 1 < info.fileSize)
        (.rejected suspicious)
      checkEntries (total + info.fileSize) infos

/-- `_read_member`: the last entry of the name. -/
def readMember (infos : List ZipInfo) (name : String) :
    Except GuardError (List Byte) :=
  match infos.reverse.find? fun info => info.filename = name with
  | none => .error (.rejected suspicious)
  | some info => rejecting suspicious info.content

def isMacroPart (name : String) : Bool :=
  endsWith "vbaproject.bin" (lower name) || startsWith "word/vba" (lower name)

def rejectedEmbeddingSuffixes : List String :=
  [".xlsm", ".docm", ".pptm", ".xlsb", ".exe", ".dll", ".js", ".vbs", ".scr",
    ".bat", ".cmd", ".ps1"]

def isEmbedding (name : String) : Bool := startsWith "word/embeddings/" (lower name)

def isRejectedEmbedding (name : String) : Bool :=
  isEmbedding name
    && rejectedEmbeddingSuffixes.any fun suffix => endsWith suffix (lower name)

/-- The first loop over the names: what one name is recorded for. -/
def checkName (name : String) : Except GuardError (List String) := do
  raiseIf (isMacroPart name) (.rejected "macros_not_allowed")
  raiseIf (isRejectedEmbedding name)
    (.rejected "embedded_active_content_not_allowed")
  return (if isEmbedding name && endsWith ".bin" (lower name) then
      ["docx_ole_embedding"] else [])
    ++ (if startsWith "word/activex/" (lower name) then
      ["docx_activex_control"] else [])

def isRels (name : String) : Bool := endsWith ".rels" name

def isWordXml (name : String) : Bool :=
  startsWith "word/" name && endsWith ".xml" name

-- =========================================================== DDE fields

/-- The bytes of an ASCII text. -/
def encode (s : String) : List Byte := s.toList.map fun c => Fin.ofNat 256 c.toNat

def lowerByte (b : Byte) : Byte := if 65 ≤ b ∧ b ≤ 90 then b + 32 else b

/-- What follows a word at the start, in either case. -/
def afterWord (word : String) (bytes : List Byte) : Option (List Byte) :=
  if (bytes.take word.length).map lowerByte = (encode word).map lowerByte then
    some (bytes.drop word.length)
  else none

/-- `\s`. -/
def isSpaceByte (b : Byte) : Bool := b = 32 || (9 ≤ b && b ≤ 13)

/-- `\w`. -/
def isWordByte (b : Byte) : Bool :=
  (48 ≤ b && b ≤ 57) || (65 ≤ b && b ≤ 90) || b = 95 || (97 ≤ b && b ≤ 122)

/-- `\b`, behind a letter. -/
def atBoundary (bytes : List Byte) : Bool := !(bytes.head?.any isWordByte)

/-- `\s*DDE(AUTO)?\b`. -/
def startsWithDde (bytes : List Byte) : Bool :=
  (afterWord "DDE" (bytes.dropWhile isSpaceByte)).any fun rest =>
    atBoundary rest || (afterWord "AUTO" rest).any atBoundary

/-- `_DDE_RE` at one position. -/
def ddeAt (bytes : List Byte) : Bool :=
  ((afterWord "<w:instrText" bytes).any fun rest =>
      match rest.dropWhile (· ≠ 62) with
      | [] => false
      | _ :: text => startsWithDde text)
    || (afterWord "w:instr=\"" bytes).any startsWithDde

/-- `_DDE_RE.search`. -/
def searchDde (bytes : List Byte) : Bool := bytes.tails.any ddeAt

-- ======================================================= the inspection

def docxMime : String :=
  "application/vnd.openxmlformats-officedocument.wordprocessingml.document"

def pdfMime : String := "application/pdf"

def docxMainContentType : String :=
  "application/vnd.openxmlformats-officedocument.wordprocessingml.document.main+xml"

def macroContentTypeMarker : String := "macroEnabled"

inductive UploadKind
  | docx
  | pdf
  deriving DecidableEq

structure UploadVerdict where
  kind : UploadKind
  mimeType : String
  findings : List String
  deriving DecidableEq

section Inspection

variable [Libraries]

/-- `_check_relationships`. -/
def checkRelationships (xmlBytes : List Byte) : Except GuardError Unit := do
  let root ← rejecting suspicious (Libraries.fromstring xmlBytes)
  raiseIf ((root.iter relationshipTag).any isDangerous)
    (.rejected "external_resource_reference_not_allowed")

/-- The second loop over the names. -/
def checkMemberRelationships (infos : List ZipInfo) (name : String) :
    Except GuardError Unit := do
  checkRelationships (← readMember infos name)

/-- The third. -/
def checkMemberFields (infos : List ZipInfo) (name : String) :
    Except GuardError Unit := do
  raiseIf (searchDde (← readMember infos name)) (.rejected "dde_field_not_allowed")

/-- `_inspect_docx`. The names are a set: which of two bad ones is the reason
depends on its order. -/
def inspectDocx (data : List Byte) : Except GuardError (List String) := do
  raiseIf (¬ [0x50, 0x4B, 3, 4].isPrefixOf data) (.rejected mismatch)
  let infos ← rejecting mismatch (Libraries.infolist data)
  raiseIf (maxZipEntries < infos.length) (.rejected suspicious)
  checkEntries 0 infos
  let names := (infos.map ZipInfo.filename).dedup
  raiseIf ("[Content_Types].xml" ∉ names ∨ "word/document.xml" ∉ names)
    (.rejected mismatch)
  let contentTypes ← readMember infos "[Content_Types].xml"
  raiseIf (encode macroContentTypeMarker <:+: contentTypes)
    (.rejected "macros_not_allowed")
  raiseIf (¬ encode docxMainContentType <:+: contentTypes) (.rejected mismatch)
  let findings ← names.mapM checkName
  let _ ← (names.filter isRels).mapM (checkMemberRelationships infos)
  let _ ← (names.filter isWordXml).mapM (checkMemberFields infos)
  return findings.flatten.dedup.insertionSort (· ≤ ·)

/-- The part of a file name from its last dot on, in lower case. -/
def extension (filename : String) : String :=
  if '.' ∈ filename.toList then
    lower (String.ofList
      ('.' :: (filename.toList.reverse.takeWhile (· ≠ '.')).reverse))
  else ""

/-- `inspect_upload`. -/
def inspectUpload (filename : String) (data : List Byte) (maxSize : Nat) :
    Except GuardError UploadVerdict := do
  raiseIf (data = []) (.rejected "empty_file")
  raiseIf (maxSize < data.length) (.rejected "file_size_exceeds_30mb_limit")
  if extension filename = ".docx" then
    return ⟨.docx, docxMime, ← inspectDocx data⟩
  else if extension filename = ".pdf" then
    match Libraries.inspectPdf data with
    | .ok findings => return ⟨.pdf, pdfMime, findings⟩
    | .error code => .error (.rejected code)
  else .error (.rejected "unsupported_file_format_only_docx_and_pdf")

end Inspection

end PatentEvidence.Uploads
