/-
Product description to candidate technical features
(modules/fto/product.py).

Positions are character offsets into the description. The list-marker
pattern is written out alternative by alternative, in the pattern's order:
none of them gains anything from giving back what it matched, so each is
a scan that answers what follows the match.
-/
import Mathlib.Data.List.Sort
import PatentEvidence.Lib.Scan

namespace PatentEvidence.Fto

open Scan Text

/-- `SPLITTER_VERSION`. -/
def splitterVersion : String := "product-splitter/1"

/-- `LONG_FEATURE_CHARS`. -/
def longFeatureChars : Nat := 120

/-- `FeatureOrigin`. -/
inductive FeatureOrigin
  | split
  | manual
  | edited
  deriving DecidableEq, Repr

/-- `(start, end)` into the description. -/
abbrev Span := Nat × Nat

structure ProductFeature where
  featureId : String
  text : String
  spans : List Span
  origin : FeatureOrigin := .split
  deriving DecidableEq, Repr

structure SplitResult where
  features : List ProductFeature
  warnings : List String
  splitterVersion : String := Fto.splitterVersion

variable [Digits] [Alphanumeric]

-- ======================================================== list markers

/-- `[ \t]*`. -/
def afterBlanks (cs : List Char) : List Char :=
  cs.dropWhile fun c => c = ' ' || c = '\t'

/-- `-(?=\s)`, `\*(?=\s)` and the bullets. -/
def afterBullet : List Char → Option (List Char)
  | [] => none
  | c :: cs =>
      if c = '-' ∨ c = '*' then if cs.head?.any isSpace then some cs else none
      else if c ∈ ['•', '·', '▪'] then some cs
      else none

/-- `\d{1,3}`. -/
def afterNumber (cs : List Char) : Option (List Char) :=
  let digits := min 3 (cs.takeWhile isDecimalDigit).length
  if digits = 0 then none else some (cs.drop digits)

/-- `\(?\d{1,3}[.)、](?!\d)`. -/
def afterItemNumber (cs : List Char) : Option (List Char) := do
  let cs ← afterNumber ((afterOneOf ['('] cs).getD cs)
  let cs ← afterOneOf ['.', ')', '、'] cs
  if cs.head?.any isDecimalDigit then none else some cs

/-- `\d{1,3}` between two brackets. -/
def afterEnclosed (opening closing : Char) (cs : List Char) :
    Option (List Char) := do
  afterOneOf [closing] (← afterNumber (← afterOneOf [opening] cs))

/-- `[一二三四五六七八九十]+、`. -/
def afterChineseNumber (cs : List Char) : Option (List Char) :=
  let rest := cs.dropWhile fun c =>
    c ∈ ['一', '二', '三', '四', '五', '六', '七', '八', '九', '十']
  if rest.length < cs.length then afterOneOf ['、'] rest else none

/-- `[a-zA-Z][.)](?=\s)`. -/
def afterLetter : List Char → Option (List Char)
  | [] => none
  | c :: cs => do
      let rest ← afterOneOf ['.', ')'] cs
      if c.isAlpha ∧ rest.head?.any isSpace then some rest else none

/-- The length of `_LIST_MARKER` at the beginning of a line; 0 where there
is none. -/
def listMarker (line : List Char) : Nat :=
  let cs := afterBlanks line
  match afterBullet cs <|> afterItemNumber cs <|> afterEnclosed '（' '）' cs
      <|> afterEnclosed '(' ')' cs <|> afterChineseNumber cs
      <|> afterLetter cs with
  | some rest => line.length - (afterBlanks rest).length
  | none => 0

-- ========================================================== cut points

/-- `_HARD_END`. -/
def hardEnd (c : Char) : Bool := c ∈ ['。', '；', ';', '！', '？', '!', '?']

/-- `_EN_SENTENCE_END` at a position of `text[:stop]`. -/
def sentenceEndAt (text : List Char) (stop i : Nat) : Bool :=
  let rest := slice text (i + 1) stop
  text[i]? = some '.' && rest.head?.any isSpace
    && (rest.dropWhile isSpace).head?.any fun c =>
      isCapital c || ('一' ≤ c && c ≤ '\u9fff')

/-- `_ABBREVIATIONS`. -/
def abbreviations : List String :=
  ["e.g.", "i.e.", "etc.", "fig.", "no.", "approx.", "vs.", "mr.", "dr."]

/-- `_is_abbreviation`. -/
def isAbbreviation (text : List Char) (dotIndex : Nat) : Bool :=
  let window := (slice text (dotIndex - 7) (dotIndex + 1)).map Char.toLower
  abbreviations.any fun a => a.toList.isSuffixOf window

/-- `_cut_points`. -/
def cutPoints (text : List Char) (start stop : Nat) : List Nat :=
  let places := List.range' start (stop - start)
  let hard := places.filter fun i => text[i]?.any hardEnd
  let sentence := places.filter fun i =>
    sentenceEndAt text stop i && !isAbbreviation text i
  ((hard ++ sentence).map (· + 1)).dedup.insertionSort (· ≤ ·)

-- ============================================================ splitting

/-- The span of the piece between two bounds, if it is a feature:
punctuation-only fragments carry none. -/
def pieceSpan (text : List Char) (bounds : Nat × Nat) : Option Span :=
  let piece := slice text bounds.1 bounds.2
  let left := piece.length - (piece.dropWhile isSpace).length
  let right := (piece.rdropWhile isSpace).length
  if right ≤ left then none
  else
    let span := (bounds.1 + left, bounds.1 + right)
    if (slice text span.1 span.2).any isWord then some span else none

/-- The spans of the line from `lineStart` on. -/
def lineSpans (text : List Char) (lineStart : Nat) (line : List Char) :
    List Span :=
  let lineEnd := lineStart + line.length
  let contentStart := lineStart + listMarker line
  let bounds :=
    contentStart :: (cutPoints text contentStart lineEnd ++ [lineEnd])
  (bounds.zip bounds.tail).filterMap (pieceSpan text)

/-- The loop over the lines. -/
def spansFrom (text : List Char) (position : Nat) :
    List (List Char) → List Span
  | [] => []
  | line :: lines =>
      lineSpans text position line
        ++ spansFrom text (position + line.length) lines

/-- The text a span stands for. -/
def spanText (text : String) (span : Span) : String :=
  String.ofList (slice text.toList span.1 span.2)

/-- `split_description`. -/
def splitDescription (text : String) : SplitResult :=
  let features := (spansFrom text.toList 0 (splitLines text.toList)).mapIdx
    fun i span => {
      featureId := "P" ++ toString (i + 1)
      text := spanText text span
      spans := [span] : ProductFeature }
  let long := features.filter fun f => longFeatureChars < f.text.toList.length
  { features := features
    warnings := long.map (fun f => f.featureId ++ " is "
        ++ toString f.text.toList.length ++ " characters: may contain "
        ++ "several features; split during review")
      ++ if features = [] then ["no candidate features found"] else [] }

end PatentEvidence.Fto
