/-
Claims of a US patent out of the grant's full-text XML
(modules/fto/us_claims.py).

The document is the element tree the XML parser builds, where a text that
is missing is an empty one. A claim is walked in document order: nested
`claim-text` elements open clauses of their own, everything inside other
markup stays in the clause around it.
-/
import Mathlib.Data.List.Dedup
import Mathlib.Data.List.Sort
import PatentEvidence.Fto.Model
import PatentEvidence.Lib.Fallible
import PatentEvidence.Lib.Python
import PatentEvidence.Lib.Scan
import PatentEvidence.Lib.Spans

namespace PatentEvidence.Fto.UsClaims

open Fallible Scan Spans Text

-- ============================================================== elements

/-- An element: the text in front of its children, its children, and the
text behind it. -/
inductive Element
  | mk (tag : String) (attributes : Dict String String) (text : String)
      (children : List Element) (tail : String)

namespace Element

def tag : Element → String
  | mk tag .. => tag

def attributes : Element → Dict String String
  | mk _ attributes .. => attributes

def text : Element → String
  | mk _ _ text .. => text

def children : Element → List Element
  | mk _ _ _ children _ => children

def tail : Element → String
  | mk _ _ _ _ tail => tail

mutual

/-- `element.iter()`: the element and all inside it, in document order. -/
def iter : Element → List Element
  | mk tag attributes text children tail =>
      mk tag attributes text children tail :: iterAll children

def iterAll : List Element → List Element
  | [] => []
  | child :: children => iter child ++ iterAll children

end

/-- `element.findall(tag)`. -/
def findall (node : Element) (tag : String) : List Element :=
  node.children.filter fun child => child.tag = tag

/-- `element.find(".//tag")`: the first inside the element. -/
def findInside (node : Element) (tag : String) : Option Element :=
  (iterAll node.children).find? fun e => e.tag = tag

end Element

-- =============================================================== walking

/-- `_Builder`. -/
structure Builder where
  parts : List String := []
  position : Nat := 0
  clauses : List (List (Nat × Nat)) := []

namespace Builder

/-- `_Builder.add`. -/
def add (b : Builder) (text : String) (clause : Option Nat) : Builder :=
  if text = "" then b
  else
    let stop := b.position + text.toList.length
    { parts := b.parts ++ [text]
      position := stop
      clauses :=
        match clause with
        | some k => b.clauses.modify k fun pieces => pieces ++ [(b.position, stop)]
        | none => b.clauses }

/-- `self.clauses.append([])`. -/
def openClause (b : Builder) : Builder :=
  { b with clauses := b.clauses ++ [[]] }

mutual

/-- `_Builder.walk_inline`. -/
def walkInline : Element → Option Nat → Builder → Builder
  | .mk _ _ text children _, clause, b =>
      walkInlineAll children clause (b.add text clause)

/-- The loop in `walk_inline`. -/
def walkInlineAll : List Element → Option Nat → Builder → Builder
  | [], _, b => b
  | child :: children, clause, b =>
      walkInlineAll children clause
        ((walkInline child clause b).add child.tail clause)

end

mutual

/-- `_Builder.walk`. -/
def walk : Element → Option Nat → Builder → Builder
  | .mk _ _ text children _, clause, b =>
      walkAll children clause (b.add text clause)

/-- The loop in `walk`. -/
def walkAll : List Element → Option Nat → Builder → Builder
  | [], _, b => b
  | child :: children, clause, b =>
      let b :=
        if child.tag = "claim-text" then
          walk child (some b.clauses.length) b.openClause
        else walkInline child clause b
      walkAll children clause (b.add child.tail clause)

end

/-- The clauses at the top of a claim. -/
def walkTops (tops : List Element) : Builder :=
  tops.foldl (fun b top => walk top (some b.clauses.length) b.openClause) {}

end Builder

-- =============================================================== reading

section Digits

variable [Digits]

/-- `_number`. -/
def number (claim : Element) : Py Int :=
  let digits := (claim.attributes.getD "num" "0").toList.dropWhile fun c => c = '0'
  Json.intOfText (if digits = [] then "0" else String.ofList digits)

/-- `_CLAIM_ID.search`, the number it finds. -/
def claimId : List Char → Option Nat
  | [] => none
  | c :: cs =>
      let digits := ((afterLiteral "CLM-" (c :: cs)).getD []).takeWhile isDecimalDigit
      let rest := ((afterLiteral "CLM-" (c :: cs)).getD []).dropWhile isDecimalDigit
      if digits ≠ [] ∧ (rest = [] ∨ rest = ['\n']) then some (intOf digits)
      else claimId cs

/-- The claims that a claim refers to. -/
def claimRefs (claim : Element) : List Nat :=
  ((claim.iter.filter fun e => e.tag = "claim-ref").filterMap fun ref =>
    claimId (ref.attributes.getD "idref" "").toList).dedup.insertionSort (· ≤ ·)

/-- `_LEADING_NUMBER.match(text, start)`, the end of the match: `^` matches
at the beginning of the text only. -/
def leadingNumber (text : List Char) (start : Nat) : Option Nat := do
  if start ≠ 0 then none
  else
    let rest ← afterDigits (afterSpaces text)
    let rest ← afterOneOf ['.'] (afterSpaces rest)
    return text.length - (afterSpaces rest).length

/-- The spans of a feature, from the pieces of its clause. -/
def clauseSpans (text : List Char) (index : Nat) (pieces : List (Nat × Nat)) :
    List (Nat × Nat) :=
  let trimmed := pieces.filterMap (stripped text)
  match trimmed with
  | [] => []
  | first :: _ =>
      if index = 0 then
        match leadingNumber text first.1 with
        | some cut =>
            (trimmed.filter fun s => cut < s.2).map fun s => (max s.1 cut, s.2)
        | none => trimmed
      else trimmed

/-- The text of a feature. -/
def spansText (text : List Char) (spans : List (Nat × Nat)) : String :=
  join " " (spans.map fun s => String.ofList (slice text s.1 s.2))

/-- The features of a claim. -/
def features (number : Int) (text : List Char)
    (clauses : List (List (Nat × Nat))) : List ClaimFeature :=
  ((clauses.mapIdx (clauseSpans text)).filter fun spans =>
      ¬ Blank (spansText text spans)).mapIdx fun i spans =>
    { featureId := toString number ++ "." ++ toString i
      claimNumber := number
      text := spansText text spans
      spans := spans }

/-- `LONG_FEATURE_CHARS`. -/
def longFeatureChars : Nat := 400

/-- One turn of the loop in `parse_us_claims`. -/
def usClaim (node : Element) : Py Claim := do
  let number ← number node
  let builder := Builder.walkTops (node.findall "claim-text")
  let text := (builder.parts.map String.toList).flatten
  let refs := (claimRefs node).map Int.ofNat
  let features := features number text builder.clauses
  let long := features.filter fun f => longFeatureChars < f.text.toList.length
  return {
    number := number
    text := String.ofList text
    dependsOn := refs.filter fun n => n ≠ number
    structureSource := .usptoGrantXml
    features := features
    language := some "en"
    parseWarnings := long.map (fun f => "feature " ++ f.featureId ++ " is "
        ++ toString f.text.toList.length ++ " characters: may contain several "
        ++ "features; split during review")
      ++ (if number ∈ refs then
        ["claim references itself; reference ignored"] else []) }

/-- `claims_node`. -/
def claimsNode (root : Element) : Option Element :=
  if root.tag = "claims" then some root else root.findInside "claims"

/-- `parse_us_claims`, of the document's root. -/
def parseUsClaims (root : Element) (publicationNumber : String) : Py ClaimSet := do
  match claimsNode root with
  | none => .error .valueError
  | some node =>
      let claims ← (node.findall "claim").mapM usClaim
      return {
        publicationNumber := publicationNumber
        claims := claims
        language := some "en" }

end Digits

end PatentEvidence.Fto.UsClaims
