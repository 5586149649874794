/-
Claims of a European patent out of an OPS `claims` response
(modules/fto/ep_claims.py).

The response has flat paragraphs; where a claim begins, what it refers to
and where its features are cut is read from the wording. Every pattern of
the source is the scan it stands for (Lib/Scan.lean).
-/
import Mathlib.Data.List.Dedup
import Mathlib.Data.List.Sort
import PatentEvidence.Fto.Model
import PatentEvidence.Lib.Fallible
import PatentEvidence.Lib.Python
import PatentEvidence.Lib.Scan
import PatentEvidence.Lib.Spans

namespace PatentEvidence.Fto.EpClaims

open Fallible Scan Spans Text

-- =========================================================== paragraphs

section Paragraphs

variable {ν : Type _} [JsonNumber ν] [Printable]

/-- The text of one item of a `claim-text`. -/
def itemText : Json ν → String
  | .obj entries => ((entries.lookup "$").getD (.str "")).toStr
  | item => item.toStr

/-- The items of a `claim`. -/
def claimItems : Json ν → List (Json ν)
  | .obj entries =>
      match entries.lookup "claim-text" with
      | some (.arr items) => items
      | some item => if item.truthy then [item] else []
      | none => []
  | _ => []

/-- What an object itself adds to `found`. -/
def foundIn (language : String) (entries : List (String × Json ν)) :
    Py (List (List String)) := do
  let lang ← ((entries.lookup "@lang").getD (.str "")).upper
  match entries.lookup "claim" with
  | some claim =>
      if lang.equal (.str (upper language)) then
        return [(claimItems claim).map itemText]
      else return []
  | none => return []

/-- The algebra of `walk`: a value with what is found inside it. -/
def foundAlg (language : String) :
    Json.Alg ν (Json ν × Py (List (List String))) where
  null := (.null, .ok [])
  bool b := (.bool b, .ok [])
  num n := (.num n, .ok [])
  str s := (.str s, .ok [])
  arr rs := (.arr (rs.map Prod.fst), do
    return (← rs.mapM Prod.snd).flatten)
  obj es :=
    let entries := es.map fun e => (e.1, e.2.1)
    (.obj entries, do
      let own ← foundIn language entries
      return own ++ (← es.mapM fun e => e.2.2).flatten)

/-- `_claim_texts`. -/
def claimTexts (payload : Json ν) (language : String) : Py (List String) := do
  return (← (payload.fold (foundAlg language)).2).head?.getD []

end Paragraphs

variable [Digits] [Alphanumeric]

-- ========================================================== claim starts

/-- `_CLAIM_START` at the beginning of a text: the digits, and what follows
the match. -/
def claimStart (cs : List Char) : Option (List Char × List Char) := do
  let digits := afterSpaces cs
  let rest ← afterDigits digits
  let rest ← afterOneOf ['.'] (afterSpaces rest)
  let rest ← afterSomeSpaces rest
  return (digits.takeWhile isDecimalDigit, rest)

-- =========================================================== references

/-- `claims?`. -/
def afterClaimWord (cs : List Char) : Option (List Char) := do
  let rest ← afterWord "claim".toList cs
  return (afterWord ['s'] rest).getD rest

/-- `\s*(?:,|or|and|to|-|–)\s*\d+`. -/
def afterNext (cs : List Char) : Option (List Char) := do
  let rest ← afterAny [",", "or", "and", "to", "-", "–"] (afterSpaces cs)
  afterDigits (afterSpaces rest)

/-- `_REFERENCE`. -/
def reference : Pattern := fun before cs =>
  if wordBoundary before cs then
    reads (fun cs => do
      let rest ← afterDigits (← afterSomeSpaces (← afterClaimWord cs))
      return afterMany afterNext rest.length rest) cs
  else none

/-- `match.group(1)` of a reference. -/
def numbersOf (text : List Char) : List Char :=
  ((afterClaimWord text).bind afterSomeSpaces).getD []

/-- `to|-|–`. -/
def afterRangeSign (cs : List Char) : Option (List Char) :=
  ["to", "-", "–"].findSome? fun sign => afterLiteral sign cs

/-- `(\d+)\s*(?:to|-|–)\s*(\d+)`. -/
def numberRange : Pattern := fun _ =>
  reads fun cs => do
    let rest ← afterRangeSign (afterSpaces (← afterDigits cs))
    afterDigits (afterSpaces rest)

/-- The two groups of such a range. -/
def rangeEnds (text : List Char) : List Char × List Char :=
  let rest := afterSpaces (text.dropWhile isDecimalDigit)
  (text.takeWhile isDecimalDigit, afterSpaces ((afterRangeSign rest).getD []))

/-- `\d+`. -/
def number : Pattern := fun _ => reads afterDigits

/-- What the numbers of one reference add to `refs`. -/
def numbersIn (body : List Char) : List Nat :=
  (findall numberRange body).flatMap (fun text =>
      let (a, b) := rangeEnds text
      List.range' (intOf a) (intOf b + 1 - intOf a))
    ++ (findall number body).map intOf

/-- `_ALL_PRECEDING`. -/
def allPreceding : Pattern := fun before cs =>
  let ofThePreceding : Option (List Char) := do
    let rest ← afterSomeSpaces (← afterAny ["any", "one"] cs)
    let rest := ((afterWord "one".toList rest).bind afterSomeSpaces).getD rest
    let rest ← afterSomeSpaces (← afterWord "of".toList rest)
    let rest ← afterSomeSpaces (← afterWord "the".toList rest)
    let rest ← afterSomeSpaces (← afterWord "preceding".toList rest)
    let rest ← afterWord "claims".toList rest
    if wordBoundary (some 's') rest then some rest else none
  let anyPreceding : Option (List Char) := do
    let rest ← afterSomeSpaces (← afterWord "any".toList cs)
    let rest ← afterSomeSpaces (← afterWord "preceding".toList rest)
    let rest ← afterWord "claim".toList rest
    if wordBoundary (some 'm') rest then some rest else none
  if wordBoundary before cs then
    reads (fun _ => ofThePreceding <|> anyPreceding) cs
  else none

/-- `\bclaim`. -/
def claimWord : Pattern := fun before cs =>
  if wordBoundary before cs then reads (afterWord "claim".toList) cs else none

/-- `f"{numbers}"`. -/
def showNumbers (numbers : List Nat) : String :=
  "[" ++ join ", " (numbers.map toString) ++ "]"

/-- `sorted(set)`. -/
def sortedSet (numbers : List Nat) : List Nat :=
  numbers.dedup.insertionSort (· ≤ ·)

omit [Digits] [Alphanumeric] in
theorem mem_sortedSet {n : Nat} {numbers : List Nat} :
    n ∈ sortedSet numbers ↔ n ∈ numbers := by
  rw [sortedSet, List.mem_insertionSort, List.mem_dedup]

omit [Digits] [Alphanumeric] in
theorem pairwise_sortedSet (numbers : List Nat) :
    (sortedSet numbers).Pairwise (· ≤ ·) :=
  List.pairwise_insertionSort (· ≤ ·) _

/-- `_references`. -/
def references (text : List Char) (own : Nat) : List Nat × List String :=
  let parsed := (findall reference text).flatMap fun found =>
    numbersIn (numbersOf found)
  let preceding := search allPreceding text
  let refs := parsed ++ if preceding then List.range' 1 (own - 1) else []
  let kept := refs.filter fun n => n ≠ own
  let bad := sortedSet (kept.filter fun n => own ≤ n)
  (sortedSet kept,
    (if preceding then
      ["refers to 'preceding claims': depends on every earlier claim"]
    else [])
    ++ (if search claimWord text ∧ refs = [] then
      ["mentions 'claim' but no reference could be parsed"] else [])
    ++ (if bad ≠ [] then
      ["references later or own claims " ++ showNumbers bad
        ++ ": kept, check the text"] else []))

/-- A claim mentions another: by number, or as one of all preceding
claims. -/
def Mentions (text : List Char) (own n : Nat) : Prop :=
  n ≠ own
    ∧ ((∃ found ∈ findall reference text, n ∈ numbersIn (numbersOf found))
      ∨ search allPreceding text = true ∧ 1 ≤ n ∧ n < own)

theorem mem_references {text : List Char} {own n : Nat} :
    n ∈ (references text own).1 ↔ Mentions text own n := by
  rw [references]
  simp only [mem_sortedSet, List.mem_filter, List.mem_append, List.mem_flatMap,
    decide_eq_true_eq, Mentions]
  split
  · next h =>
      rw [List.mem_range'_1, and_comm]
      refine and_congr_right fun _ => or_congr_right ?_
      simp only [h, true_and]
      omega
  · next h =>
      simp only [h, List.not_mem_nil, or_false, Bool.false_eq_true, false_and,
        and_comm]

-- ============================================================= features

/-- `_FEATURE_BREAK`. -/
def featureBreak : Pattern := fun _ => reads (afterOneOf [';', '\n'])

/-- `_TWO_PART`. -/
def twoPart : Pattern := fun before cs =>
  if wordBoundary before cs then
    reads (fun cs => do
      let rest ← afterAny ["characterised", "characterized"] cs
      let rest ← afterWord "in".toList (← afterSomeSpaces rest)
      let rest ← afterWord "that".toList (← afterSomeSpaces rest)
      if wordBoundary (some 't') rest then some rest else none) cs
  else none

/-- `_BARE_CONJUNCTION.fullmatch`. -/
def bareConjunction (cs : List Char) : Bool :=
  afterAny ["and", "or"] cs = some []

/-- `sorted(cuts)`. -/
def bounds (text : List Char) (bodyStart : Nat) : List Nat :=
  sortedSet (bodyStart :: text.length
    :: ((finditer featureBreak text bodyStart).map Match.stop
      ++ (finditer twoPart text bodyStart).map Match.start))

/-- The end of one turn of the loop in `_features`: a bare conjunction
belongs to the next feature. -/
def addSpan (text : List Char) (spans : List (Nat × Nat)) (span : Nat × Nat) :
    List (Nat × Nat) :=
  if bareConjunction (slice text span.1 span.2) then spans ++ [span]
  else
    match spans.getLast? with
    | some last =>
        if bareConjunction (slice text last.1 last.2) then
          spans.dropLast ++ [(last.1, span.2)]
        else spans ++ [span]
    | none => spans ++ [span]

/-- The spans of `_features`. -/
def featureSpans (text : List Char) (bodyStart : Nat) : List (Nat × Nat) :=
  let bounds := bounds text bodyStart
  ((bounds.zip bounds.tail).filterMap (stripped text)).foldl (addSpan text) []

/-- `_features`. -/
def features (number : Nat) (text : String) (bodyStart : Nat) :
    List ClaimFeature :=
  (featureSpans text.toList bodyStart).mapIdx fun i span =>
    { featureId := toString number ++ "." ++ toString i
      claimNumber := number
      text := String.ofList (slice text.toList span.1 span.2)
      spans := [span] }

-- =============================================================== parsing

/-- One turn of the loop over the paragraphs: the claims so far with their
paragraphs, and the number of paragraphs before the first. -/
def groupTurn (state : List (Nat × List String) × Nat) (paragraph : String) :
    List (Nat × List String) × Nat :=
  let (grouped, orphans) := state
  match claimStart paragraph.toList with
  | some (digits, _) => (grouped ++ [(intOf digits, [paragraph])], orphans)
  | none =>
      match grouped.getLast? with
      | some (n, parts) =>
          (grouped.dropLast ++ [(n, parts ++ [paragraph])], orphans)
      | none => (grouped, orphans + 1)

/-- The loop over the paragraphs. -/
def group (paragraphs : List String) : List (Nat × List String) × Nat :=
  paragraphs.foldl groupTurn ([], 0)

/-- One turn of the loop over the grouped paragraphs. -/
def epClaim (language : String) (number : Nat) (parts : List String) :
    Py Claim := do
  let text := join "\n" parts
  match claimStart text.toList with
  | none => .error .attributeError
  | some (_, rest) =>
      let bodyStart := text.toList.length - rest.length
      let (refs, warnings) := references (text.toList.drop bodyStart) number
      return {
        number := number
        text := text
        dependsOn := refs.map Int.ofNat
        structureSource := .opsTextParsed
        features := features number text bodyStart
        language := some (lower language)
        parseWarnings := warnings }

variable {ν : Type _} [JsonNumber ν] [Printable]

/-- `parse_ep_claims`. -/
def parseEpClaims (payload : Json ν) (publicationNumber : String)
    (language : String) : Py ClaimSet := do
  let paragraphs ← claimTexts payload language
  raiseIf (paragraphs = []) .valueError
  let (grouped, orphans) := group paragraphs
  let numbers := grouped.map Prod.fst
  let claims ← grouped.mapM fun (number, parts) => epClaim language number parts
  return {
    publicationNumber := publicationNumber
    claims := claims
    language := some (lower language)
    proceedingsLanguage := none
    warnings :=
      ["language of the proceedings is not stated by OPS: this text may be a "
        ++ "translation, not the authentic text (EPC Art. 70(1))"]
      ++ (if orphans ≠ 0 then
        [toString orphans ++ " paragraph(s) before claim 1 were ignored"]
      else [])
      ++ (if numbers ≠ List.range' 1 numbers.length then
        ["claim numbering is not consecutive: " ++ showNumbers numbers]
      else []) }

end PatentEvidence.Fto.EpClaims
