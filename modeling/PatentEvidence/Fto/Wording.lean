/-
How a claim refers to other claims: the wording, apart from any reading of
it.

A reference is the word 'claim' or 'claims' in front of a list of numbers
and ranges. A text with its references is marked rightly (`Marked`) if no
reference begins elsewhere and none goes on behind its end. What the text denotes is the union of what its items denote: a
range from `a` to `b` is every number between the two.

`Plainly` singles out some of these numbers: those in front of the first
comma with a conjunction behind it, and of a range no more than its ends
unless it is an ascending one with a plain sign.
-/
import Mathlib.Order.Interval.Set.UnorderedInterval
import Mathlib.Order.Lattice.Nat
import PatentEvidence.Lib.Scan

namespace PatentEvidence.Fto.Wording

open Scan Text

-- ================================================================= words

/-- A word in any case. -/
structure Spelling (word : String) where
  chars : List Char
  spells : List.Forall₂ (fun p c => matchesLetter p c = true) word.toList chars

/-- White space, or nothing. -/
structure Blanks where
  chars : List Char
  space : ∀ c ∈ chars, isSpace c = true

/-- A number as it is written. -/
structure Numeral [Digits] where
  digits : List Char
  decimal : ∀ c ∈ digits, isDecimalDigit c = true
  ne_nil : digits ≠ []

/-- What stands between the ends of a range. -/
inductive RangeSign
  | upTo (word : Spelling "to")
  | hyphen
  | dash

def RangeSign.text : RangeSign → List Char
  | upTo word => word.chars
  | hyphen => ['-']
  | dash => ['–']

/-- A dash, or 'to' in small letters. -/
def RangeSign.Plain : RangeSign → Prop
  | upTo word => word.chars = "to".toList
  | hyphen => True
  | dash => True

instance (sign : RangeSign) : Decidable sign.Plain :=
  match sign with
  | .upTo word => inferInstanceAs (Decidable (word.chars = "to".toList))
  | .hyphen => .isTrue trivial
  | .dash => .isTrue trivial

inductive Conjunction
  | or (word : Spelling "or")
  | and (word : Spelling "and")

def Conjunction.text : Conjunction → List Char
  | or word => word.chars
  | and word => word.chars

/-- What stands between two items of a list. -/
inductive Separator
  | comma (before after : Blanks)
  | conjunction (before : Blanks) (word : Conjunction) (after : Blanks)
  | both (before between : Blanks) (word : Conjunction) (after : Blanks)

def Separator.text : Separator → List Char
  | comma before after => before.chars ++ [','] ++ after.chars
  | conjunction before word after => before.chars ++ word.text ++ after.chars
  | both before between word after =>
      before.chars ++ [','] ++ between.chars ++ word.text ++ after.chars

def Separator.isBoth : Separator → Bool
  | both .. => true
  | _ => false

-- ================================================================= lists

variable [Digits]

def Numeral.value (n : Numeral) : Nat := intOf n.digits

/-- A number, or a range of numbers. -/
inductive Item
  | one (n : Numeral)
  | range (low : Numeral) (before : Blanks) (sign : RangeSign) (after : Blanks)
      (high : Numeral)

def Item.text : Item → List Char
  | one n => n.digits
  | range low before sign after high =>
      low.digits ++ before.chars ++ sign.text ++ after.chars ++ high.digits

/-- The numbers of an item. -/
def Item.Denotes : Item → Nat → Prop
  | one m, n => n = m.value
  | range low _ _ _ high, n => n ∈ Set.uIcc low.value high.value

/-- The numbers of an item that are plain in it: those written, and between
the ends of an ascending range those of a plain sign. -/
def Item.Plainly : Item → Nat → Prop
  | one m, n => n = m.value
  | range low _ sign _ high, n =>
      n = low.value ∨ n = high.value
        ∨ sign.Plain ∧ low.value ≤ n ∧ n ≤ high.value

structure Reference where
  keyword : Spelling "claim"
  plural : Option (Spelling "s")
  gap : Blanks
  gap_ne_nil : gap.chars ≠ []
  first : Item
  rest : List (Separator × Item)

namespace Reference

/-- The items of a list behind the first, with their separators. -/
def restText (rest : List (Separator × Item)) : List Char :=
  rest.flatMap fun r => r.1.text ++ r.2.text

/-- The word in front of the list. -/
def word (r : Reference) : List Char :=
  r.keyword.chars ++ (r.plural.map Spelling.chars).getD [] ++ r.gap.chars

def text (r : Reference) : List Char :=
  r.word ++ r.first.text ++ restText r.rest

def items (r : Reference) : List Item := r.first :: r.rest.map Prod.snd

def Denotes (r : Reference) (n : Nat) : Prop := ∃ i ∈ r.items, i.Denotes n

/-- The items behind the first in front of a comma with a conjunction. -/
def leading (rest : List (Separator × Item)) : List (Separator × Item) :=
  rest.takeWhile fun r => !r.1.isBoth

/-- Plain numbers in front of any comma with a conjunction. -/
def Plainly (r : Reference) (n : Nat) : Prop :=
  ∃ i ∈ r.first :: (leading r.rest).map Prod.snd, i.Plainly n

end Reference

-- ================================================================= texts

variable [Alphanumeric]

/-- A reference begins here. -/
def Begins (before : Option Char) (cs : List Char) : Prop :=
  (∀ c ∈ before, isWord c = false) ∧ ∃ (r : Reference) (rest : List Char),
    cs = r.text ++ rest

/-- What follows a list does not go on with it. -/
structure Ends (rest : List Char) : Prop where
  digit : ∀ c ∈ rest.head?, isDecimalDigit c = false
  separator : ∀ (s : Separator) (n : Numeral) (cs : List Char),
    rest ≠ s.text ++ n.digits ++ cs
  sign : ∀ (before after : Blanks) (s : RangeSign) (n : Numeral)
    (cs : List Char),
    rest ≠ before.chars ++ s.text ++ after.chars ++ n.digits ++ cs

/-- No reference begins in a text that `rest` follows. -/
def Quiet (before : Option Char) (cs rest : List Char) : Prop :=
  ∀ a b, cs = a ++ b → b ≠ [] → ¬ Begins (Scan.before before a) (b ++ rest)

/-- The text of references, each behind what stands in front of it, with
what stands behind the last. -/
def textOf (tail : List Char) : List (List Char × Reference) → List Char
  | [] => tail
  | (filler, r) :: parts => filler ++ (r.text ++ textOf tail parts)

/-- The references are those of the text. -/
def Marked (tail : List Char) :
    Option Char → List (List Char × Reference) → Prop
  | first, [] => Quiet first tail []
  | first, (filler, r) :: parts =>
      Quiet first filler (r.text ++ textOf tail parts)
        ∧ (∀ c ∈ Scan.before first filler, isWord c = false)
        ∧ Ends (textOf tail parts)
        ∧ Marked tail (Scan.before (Scan.before first filler) r.text) parts

/-- A text with its references. -/
structure MarkedText where
  parts : List (List Char × Reference)
  tail : List Char
  marked : Marked tail none parts

namespace MarkedText

def text (w : MarkedText) : List Char := textOf w.tail w.parts

/-- The numbers of all references. -/
def Denotes (w : MarkedText) (n : Nat) : Prop :=
  ∃ p ∈ w.parts, p.2.Denotes n

def Plainly (w : MarkedText) (n : Nat) : Prop :=
  ∃ p ∈ w.parts, p.2.Plainly n

end MarkedText

end PatentEvidence.Fto.Wording
