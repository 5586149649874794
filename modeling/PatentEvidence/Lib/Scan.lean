/-
Patterns run over a text, the way `finditer` runs them.

A pattern is what it reads in front of a text, given the character before
(for `\b`); the patterns here never gain from giving back what they read,
so a pattern is a function and not a search. `finditerFrom` tries it at one
position after the other and goes on behind what it read. Three equations
say what it finds of a text that is put together: nothing is found where
the pattern reads nothing (`finditerFrom_silent`), a match is found where
it reads (`finditerFrom_match`), and in between only the last character
matters.

Which characters are letters and digits is a table of the language.
`LawfulTables` is what patterns take for granted of it, and the ASCII
table is an instance.

# Sections

- pieces of patterns;
- the tables;
- running a pattern;
- what is found.
-/
import Mathlib.Data.List.Forall2
import PatentEvidence.Lib.Text

namespace PatentEvidence.Scan

open Text

-- ==================================================== pieces of patterns

/-- A letter of a pattern under `IGNORECASE`: besides the two cases, the
language pairs these three letters with it. -/
def matchesLetter (p c : Char) : Bool :=
  c.toLower = p || (p = 'i' && (c = 'ı' || c = 'İ')) || (p = 's' && c = 'ſ')

/-- A word, in any case. -/
def afterWord : List Char → List Char → Option (List Char)
  | [], cs => some cs
  | _ :: _, [] => none
  | p :: ps, c :: cs => if matchesLetter p c then afterWord ps cs else none

/-- The first of some words that is there. -/
def afterAny (words : List String) (cs : List Char) : Option (List Char) :=
  words.findSome? fun word => afterWord word.toList cs

/-- A word as it is written, without `IGNORECASE`. -/
def afterLiteral (word : String) (cs : List Char) : Option (List Char) :=
  if word.toList.isPrefixOf cs then some (cs.drop word.toList.length) else none

/-- `\s*`. -/
def afterSpaces (cs : List Char) : List Char := cs.dropWhile isSpace

/-- `\s+`. -/
def afterSomeSpaces (cs : List Char) : Option (List Char) :=
  if cs.head?.any isSpace then some (cs.dropWhile isSpace) else none

/-- `.+?` and behind it the word, as it is written. -/
def afterLazy (word : String) : List Char → Option (List Char)
  | [] => none
  | c :: cs =>
      if c = '\n' then none else (afterLiteral word cs).or (afterLazy word cs)

/-- One of the characters. -/
def afterOneOf (chars : List Char) : List Char → Option (List Char)
  | [] => none
  | c :: cs => if c ∈ chars then some cs else none

/-- `(?:piece)*`: at most `fuel` times, which is no bound where the piece
reads something and `fuel` is the length of the text. -/
def afterMany (piece : List Char → Option (List Char)) :
    Nat → List Char → List Char
  | 0, cs => cs
  | fuel + 1, cs =>
      match piece cs with
      | some rest => afterMany piece fuel rest
      | none => cs

/-- `\b`, between the character before and what follows. -/
def wordBoundary [Alphanumeric] (before : Option Char) (cs : List Char) :
    Bool := before.any isWord != cs.head?.any isWord

section Digits

variable [Digits]

/-- `\d`. -/
def isDecimalDigit (c : Char) : Bool := (Digits.decimal? c).isSome

/-- `\d+`. -/
def afterDigits (cs : List Char) : Option (List Char) :=
  if cs.head?.any isDecimalDigit then some (cs.dropWhile isDecimalDigit) else none

/-- `int(digits)`, of what `\d+` reads. -/
def intOf (cs : List Char) : Nat :=
  (cs.filterMap Digits.decimal?).foldl (fun n d => 10 * n + d) 0

end Digits

-- ------------------------------------------------- what the pieces read

section Pieces

variable {cs rest : List Char} {p c : Char}

/-- Most letters are read in their two cases only. -/
theorem matchesLetter_iff (hi : p ≠ 'i') (hs : p ≠ 's') :
    matchesLetter p c = true ↔ c.toLower = p := by
  simp only [matchesLetter, hi, hs, decide_false, Bool.false_and,
    Bool.or_false, decide_eq_true_eq]

theorem isDigit_iff :
    c.isDigit = true ↔ 48 ≤ c.toNat ∧ c.toNat ≤ 57 := by
  rw [Char.isDigit, Bool.and_eq_true, decide_eq_true_eq, decide_eq_true_eq,
    ge_iff_le, UInt32.le_iff_toNat_le, UInt32.le_iff_toNat_le]
  rfl

theorem isAlpha_iff :
    c.isAlpha = true ↔ (65 ≤ c.toNat ∧ c.toNat ≤ 90)
      ∨ (97 ≤ c.toNat ∧ c.toNat ≤ 122) := by
  delta Char.isAlpha Char.isUpper Char.isLower
  rw [Bool.or_eq_true]
  simp only [Bool.and_eq_true, decide_eq_true_eq, ge_iff_le,
    UInt32.le_iff_toNat_le]
  rfl

/-- What is no letter has one case. -/
theorem toLower_of_not_isAlpha (h : c.isAlpha = false) : c.toLower = c := by
  delta Char.isAlpha at h
  rw [Bool.or_eq_false_iff] at h
  exact dif_neg (of_decide_eq_false h.1)

theorem eq_of_toLower (hp : p.isAlpha = false) (h : c.toLower = p) : c = p := by
  by_cases hupper : c.val ≥ 'A'.val ∧ c.val ≤ 'Z'.val
  · rw [show c.toLower = _ from dif_pos hupper] at h
    subst h
    have hlow : 65 ≤ c.toNat := UInt32.le_iff_toNat_le.mp hupper.1
    have hhigh : c.toNat ≤ 90 := UInt32.le_iff_toNat_le.mp hupper.2
    rw [← Bool.not_eq_true, isAlpha_iff] at hp
    have hvalue : (c.val + ('a'.val - 'A'.val)).toNat = c.toNat + 32 := by
      rw [UInt32.toNat_add]
      exact Nat.mod_eq_of_lt (by change c.toNat + 32 < 2 ^ 32; omega)
    refine absurd (Or.inr ?_) hp
    change 97 ≤ (c.val + ('a'.val - 'A'.val)).toNat
      ∧ (c.val + ('a'.val - 'A'.val)).toNat ≤ 122
    omega
  · exact (dif_neg hupper).symm.trans h

theorem afterWord_eq_some {word : List Char} :
    afterWord word cs = some rest
      ↔ ∃ spelled, cs = spelled ++ rest
        ∧ List.Forall₂ (fun p c => matchesLetter p c = true) word spelled := by
  induction word generalizing cs with
  | nil =>
      rw [afterWord, Option.some.injEq]
      constructor
      · rintro rfl
        exact ⟨[], rfl, .nil⟩
      · rintro ⟨spelled, rfl, h⟩
        rw [List.forall₂_nil_left_iff.mp h, List.nil_append]
  | cons p word ih =>
      constructor
      · intro h
        cases cs with
        | nil => cases h
        | cons c cs =>
            rw [afterWord] at h
            split at h
            · next hc =>
                obtain ⟨spelled, rfl, hspelled⟩ := ih.mp h
                exact ⟨c :: spelled, rfl, .cons hc hspelled⟩
            · cases h
      · rintro ⟨spelled, rfl, h⟩
        obtain ⟨c, spelled, hc, hspelled, rfl⟩ := List.forall₂_cons_left_iff.mp h
        rw [List.cons_append, afterWord, if_pos hc]
        exact ih.mpr ⟨spelled, rfl, hspelled⟩

/-- Every character of a spelled word is one of its letters. -/
theorem exists_letter {word chars : List Char}
    (h : List.Forall₂ (fun p c => matchesLetter p c = true) word chars)
    (hc : c ∈ chars) : ∃ p ∈ word, matchesLetter p c = true := by
  induction h with
  | nil => cases hc
  | @cons p d word chars hd _ ih =>
      rcases List.mem_cons.mp hc with rfl | hc
      · exact ⟨p, List.mem_cons_self .., hd⟩
      · obtain ⟨q, hq, hmatch⟩ := ih hc
        exact ⟨q, List.mem_cons_of_mem _ hq, hmatch⟩

theorem afterWord_eq_none {word : List Char}
    (h : matchesLetter p c = false) : afterWord (p :: word) (c :: cs) = none := by
  rw [afterWord, if_neg (ne_true_of_eq_false h)]

/-- White space is read to its end. -/
theorem afterSpaces_append (hcs : ∀ c ∈ cs, isSpace c = true)
    (hrest : ∀ c ∈ rest.head?, isSpace c = false) :
    afterSpaces (cs ++ rest) = rest := dropWhile_run hcs hrest

theorem afterSpaces_split (cs : List Char) :
    ∃ spaces, cs = spaces ++ afterSpaces cs ∧ ∀ c ∈ spaces, isSpace c = true :=
  ⟨cs.takeWhile isSpace, List.takeWhile_append_dropWhile.symm,
    fun _ hc => List.mem_takeWhile_imp hc⟩

/-- What white space is followed by is none. -/
theorem isSpace_of_afterSpaces (h : afterSpaces cs = c :: rest) :
    isSpace c = false := by
  have hdrop : cs.dropWhile isSpace = c :: rest := h
  have hne : cs.dropWhile isSpace ≠ [] := by
    rw [hdrop]
    exact List.cons_ne_nil _ _
  obtain ⟨d, hd, hsolid⟩ := head_dropWhile hne
  rw [hdrop] at hd
  cases hd
  exact hsolid

theorem afterSomeSpaces_append (hne : cs ≠ []) (hcs : ∀ c ∈ cs, isSpace c = true)
    (hrest : ∀ c ∈ rest.head?, isSpace c = false) :
    afterSomeSpaces (cs ++ rest) = some rest := by
  have hhead : (cs ++ rest).head?.any isSpace = true := by
    cases cs with
    | nil => exact absurd rfl hne
    | cons c cs => exact hcs c (List.mem_cons_self ..)
  rw [afterSomeSpaces, if_pos hhead]
  exact congrArg some (afterSpaces_append hcs hrest)

theorem afterSomeSpaces_split (h : afterSomeSpaces cs = some rest) :
    ∃ spaces, cs = spaces ++ rest ∧ spaces ≠ []
      ∧ ∀ c ∈ spaces, isSpace c = true := by
  unfold afterSomeSpaces at h
  split at h
  · next hhead =>
      cases h
      obtain ⟨spaces, hcs, hspaces⟩ := afterSpaces_split cs
      refine ⟨spaces, hcs, ?_, hspaces⟩
      rintro rfl
      cases cs with
      | nil => cases hhead
      | cons c cs =>
          have hc : isSpace c = true := hhead
          rw [List.nil_append, afterSpaces, List.dropWhile_cons_of_pos hc] at hcs
          have hle := (List.dropWhile_suffix isSpace (l := cs)).length_le
          rw [← hcs, List.length_cons] at hle
          omega
  · cases h

theorem afterOneOf_eq_some {chars : List Char}
    (h : afterOneOf chars cs = some rest) : ∃ c ∈ chars, cs = c :: rest := by
  cases cs with
  | nil => cases h
  | cons c cs =>
      rw [afterOneOf] at h
      split at h
      · next hc =>
          cases h
          exact ⟨c, hc, rfl⟩
      · cases h

section Digits

variable [Digits]

/-- A number is read to its end. -/
theorem afterDigits_append (hne : cs ≠ [])
    (hcs : ∀ c ∈ cs, isDecimalDigit c = true)
    (hrest : ∀ c ∈ rest.head?, isDecimalDigit c = false) :
    afterDigits (cs ++ rest) = some rest := by
  have hhead : (cs ++ rest).head?.any isDecimalDigit = true := by
    cases cs with
    | nil => exact absurd rfl hne
    | cons c cs => exact hcs c (List.mem_cons_self ..)
  rw [afterDigits, if_pos hhead, dropWhile_run hcs hrest]

theorem afterDigits_eq_none (h : ∀ c ∈ cs.head?, isDecimalDigit c = false) :
    afterDigits cs = none := by
  cases cs with
  | nil => rfl
  | cons c cs => exact if_neg (ne_true_of_eq_false (h c rfl))

theorem afterDigits_split (h : afterDigits cs = some rest) :
    ∃ digits, cs = digits ++ rest ∧ digits ≠ []
      ∧ (∀ c ∈ digits, isDecimalDigit c = true)
      ∧ ∀ c ∈ rest.head?, isDecimalDigit c = false := by
  unfold afterDigits at h
  split at h
  · next hhead =>
      cases h
      refine ⟨cs.takeWhile isDecimalDigit,
        List.takeWhile_append_dropWhile.symm, ?_,
        fun _ hc => List.mem_takeWhile_imp hc, ?_⟩
      · cases cs with
        | nil => cases hhead
        | cons c cs =>
            have hc : isDecimalDigit c = true := hhead
            rw [List.takeWhile_cons_of_pos hc]
            exact List.cons_ne_nil _ _
      · intro c hc
        have hne : cs.dropWhile isDecimalDigit ≠ [] := by
          intro hnil
          rw [hnil] at hc
          cases hc
        obtain ⟨d, hd, hdigit⟩ := head_dropWhile hne
        cases hd.symm.trans hc
        exact hdigit
  · cases h

end Digits

/-- What `(?:piece)*` leaves of a text, with any fuel that is enough. -/
def LeavesMany (piece : List Char → Option (List Char))
    (cs left : List Char) : Prop :=
  ∀ fuel, cs.length ≤ fuel → afterMany piece fuel cs = left

theorem leavesMany_of_none {piece : List Char → Option (List Char)}
    (h : piece cs = none) : LeavesMany piece cs cs := by
  intro fuel _
  cases fuel with
  | zero => rfl
  | succ fuel => rw [afterMany, h]

theorem LeavesMany.of_some {piece : List Char → Option (List Char)}
    {left : List Char} (hleft : LeavesMany piece rest left)
    (h : piece cs = some rest) (hlt : rest.length < cs.length) :
    LeavesMany piece cs left := by
  intro fuel hfuel
  cases fuel with
  | zero => omega
  | succ fuel =>
      rw [afterMany, h]
      exact hleft fuel (by omega)

/-- The one alternative of several that matches. -/
theorem findSome?_eq_some {α β : Type _} {f : α → Option β} {l : List α} {a : α}
    {b : β} (ha : a ∈ l) (h : f a = some b)
    (hother : ∀ a' ∈ l, a' ≠ a → f a' = none) : l.findSome? f = some b := by
  classical
  induction l with
  | nil => cases ha
  | cons a' l ih =>
      by_cases heq : a' = a
      · subst heq
        rw [List.findSome?_cons, h]
      · rw [List.findSome?_cons, hother a' (List.mem_cons_self ..) heq]
        exact ih ((List.mem_cons.mp ha).resolve_left (Ne.symm heq))
          fun u hu => hother u (List.mem_cons_of_mem _ hu)

theorem afterLiteral_append (word : String) (rest : List Char) :
    afterLiteral word (word.toList ++ rest) = some rest := by
  rw [afterLiteral, if_pos (List.isPrefixOf_iff_prefix.mpr (List.prefix_append ..)),
    List.drop_left]

theorem afterLiteral_eq_some {word : String} :
    afterLiteral word cs = some rest ↔ cs = word.toList ++ rest := by
  refine ⟨fun h => ?_, fun h => h ▸ afterLiteral_append word rest⟩
  rw [afterLiteral] at h
  split at h
  · next hprefix =>
      obtain ⟨more, rfl⟩ := List.isPrefixOf_iff_prefix.mp hprefix
      rw [List.drop_left] at h
      rw [Option.some.inj h]
  · cases h

/-- In front of the word that is read is some text in one line. -/
theorem afterLazy_eq_some {word : String} (h : afterLazy word cs = some rest) :
    ∃ inner, inner ≠ [] ∧ '\n' ∉ inner ∧ cs = inner ++ word.toList ++ rest := by
  induction cs with
  | nil => cases h
  | cons c cs ih =>
      rw [afterLazy] at h
      split at h
      · cases h
      next hline =>
      rcases Option.or_eq_some_iff.mp h with h | ⟨-, h⟩
      · refine ⟨[c], List.cons_ne_nil _ _, ?_, ?_⟩
        · exact fun hmem => hline (List.mem_singleton.mp hmem).symm
        · rw [afterLiteral_eq_some.mp h, List.append_assoc, List.singleton_append]
      · obtain ⟨inner, -, hinner, rfl⟩ := ih h
        refine ⟨c :: inner, List.cons_ne_nil _ _, ?_, rfl⟩
        exact List.not_mem_cons_of_ne_of_not_mem (Ne.symm hline) hinner

/-- Where such a text stands, the word is read. -/
theorem isSome_afterLazy {word : String} {inner : List Char} (hne : inner ≠ [])
    (hline : '\n' ∉ inner) (rest : List Char) :
    (afterLazy word (inner ++ word.toList ++ rest)).isSome = true := by
  induction inner with
  | nil => exact absurd rfl hne
  | cons c inner ih =>
      obtain ⟨hc, hinner⟩ := List.ne_and_not_mem_of_not_mem_cons hline
      rw [List.cons_append, List.cons_append, afterLazy, if_neg (Ne.symm hc),
        Option.isSome_or, Bool.or_eq_true]
      cases inner with
      | nil =>
          rw [List.nil_append, afterLiteral_append]
          exact .inl rfl
      | cons d inner => exact .inr (ih (List.cons_ne_nil _ _) hinner)

/-- A word of one character is read where it first stands. -/
theorem afterLazy_first {mark c : Char} {inner : List Char} (hc : c ≠ '\n')
    (hline : '\n' ∉ inner) (hmark : mark ∉ inner) (rest : List Char) :
    afterLazy (String.ofList [mark]) (c :: inner ++ mark :: rest) = some rest := by
  induction inner generalizing c with
  | nil =>
      rw [List.cons_append, afterLazy, if_neg hc, List.nil_append,
        afterLiteral_eq_some.mpr (by rw [String.toList_ofList]; rfl),
        Option.some_or]
  | cons d inner ih =>
      obtain ⟨hd, hline⟩ := List.ne_and_not_mem_of_not_mem_cons hline
      obtain ⟨hne, hmark⟩ := List.ne_and_not_mem_of_not_mem_cons hmark
      have hnone : afterLiteral (String.ofList [mark]) (d :: inner ++ mark :: rest)
          = none := by
        rw [Option.eq_none_iff_forall_ne_some]
        intro more h
        have heq := afterLiteral_eq_some.mp h
        rw [String.toList_ofList] at heq
        exact hne (List.cons.inj heq).1.symm
      rw [List.cons_append, afterLazy, if_neg hc, hnone, Option.none_or,
        ih (Ne.symm hd) hline hmark]

end Pieces

-- ============================================================ the tables

/-- ASCII letters are letters, digits are alphanumeric and no ASCII
letters, and white space, the comma and the dashes are not alphanumeric. -/
class LawfulTables [Digits] [Alphanumeric] : Prop where
  alnum_of_isAlpha : ∀ c, c.isAlpha = true → Alphanumeric.isAlnum c = true
  alnum_of_decimal : ∀ c, isDecimalDigit c = true → Alphanumeric.isAlnum c = true
  not_isAlpha_of_decimal : ∀ c, isDecimalDigit c = true → c.isAlpha = false
  not_alnum_of_isSpace : ∀ c, isSpace c = true → Alphanumeric.isAlnum c = false
  not_alnum_of_mark : ∀ c ∈ [',', '-', '–'], Alphanumeric.isAlnum c = false

/-- The digits of ASCII. -/
@[reducible] def asciiDigits : Digits where
  decimal? c := if c.isDigit then some (c.toNat - 48) else none
  isDigit := Char.isDigit

/-- Its letters and digits. -/
@[reducible] def asciiAlphanumeric : Alphanumeric := ⟨Char.isAlphanum⟩

theorem not_isAlphanum_of_isSpace {c : Char} (h : isSpace c = true) :
    c.isAlphanum = false := by
  rw [← Bool.not_eq_true, Char.isAlphanum, Bool.or_eq_true, isAlpha_iff,
    isDigit_iff]
  simp only [isSpace, Bool.or_eq_true, Bool.and_eq_true, decide_eq_true_eq,
    beq_iff_eq] at h
  omega

theorem lawful_ascii : @LawfulTables asciiDigits asciiAlphanumeric := by
  let _ : Digits := asciiDigits
  let _ : Alphanumeric := asciiAlphanumeric
  have hdigit (c : Char) (h : isDecimalDigit c = true) : c.isDigit = true := by
    rw [isDecimalDigit, Option.isSome_iff_ne_none] at h
    by_contra hc
    exact h (if_neg hc)
  refine ⟨fun c h => ?_, fun c h => ?_, fun c h => ?_,
    fun c h => not_isAlphanum_of_isSpace h, by decide⟩
  · exact Bool.or_eq_true _ _ |>.mpr (.inl h)
  · exact Bool.or_eq_true _ _ |>.mpr (.inr (hdigit c h))
  · have hdigit := isDigit_iff.mp (hdigit c h)
    rw [← Bool.not_eq_true, isAlpha_iff]
    omega

-- ===================================================== running a pattern

/-- The number of characters a pattern reads in front of a text, if it
matches there. -/
abbrev Pattern := Option Char → List Char → Option Nat

/-- The pattern of a piece that leaves some of the text. -/
def reads (piece : List Char → Option (List Char)) (cs : List Char) :
    Option Nat :=
  (piece cs).map fun rest => cs.length - rest.length

structure Match where
  start : Nat
  text : List Char
  deriving DecidableEq

/-- `match.end()`. -/
def Match.stop (m : Match) : Nat := m.start + m.text.length

/-- The matches in a text at a position, the first `skip` characters of
which an earlier match has read. -/
def finditerFrom (pattern : Pattern) :
    Nat → Option Char → Nat → List Char → List Match
  | _, _, _, [] => []
  | skip + 1, _, position, c :: cs =>
      finditerFrom pattern skip (some c) (position + 1) cs
  | 0, before, position, c :: cs =>
      match pattern before (c :: cs) with
      | none => finditerFrom pattern 0 (some c) (position + 1) cs
      | some n =>
          { start := position, text := (c :: cs).take n }
            :: finditerFrom pattern (n - 1) (some c) (position + 1) cs

/-- `pattern.finditer(text, start)`. -/
def finditer (pattern : Pattern) (text : List Char) (start : Nat) :
    List Match :=
  finditerFrom pattern 0 (text.take start).getLast? start (text.drop start)

/-- `pattern.findall(text)`, of the whole matches. -/
def findall (pattern : Pattern) (text : List Char) : List (List Char) :=
  (finditer pattern text 0).map Match.text

/-- The pieces `pattern.split(text)` gives where the pattern is a group: what
is between the matches, and the matches. `gap` is what was read since the
last match, and the first `skip` characters are of that match. -/
def splitFrom (pattern : Pattern) :
    Nat → Option Char → List Char → List Char → List (List Char)
  | _, _, gap, [] => [gap]
  | skip + 1, _, gap, c :: cs => splitFrom pattern skip (some c) gap cs
  | 0, before, gap, c :: cs =>
      match pattern before (c :: cs) with
      | none => splitFrom pattern 0 (some c) (gap ++ [c]) cs
      | some n =>
          gap :: (c :: cs).take n :: splitFrom pattern (n - 1) (some c) [] cs

/-- `pattern.split(text)`. -/
def split (pattern : Pattern) (text : List Char) : List (List Char) :=
  splitFrom pattern 0 none [] text

/-- `pattern.search(text)`, as a truth value. -/
def search (pattern : Pattern) (text : List Char) : Bool :=
  finditer pattern text 0 ≠ []

-- ========================================================= what is found

/-- The character in front of what follows a text. -/
def before (first : Option Char) (cs : List Char) : Option Char :=
  cs.getLast?.or first

section Found

variable {pattern : Pattern} {first : Option Char} {position : Nat}
  {cs rest : List Char}

@[simp] theorem before_nil : before first [] = first := rfl

theorem before_cons (first : Option Char) (c : Char) (cs : List Char) :
    before first (c :: cs) = before (some c) cs := by
  cases cs with
  | nil => rfl
  | cons d ds =>
      rw [before, before, List.getLast?_cons_cons,
        List.getLast?_eq_some_getLast (List.cons_ne_nil d ds)]
      rfl

/-- What a match has read is skipped. -/
theorem finditerFrom_skip (pattern : Pattern) (first : Option Char)
    (position : Nat) (cs rest : List Char) :
    finditerFrom pattern cs.length first position (cs ++ rest)
      = finditerFrom pattern 0 (before first cs) (position + cs.length) rest := by
  induction cs generalizing first position with
  | nil => rfl
  | cons c cs ih =>
      rw [List.length_cons, List.cons_append, finditerFrom, ih, before_cons,
        Nat.add_right_comm, Nat.add_assoc]

/-- A match, and what is found behind it. -/
theorem finditerFrom_match (hne : cs ≠ [])
    (h : pattern first (cs ++ rest) = some cs.length) :
    finditerFrom pattern 0 first position (cs ++ rest)
      = { start := position, text := cs }
        :: finditerFrom pattern 0 (before first cs) (position + cs.length)
          rest := by
  cases cs with
  | nil => exact absurd rfl hne
  | cons c cs =>
      rw [List.cons_append] at h ⊢
      rw [finditerFrom, h]
      dsimp only
      rw [List.length_cons, Nat.add_sub_cancel, finditerFrom_skip, before_cons,
        List.take_succ_cons, List.take_left, Nat.add_right_comm, Nat.add_assoc]

theorem splitFrom_skip (pattern : Pattern) (first : Option Char)
    (gap cs rest : List Char) :
    splitFrom pattern cs.length first gap (cs ++ rest)
      = splitFrom pattern 0 (before first cs) gap rest := by
  induction cs generalizing first with
  | nil => rfl
  | cons c cs ih =>
      rw [List.length_cons, List.cons_append, splitFrom, ih, before_cons]

theorem splitFrom_match {gap : List Char} (hne : cs ≠ [])
    (h : pattern first (cs ++ rest) = some cs.length) :
    splitFrom pattern 0 first gap (cs ++ rest)
      = gap :: cs :: splitFrom pattern 0 (before first cs) [] rest := by
  cases cs with
  | nil => exact absurd rfl hne
  | cons c cs =>
      rw [List.cons_append] at h ⊢
      rw [splitFrom, h]
      dsimp only
      rw [List.length_cons, Nat.add_sub_cancel, splitFrom_skip, before_cons,
        List.take_succ_cons, List.take_left]

/-- The pattern reads nothing anywhere in a text, whatever `rest` follows. -/
def Silent (pattern : Pattern) (first : Option Char) (cs rest : List Char) :
    Prop :=
  ∀ a b, cs = a ++ b → b ≠ [] → pattern (before first a) (b ++ rest) = none

theorem Silent.tail {c : Char} (h : Silent pattern first (c :: cs) rest) :
    Silent pattern (some c) cs rest := by
  intro a b hab hb
  rw [← before_cons first]
  exact h (c :: a) b (by rw [hab, List.cons_append]) hb

theorem Silent.cons {c : Char} (hnone : pattern first (c :: cs ++ rest) = none)
    (h : Silent pattern (some c) cs rest) : Silent pattern first (c :: cs) rest := by
  intro a b hab hb
  cases a with
  | nil =>
      rw [List.nil_append] at hab
      rw [← hab]
      exact hnone
  | cons a as =>
      obtain ⟨rfl, htail⟩ := List.cons.inj hab
      rw [before_cons]
      exact h as b htail hb

theorem finditerFrom_silent (h : Silent pattern first cs rest) :
    finditerFrom pattern 0 first position (cs ++ rest)
      = finditerFrom pattern 0 (before first cs) (position + cs.length) rest := by
  induction cs generalizing first position with
  | nil => rfl
  | cons c cs ih =>
      have hnone : pattern first (c :: (cs ++ rest)) = none :=
        h [] (c :: cs) rfl (List.cons_ne_nil _ _)
      rw [List.cons_append, finditerFrom, hnone, ih h.tail, before_cons,
        List.length_cons, Nat.add_right_comm, Nat.add_assoc]

theorem splitFrom_silent {gap : List Char} (h : Silent pattern first cs []) :
    splitFrom pattern 0 first gap cs = [gap ++ cs] := by
  induction cs generalizing first gap with
  | nil => rw [splitFrom, List.append_nil]
  | cons c cs ih =>
      have hnone : pattern first (c :: cs) = none := by
        rw [← List.append_nil (c :: cs)]
        exact h [] (c :: cs) rfl (List.cons_ne_nil _ _)
      rw [splitFrom, hnone]
      dsimp only
      rw [ih h.tail, List.append_assoc, List.singleton_append]

/-- A pattern that begins with none of the characters. -/
theorem silent_of_forall
    (h : ∀ c ∈ cs, ∀ first rest, pattern first (c :: rest) = none)
    (first : Option Char) (rest : List Char) : Silent pattern first cs rest := by
  intro a b hab hb
  cases b with
  | nil => exact absurd rfl hb
  | cons c b =>
      refine h c ?_ _ _
      rw [hab]
      exact List.mem_append_right _ (List.mem_cons_self ..)

/-- The texts found in a part of a text, where `rest` follows it. -/
def Finds (pattern : Pattern) (first : Option Char) (cs rest : List Char)
    (found : List (List Char)) : Prop :=
  ∀ position, (finditerFrom pattern 0 first position (cs ++ rest)).map Match.text
    = found ++ (finditerFrom pattern 0 (before first cs)
        (position + cs.length) rest).map Match.text

theorem finds_of_silent (h : Silent pattern first cs rest) :
    Finds pattern first cs rest [] := by
  intro position
  rw [finditerFrom_silent h, List.nil_append]

theorem finds_of_match (hne : cs ≠ [])
    (h : pattern first (cs ++ rest) = some cs.length) :
    Finds pattern first cs rest [cs] := by
  intro position
  rw [finditerFrom_match hne h]
  rfl

theorem before_append (first : Option Char) (cs ds : List Char) :
    before first (cs ++ ds) = before (before first cs) ds := by
  rw [before, before, before, List.getLast?_append, Option.or_assoc]

/-- One part behind the other. -/
theorem Finds.append {ds : List Char} {found found' : List (List Char)}
    (h : Finds pattern first cs (ds ++ rest) found)
    (h' : Finds pattern (before first cs) ds rest found') :
    Finds pattern first (cs ++ ds) rest (found ++ found') := by
  intro position
  rw [List.append_assoc, h position, h' _, before_append, List.length_append,
    Nat.add_assoc, List.append_assoc]

theorem Finds.findall {found : List (List Char)}
    (h : Finds pattern none cs [] found) : findall pattern cs = found := by
  have hfound := h 0
  rw [List.append_nil, finditerFrom, List.map_nil, List.append_nil] at hfound
  exact hfound

theorem reads_of_rest {piece : List Char → Option (List Char)}
    (h : piece (cs ++ rest) = some rest) :
    reads piece (cs ++ rest) = some cs.length := by
  rw [reads, h, Option.map_some, List.length_append, Nat.add_sub_cancel]

/-- The matches are inside the text. -/
theorem mem_finditerFrom {skip : Nat} {m : Match}
    (h : m ∈ finditerFrom pattern skip first position cs) :
    position ≤ m.start ∧ m.start ≤ m.stop ∧ m.stop ≤ position + cs.length := by
  induction cs generalizing skip first position with
  | nil =>
      rw [finditerFrom] at h
      cases h
  | cons c cs ih =>
      rw [List.length_cons]
      cases skip with
      | succ skip =>
          have hin := ih h
          omega
      | zero =>
          rw [finditerFrom] at h
          split at h
          · have hin := ih h
            omega
          · next n _ =>
              rcases List.mem_cons.mp h with rfl | h
              · have hle : ((c :: cs).take n).length ≤ cs.length + 1 :=
                  List.length_take_le' ..
                rw [Match.stop]
                dsimp only
                omega
              · have hin := ih h
                omega

theorem finditer_eq_nil {text : List Char} {start : Nat}
    (h : text.length ≤ start) : finditer pattern text start = [] := by
  rw [finditer, List.drop_eq_nil_of_le h, finditerFrom]

theorem mem_finditer {text : List Char} {start : Nat} {m : Match}
    (h : m ∈ finditer pattern text start) (hstart : start ≤ text.length) :
    start ≤ m.start ∧ m.start ≤ m.stop ∧ m.stop ≤ text.length := by
  have hin := mem_finditerFrom h
  rw [List.length_drop] at hin
  omega

end Found

end PatentEvidence.Scan
