/-
What the patterns of a European claim read of a reference.

The characters between the numbers of a list are neither digits nor letters
a reference could begin with (`linkLetter_facts`), so one number after the
other is read until something stands there that is no separator
(`leavesMany_restText`). That is behind the list, or at a comma with a
conjunction behind it.

# Sections

- characters;
- separators and signs;
- the list;
- the reference.
-/
import PatentEvidence.Fto.EpClaims
import PatentEvidence.Fto.Wording

namespace PatentEvidence.Fto.EpClaims

open Scan Text Wording

-- ============================================================ characters

/-- The characters of the separators and signs. -/
def linkLetters : List Char := [',', 'o', 'r', 'a', 'n', 'd', 't', '-', '–']

/-- The words of `afterNext`. -/
def links : List String := [",", "or", "and", "to", "-", "–"]

theorem matchesLink_iff {p c : Char} (hp : p ∈ linkLetters) :
    matchesLetter p c = true ↔ c.toLower = p := by
  refine matchesLetter_iff ?_ ?_
  · rintro rfl
    exact absurd hp (by decide)
  · rintro rfl
    exact absurd hp (by decide)

theorem matchesC_iff {c : Char} : matchesLetter 'c' c = true ↔ c.toLower = 'c' :=
  matchesLetter_iff (by decide) (by decide)

theorem isAlpha_of_matchesC {c : Char} (h : matchesLetter 'c' c = true) :
    c.isAlpha = true := by
  by_contra hc
  have hlower := matchesC_iff.mp h
  rw [toLower_of_not_isAlpha (eq_false_of_ne_true hc)] at hlower
  subst hlower
  exact hc (by decide)

theorem not_isAlpha_of_isSpace {c : Char} (h : isSpace c = true) :
    c.isAlpha = false := by
  have hnot := not_isAlphanum_of_isSpace h
  rw [Char.isAlphanum, Bool.or_eq_false_iff] at hnot
  exact hnot.1

theorem not_matchesS_of_isSpace {c : Char} (h : isSpace c = true) :
    matchesLetter 's' c = false := by
  by_contra hc
  rw [Bool.not_eq_false, matchesLetter,
    toLower_of_not_isAlpha (not_isAlpha_of_isSpace h)] at hc
  have hcases : c = 's' ∨ c = 'ſ' := by simpa using hc
  rcases hcases with rfl | rfl
  · exact absurd h (by decide)
  · exact absurd h (by decide)

theorem not_matchesC_of_isSpace {c : Char} (h : isSpace c = true) :
    matchesLetter 'c' c = false := by
  by_contra hc
  have halpha := isAlpha_of_matchesC (eq_true_of_ne_false hc)
  have hnot := not_isAlphanum_of_isSpace h
  rw [Char.isAlphanum, halpha] at hnot
  cases hnot

-- ================================================= separators and signs

/-- A word of a separator or a sign. -/
structure Link where
  word : String
  chars : List Char
  mem : word ∈ links
  spells : List.Forall₂ (fun p c => matchesLetter p c = true) word.toList chars

theorem mem_linkLetters {w : String} (hw : w ∈ links) {p : Char}
    (hp : p ∈ w.toList) : p ∈ linkLetters := by
  have hall : ∀ w ∈ links, ∀ p ∈ w.toList, p ∈ linkLetters := by decide
  exact hall w hw p hp

/-- Links are not empty. -/
theorem Link.head (l : Link) (more : List Char) :
    ∃ c ∈ (l.chars ++ more).head?, c ∈ l.chars := by
  have hne : ∀ w ∈ links, w.toList ≠ [] := by decide
  have hlength := l.spells.length_eq
  cases hchars : l.chars with
  | nil =>
      rw [hchars, List.length_nil, List.length_eq_zero_iff] at hlength
      exact absurd hlength (hne _ l.mem)
  | cons c chars => exact ⟨c, rfl, List.mem_cons_self ..⟩

/-- No two words of separators begin alike. -/
theorem afterWord_link {w : String} {chars more : List Char} (hw : w ∈ links)
    (hchars : List.Forall₂ (fun p c => matchesLetter p c = true) w.toList chars)
    {v : String} (hv : v ∈ links) (hne : v ≠ w) :
    afterWord v.toList (chars ++ more) = none := by
  have hheads : ∀ v ∈ links, ∀ w ∈ links, v ≠ w →
      v.toList.head? ≠ w.toList.head? := by decide
  have hfull : ∀ w ∈ links, w.toList ≠ [] := by decide
  have hdiff := hheads v hv w hw hne
  cases hvl : v.toList with
  | nil => exact absurd hvl (hfull v hv)
  | cons q qs =>
      cases hwl : w.toList with
      | nil => exact absurd hwl (hfull w hw)
      | cons p ps =>
          rw [hwl] at hchars
          obtain ⟨c, cs, hc, -, rfl⟩ := List.forall₂_cons_left_iff.mp hchars
          have hp : p ∈ linkLetters :=
            mem_linkLetters hw (by rw [hwl]; exact List.mem_cons_self ..)
          have hq : q ∈ linkLetters :=
            mem_linkLetters hv (by rw [hvl]; exact List.mem_cons_self ..)
          refine afterWord_eq_none (Bool.eq_false_iff.mpr fun hqc => hdiff ?_)
          rw [hvl, hwl, List.head?_cons, List.head?_cons,
            ← (matchesLink_iff hp).mp hc, ← (matchesLink_iff hq).mp hqc]

theorem afterAny_link (l : Link) (more : List Char) :
    afterAny links (l.chars ++ more) = some more :=
  findSome?_eq_some l.mem (afterWord_eq_some.mpr ⟨l.chars, rfl, l.spells⟩)
    fun _ hv hne => afterWord_link l.mem l.spells hv hne

/-- A link that is another's word is that word's link. -/
theorem word_of_chars (l : Link) {v : String} (hv : v ∈ links)
    (h : l.chars = v.toList) : l.word = v := by
  by_contra hne
  have hspells : List.Forall₂ (fun p c => matchesLetter p c = true) v.toList
      v.toList := by
    have hself : ∀ v ∈ links, ∀ p ∈ v.toList, matchesLetter p p = true := by
      decide
    exact List.forall₂_same.mpr (hself v hv)
  have hnone : afterWord v.toList (l.chars ++ []) = none :=
    afterWord_link l.mem l.spells hv (Ne.symm hne)
  rw [h, afterWord_eq_some.mpr ⟨v.toList, rfl, hspells⟩] at hnone
  cases hnone

/-- The comma. -/
def comma : Link := ⟨",", [','], by decide, .cons (by decide) .nil⟩

def conjunctionLink : Conjunction → Link
  | .or word => ⟨"or", word.chars, by decide, word.spells⟩
  | .and word => ⟨"and", word.chars, by decide, word.spells⟩

theorem chars_conjunctionLink (w : Conjunction) :
    (conjunctionLink w).chars = w.text := by
  cases w with
  | or => rfl
  | and => rfl

def signLink : RangeSign → Link
  | .upTo word => ⟨"to", word.chars, by decide, word.spells⟩
  | .hyphen => ⟨"-", ['-'], by decide, .cons (by decide) .nil⟩
  | .dash => ⟨"–", ['–'], by decide, .cons (by decide) .nil⟩

theorem chars_signLink (sign : RangeSign) :
    (signLink sign).chars = sign.text := by
  cases sign with
  | upTo => rfl
  | hyphen => rfl
  | dash => rfl

/-- A separator without both a comma and a conjunction has one link. -/
theorem text_of_not_isBoth {s : Separator} (h : s.isBoth = false) :
    ∃ (before : Blanks) (l : Link) (after : Blanks),
      (l.word = "," ∨ l.word = "or" ∨ l.word = "and")
        ∧ s.text = before.chars ++ (l.chars ++ after.chars) := by
  cases s with
  | comma before after =>
      exact ⟨before, comma, after, .inl rfl, List.append_assoc ..⟩
  | conjunction before word after =>
      refine ⟨before, conjunctionLink word, after, ?_, ?_⟩
      · cases word with
        | or => exact .inr (.inl rfl)
        | and => exact .inr (.inr rfl)
      · rw [chars_conjunctionLink]
        exact List.append_assoc ..
  | both => cases h

/-- A link is a separator or a sign. -/
theorem separator_or_sign (l : Link) :
    (∀ before after : Blanks, ∃ s : Separator,
      s.text = before.chars ++ (l.chars ++ after.chars))
      ∨ ∃ sign : RangeSign, sign.text = l.chars := by
  obtain ⟨w, chars, hw, hspells⟩ := l
  -- a mark is spelled one way
  have hmark {p : Char} (hp : p ∈ linkLetters) (halpha : p.isAlpha = false)
      (h : List.Forall₂ (fun p c => matchesLetter p c = true) [p] chars) :
      chars = [p] := by
    obtain ⟨c, cs, hc, hcs, rfl⟩ := List.forall₂_cons_left_iff.mp h
    rw [List.forall₂_nil_left_iff.mp hcs,
      eq_of_toLower halpha ((matchesLink_iff hp).mp hc)]
  have hcases : w = "," ∨ w = "or" ∨ w = "and" ∨ w = "to" ∨ w = "-" ∨ w = "–" := by
    simpa only [links, List.mem_cons, List.not_mem_nil, or_false] using hw
  rcases hcases with rfl | rfl | rfl | rfl | rfl | rfl
  · left
    intro before after
    have hchars : chars = [','] := hmark (by decide) (by decide) hspells
    subst hchars
    exact ⟨.comma before after, List.append_assoc ..⟩
  · exact .inl fun before after =>
      ⟨.conjunction before (.or ⟨chars, hspells⟩) after, List.append_assoc ..⟩
  · exact .inl fun before after =>
      ⟨.conjunction before (.and ⟨chars, hspells⟩) after, List.append_assoc ..⟩
  · exact .inr ⟨.upTo ⟨chars, hspells⟩, rfl⟩
  · right
    have hchars : chars = ['-'] := hmark (by decide) (by decide) hspells
    exact ⟨.hyphen, hchars.symm⟩
  · right
    have hchars : chars = ['–'] :=
      hmark (by decide) (by decide +kernel) hspells
    exact ⟨.dash, hchars.symm⟩

variable [Digits]

/-- What may follow a number: no digit. -/
def NoDigit (cs : List Char) : Prop :=
  ∀ c ∈ cs.head?, isDecimalDigit c = false

theorem noDigit_append {cs more : List Char}
    (hcs : ∀ c ∈ cs, isDecimalDigit c = false) (hmore : NoDigit more) :
    NoDigit (cs ++ more) := by
  cases cs with
  | nil => exact hmore
  | cons c cs =>
      intro d hd
      cases hd
      exact hcs c (List.mem_cons_self ..)

/-- What is read behind a number: a separator or sign, and a number. -/
theorem afterNext_split {cs more : List Char} (h : afterNext cs = some more) :
    ∃ (before : Blanks) (l : Link) (after : Blanks) (n : Numeral),
      cs = before.chars ++ (l.chars ++ (after.chars ++ (n.digits ++ more))) := by
  obtain ⟨rest, hrest, hdigits⟩ := Option.bind_eq_some_iff.mp h
  obtain ⟨w, hw, hword⟩ := List.exists_of_findSome?_eq_some hrest
  obtain ⟨chars, hchars, hspells⟩ := afterWord_eq_some.mp hword
  obtain ⟨spaces, hcs, hspaces⟩ := afterSpaces_split cs
  obtain ⟨spaces', hcs', hspaces'⟩ := afterSpaces_split rest
  obtain ⟨digits, hnumber, hne, hdecimal, -⟩ := afterDigits_split hdigits
  refine ⟨⟨spaces, hspaces⟩, ⟨w, chars, hw, hspells⟩, ⟨spaces', hspaces'⟩,
    ⟨digits, hdecimal, hne⟩, ?_⟩
  dsimp only
  rw [← hnumber, ← hcs', ← hchars, ← hcs]

/-- Behind a list nothing more is read. -/
theorem afterNext_of_ends {rest : List Char} (h : Ends rest) :
    afterNext rest = none := by
  rw [Option.eq_none_iff_forall_ne_some]
  intro more hmore
  obtain ⟨before, l, after, n, hrest⟩ := afterNext_split hmore
  rcases separator_or_sign l with hsep | ⟨sign, hsign⟩
  · obtain ⟨s, hs⟩ := hsep before after
    refine h.separator s n more ?_
    rw [hrest, hs]
    simp only [List.append_assoc]
  · refine h.sign before after sign n more ?_
    rw [hrest, hsign]
    simp only [List.append_assoc]

-- ---------------------------------------------- where nothing runs together

variable [Alphanumeric] [LawfulTables]

theorem not_decimal_of_isAlpha {c : Char} (h : c.isAlpha = true) :
    isDecimalDigit c = false := by
  by_contra hc
  have hnot := LawfulTables.not_isAlpha_of_decimal c (eq_true_of_ne_false hc)
  rw [h] at hnot
  cases hnot

theorem not_decimal_of_not_alnum {c : Char}
    (h : Alphanumeric.isAlnum c = false) : isDecimalDigit c = false := by
  by_contra hc
  have halnum := LawfulTables.alnum_of_decimal c (eq_true_of_ne_false hc)
  rw [h] at halnum
  cases halnum

theorem not_decimal_of_isSpace {c : Char} (h : isSpace c = true) :
    isDecimalDigit c = false :=
  not_decimal_of_not_alnum (LawfulTables.not_alnum_of_isSpace c h)

theorem not_isSpace_of_decimal {c : Char} (h : isDecimalDigit c = true) :
    isSpace c = false := by
  by_contra hc
  rw [not_decimal_of_isSpace (eq_true_of_ne_false hc)] at h
  cases h

theorem not_matchesC_of_decimal {c : Char} (h : isDecimalDigit c = true) :
    matchesLetter 'c' c = false := by
  by_contra hc
  have halpha := isAlpha_of_matchesC (eq_true_of_ne_false hc)
  rw [LawfulTables.not_isAlpha_of_decimal c h] at halpha
  cases halpha

/-- A character of a separator or sign is no space and no digit, and no
reference begins with it. -/
theorem linkLetter_facts {p c : Char} (hp : p ∈ linkLetters)
    (h : matchesLetter p c = true) :
    isSpace c = false ∧ isDecimalDigit c = false
      ∧ matchesLetter 'c' c = false := by
  rw [matchesLink_iff hp] at h
  have hc : matchesLetter 'c' c = false := by
    by_contra hc
    rw [matchesC_iff.mp (eq_true_of_ne_false hc)] at h
    subst h
    exact absurd hp (by decide)
  by_cases halpha : c.isAlpha = true
  · refine ⟨?_, not_decimal_of_isAlpha halpha, hc⟩
    by_contra hspace
    rw [not_isAlpha_of_isSpace (eq_true_of_ne_false hspace)] at halpha
    cases halpha
  · -- a comma or a dash, which has one case only
    rw [toLower_of_not_isAlpha (eq_false_of_ne_true halpha)] at h
    subst h
    have hmark : c ∈ [',', '-', '–'] := by
      have hall : ∀ p ∈ linkLetters, p.isAlpha = true ∨ p ∈ [',', '-', '–'] := by
        decide
      exact (hall c hp).resolve_left halpha
    have hspace : ∀ p ∈ [',', '-', '–'], isSpace p = false := by
      decide
    exact ⟨hspace c hmark, not_decimal_of_not_alnum
      (LawfulTables.not_alnum_of_mark c hmark), hc⟩

theorem Link.facts (l : Link) {c : Char} (hc : c ∈ l.chars) :
    isSpace c = false ∧ isDecimalDigit c = false
      ∧ matchesLetter 'c' c = false := by
  obtain ⟨p, hp, h⟩ := exists_letter l.spells hc
  exact linkLetter_facts (mem_linkLetters l.mem hp) h

theorem Link.head_facts (l : Link) {more : List Char} :
    ∀ c ∈ (l.chars ++ more).head?, isSpace c = false
      ∧ isDecimalDigit c = false := by
  obtain ⟨d, hd, hmem⟩ := l.head more
  intro c hc
  cases Option.mem_unique hc hd
  exact ⟨(l.facts hmem).1, (l.facts hmem).2.1⟩

theorem Blanks.noDigit (b : Blanks) {more : List Char} (hmore : NoDigit more) :
    NoDigit (b.chars ++ more) :=
  noDigit_append (fun c hc => not_decimal_of_isSpace (b.space c hc)) hmore

/-- A number behind white space. -/
theorem afterNumber_blanks (b : Blanks) (n : Numeral) {more : List Char}
    (hmore : NoDigit more) :
    afterDigits (afterSpaces (b.chars ++ (n.digits ++ more))) = some more := by
  rw [afterSpaces_append b.space]
  · exact afterDigits_append n.ne_nil n.decimal hmore
  · intro c hc
    cases hdigits : n.digits with
    | nil => exact absurd hdigits n.ne_nil
    | cons d ds =>
        rw [hdigits] at hc
        cases hc
        exact not_isSpace_of_decimal
          (n.decimal c (by rw [hdigits]; exact List.mem_cons_self ..))

/-- A separator or sign, and the number behind it. -/
theorem afterNext_link (before : Blanks) (l : Link) (after : Blanks)
    (n : Numeral) {more : List Char} (hmore : NoDigit more) :
    afterNext (before.chars ++ (l.chars ++ (after.chars ++ (n.digits ++ more))))
      = some more := by
  have hhead : ∀ c ∈ (l.chars ++ (after.chars ++ (n.digits ++ more))).head?,
      isSpace c = false := fun c hc => (l.head_facts c hc).1
  have hspaces := afterSpaces_append before.space hhead
  rw [afterNext, hspaces, ← links, afterAny_link]
  exact afterNumber_blanks after n hmore

/-- Nor at a comma with a conjunction behind it. -/
theorem afterNext_both {s : Separator} (h : s.isBoth = true) (more : List Char) :
    afterNext (s.text ++ more) = none := by
  cases s with
  | comma => cases h
  | conjunction => cases h
  | both before between word after =>
      have htext : (Separator.both before between word after).text ++ more
          = before.chars ++ (comma.chars ++ (between.chars
            ++ ((conjunctionLink word).chars ++ (after.chars ++ more)))) := by
        rw [chars_conjunctionLink]
        simp only [Separator.text, comma, List.append_assoc]
      rw [htext, afterNext, ← links, afterSpaces_append before.space
        fun c hc => (comma.head_facts c hc).1, afterAny_link]
      change afterDigits (afterSpaces _) = none
      rw [afterSpaces_append between.space
        fun c hc => ((conjunctionLink word).head_facts c hc).1]
      exact afterDigits_eq_none fun c hc =>
        ((conjunctionLink word).head_facts c hc).2

-- ============================================================== the list

/-- The first number of an item. -/
def firstNumber : Item → Numeral
  | .one n => n
  | .range low .. => low

/-- What follows it in the item. -/
def behind : Item → List Char
  | .one _ => []
  | .range _ before sign after high =>
      before.chars ++ (sign.text ++ (after.chars ++ high.digits))

omit [Alphanumeric] [LawfulTables] in
theorem text_eq_behind (i : Item) :
    i.text = (firstNumber i).digits ++ behind i := by
  cases i with
  | one n => exact (List.append_nil _).symm
  | range => simp only [Item.text, firstNumber, behind, List.append_assoc]

theorem noDigit_link (l : Link) (more : List Char) :
    NoDigit (l.chars ++ more) :=
  fun c hc => (l.head_facts c hc).2

theorem noDigit_separator (s : Separator) (more : List Char) :
    NoDigit (s.text ++ more) := by
  cases s with
  | comma before after =>
      simp only [Separator.text, List.append_assoc]
      exact Blanks.noDigit before (noDigit_link comma _)
  | conjunction before word after =>
      rw [Separator.text, ← chars_conjunctionLink]
      simp only [List.append_assoc]
      exact Blanks.noDigit before (noDigit_link _ _)
  | both before between word after =>
      simp only [Separator.text, List.append_assoc]
      exact Blanks.noDigit before (noDigit_link comma _)

theorem noDigit_behind (i : Item) {more : List Char} (hmore : NoDigit more) :
    NoDigit (behind i ++ more) := by
  cases i with
  | one n => exact hmore
  | range low before sign after high =>
      rw [behind, ← chars_signLink]
      simp only [List.append_assoc]
      exact Blanks.noDigit before (noDigit_link _ _)

theorem noDigit_restText (rest : List (Separator × Item)) {more : List Char}
    (hmore : NoDigit more) : NoDigit (Reference.restText rest ++ more) := by
  cases rest with
  | nil => exact hmore
  | cons r rest =>
      rw [Reference.restText, List.flatMap_cons, List.append_assoc,
        List.append_assoc]
      exact noDigit_separator r.1 _

/-- The rest of an item is read. -/
theorem leavesMany_behind (i : Item) {more left : List Char}
    (hmore : NoDigit more) (h : LeavesMany afterNext more left) :
    LeavesMany afterNext (behind i ++ more) left := by
  cases i with
  | one n => exact h
  | range low before sign after high =>
      have hread := afterNext_link before (signLink sign) after high hmore
      have htext : behind (.range low before sign after high) ++ more
          = before.chars ++ ((signLink sign).chars
            ++ (after.chars ++ (high.digits ++ more))) := by
        rw [chars_signLink]
        simp only [behind, List.append_assoc]
      rw [htext]
      refine h.of_some hread ?_
      have hpos := List.length_pos_iff.mpr high.ne_nil
      simp only [List.length_append]
      omega

/-- So is the list, up to where nothing more is read. -/
theorem leavesMany_restText {rest : List (Separator × Item)} {more : List Char}
    (hsingle : ∀ r ∈ rest, r.1.isBoth = false) (hmore : NoDigit more)
    (hstop : afterNext more = none) :
    LeavesMany afterNext (Reference.restText rest ++ more) more := by
  induction rest with
  | nil => exact leavesMany_of_none hstop
  | cons r rest ih =>
      obtain ⟨hr, hrest⟩ := List.forall_mem_cons.mp hsingle
      obtain ⟨before, l, after, -, hsep⟩ := text_of_not_isBoth hr
      have hafter := noDigit_restText rest hmore
      have hread := afterNext_link before l after (firstNumber r.2)
        (noDigit_behind r.2 hafter)
      have htext : Reference.restText (r :: rest) ++ more
          = before.chars ++ (l.chars ++ (after.chars ++ ((firstNumber r.2).digits
            ++ (behind r.2 ++ (Reference.restText rest ++ more))))) := by
        rw [Reference.restText, List.flatMap_cons, hsep, text_eq_behind]
        simp only [Reference.restText, List.append_assoc]
      rw [htext]
      refine (leavesMany_behind r.2 hafter (ih hrest)).of_some hread ?_
      have hpos := List.length_pos_iff.mpr (firstNumber r.2).ne_nil
      simp only [List.length_append]
      omega

-- ========================================================= the reference

/-- The part of the list that is read. -/
def leadingList (r : Reference) : List Char :=
  r.first.text ++ Reference.restText (Reference.leading r.rest)

/-- The part that is not. -/
def cutList (r : Reference) : List Char :=
  Reference.restText (r.rest.dropWhile fun r => !r.1.isBoth)

omit [Alphanumeric] [LawfulTables] in
theorem text_eq_leading (r : Reference) :
    r.text = (r.word ++ leadingList r) ++ cutList r := by
  have hrest : Reference.restText (Reference.leading r.rest) ++ cutList r
      = Reference.restText r.rest := by
    rw [Reference.restText, cutList, Reference.restText, ← List.flatMap_append,
      Reference.leading, List.takeWhile_append_dropWhile, Reference.restText]
  rw [Reference.text, ← hrest, leadingList]
  simp only [List.append_assoc]

/-- Nothing more is read where the list is cut. -/
theorem afterNext_cutList (r : Reference) {rest : List Char} (h : Ends rest) :
    afterNext (cutList r ++ rest) = none ∧ NoDigit (cutList r ++ rest) := by
  rw [cutList]
  cases hcut : r.rest.dropWhile fun r => !r.1.isBoth with
  | nil => exact ⟨afterNext_of_ends h, h.digit⟩
  | cons next cut =>
      have hboth : next.1.isBoth = true := by
        have hne : (r.rest.dropWhile fun r => !r.1.isBoth) ≠ [] := by
          rw [hcut]
          exact List.cons_ne_nil _ _
        obtain ⟨found, hfound, hnot⟩ := head_dropWhile hne
        rw [hcut] at hfound
        cases hfound
        exact Bool.not_inj hnot
      rw [Reference.restText, List.flatMap_cons, List.append_assoc,
        List.append_assoc]
      exact ⟨afterNext_both hboth _, noDigit_separator _ _⟩

omit [Digits] [Alphanumeric] [LawfulTables] in
/-- The leading items are in front of the first "both". -/
theorem isBoth_of_mem_leading [Digits] {rest : List (Separator × Item)}
    {p : Separator × Item} (h : p ∈ Reference.leading rest) : p.1.isBoth = false := by
  have hnot := List.mem_takeWhile_imp h
  rwa [Bool.not_eq_true'] at hnot

theorem leavesMany_leadingList (r : Reference) {rest : List Char}
    (h : Ends rest) :
    LeavesMany afterNext (behind r.first ++ (Reference.restText
      (Reference.leading r.rest) ++ (cutList r ++ rest))) (cutList r ++ rest) := by
  obtain ⟨hstop, hdigit⟩ := afterNext_cutList r h
  exact leavesMany_behind r.first (noDigit_restText _ hdigit)
    (leavesMany_restText (fun s hs => isBoth_of_mem_leading hs) hdigit hstop)

omit [Digits] [Alphanumeric] [LawfulTables] in
/-- The word in front of a list is read up to its gap. -/
theorem afterClaimWord_word [Digits] (r : Reference) (more : List Char) :
    afterClaimWord (r.word ++ more) = some (r.gap.chars ++ more) := by
  have hword (rest : List Char) :
      afterWord "claim".toList (r.keyword.chars ++ rest) = some rest :=
    afterWord_eq_some.mpr ⟨_, rfl, r.keyword.spells⟩
  cases hplural : r.plural with
  | some plural =>
      have hs : afterWord ['s'] (plural.chars ++ (r.gap.chars ++ more))
          = some (r.gap.chars ++ more) :=
        afterWord_eq_some.mpr ⟨_, rfl, plural.spells⟩
      rw [afterClaimWord, Reference.word, hplural, Option.map_some,
        Option.getD_some, List.append_assoc, List.append_assoc, hword]
      change some ((afterWord ['s'] _).getD _) = _
      rw [hs, Option.getD_some]
  | none =>
      have hs : afterWord ['s'] (r.gap.chars ++ more) = none := by
        cases hgap : r.gap.chars with
        | nil => exact absurd hgap r.gap_ne_nil
        | cons c cs =>
            refine afterWord_eq_none (not_matchesS_of_isSpace (r.gap.space c ?_))
            rw [hgap]
            exact List.mem_cons_self ..
      rw [afterClaimWord, Reference.word, hplural, Option.map_none,
        Option.getD_none, List.append_nil, List.append_assoc, hword]
      change some ((afterWord ['s'] _).getD _) = _
      rw [hs, Option.getD_none]

theorem afterSomeSpaces_gap (r : Reference) (more : List Char) :
    afterSomeSpaces (r.gap.chars ++ ((firstNumber r.first).digits ++ more))
      = some ((firstNumber r.first).digits ++ more) := by
  refine afterSomeSpaces_append r.gap_ne_nil r.gap.space fun c hc => ?_
  have hmem : c ∈ (firstNumber r.first).digits := by
    cases hdigits : (firstNumber r.first).digits with
    | nil => exact absurd hdigits (firstNumber r.first).ne_nil
    | cons d ds =>
        rw [hdigits] at hc
        cases hc
        exact List.mem_cons_self ..
  exact not_isSpace_of_decimal ((firstNumber r.first).decimal c hmem)

/-- The group of what is read of a reference. -/
theorem numbersOf_leading (r : Reference) :
    numbersOf (r.word ++ leadingList r) = leadingList r := by
  rw [numbersOf, afterClaimWord_word, Option.bind_some, leadingList,
    text_eq_behind, List.append_assoc, afterSomeSpaces_gap, Option.getD_some]

omit [LawfulTables] in
/-- No reference begins with another letter. -/
theorem reference_eq_none {c : Char} (h : matchesLetter 'c' c = false)
    (first : Option Char) (cs : List Char) : reference first (c :: cs) = none := by
  have hword : afterClaimWord (c :: cs) = none := by
    rw [afterClaimWord]
    change (afterWord ('c' :: _) (c :: cs)).bind _ = none
    rw [afterWord_eq_none h, Option.bind_none]
  rw [reference]
  split
  · rw [reads, hword]
    rfl
  · rfl

/-- A reference begins with a word character. -/
theorem isWord_of_spelling (w : Spelling "claim") (more : List Char) :
    ∃ c ∈ (w.chars ++ more).head?, isWord c = true := by
  obtain ⟨c, cs, hc, -, hchars⟩ := List.forall₂_cons_left_iff.mp w.spells
  refine ⟨c, by rw [hchars]; rfl, ?_⟩
  rw [isWord, LawfulTables.alnum_of_isAlpha c (isAlpha_of_matchesC hc),
    Bool.true_or]

omit [Digits] [LawfulTables] in
theorem wordBoundary_iff {first : Option Char} {cs : List Char}
    (h : ∃ c ∈ cs.head?, isWord c = true) :
    wordBoundary first cs = true ↔ ∀ c ∈ first, isWord c = false := by
  obtain ⟨c, hc, hword⟩ := h
  rw [wordBoundary, Option.mem_def.mp hc]
  cases first with
  | none =>
      simp only [Option.any_none, Option.any_some, hword]
      exact iff_of_true (by decide) (fun d hd => nomatch hd)
  | some d =>
      simp only [Option.any_some, hword, Option.mem_def, Option.some.injEq,
        forall_eq', bne_iff_ne, ne_eq, Bool.not_eq_true]

/-- What is read of a reference. -/
theorem reference_text {first : Option Char} (r : Reference) {rest : List Char}
    (hfirst : ∀ c ∈ first, isWord c = false) (hends : Ends rest) :
    reference first ((r.word ++ leadingList r) ++ (cutList r ++ rest))
      = some (r.word ++ leadingList r).length := by
  have hhead : ∃ c ∈ ((r.word ++ leadingList r) ++ (cutList r ++ rest)).head?,
      isWord c = true := by
    rw [Reference.word]
    simp only [List.append_assoc]
    exact isWord_of_spelling r.keyword _
  have hlist := leavesMany_leadingList r hends
  have hdigits := afterDigits_append (firstNumber r.first).ne_nil
    (firstNumber r.first).decimal (noDigit_behind r.first
      (noDigit_restText (Reference.leading r.rest) (afterNext_cutList r hends).2))
  rw [reference, if_pos ((wordBoundary_iff hhead).mpr hfirst)]
  refine reads_of_rest ?_
  rw [List.append_assoc, afterClaimWord_word, leadingList, text_eq_behind]
  simp only [List.append_assoc]
  change (afterSomeSpaces _).bind _ = _
  rw [afterSomeSpaces_gap, Option.bind_some, hdigits]
  exact congrArg some (hlist _ (le_refl _))

/-- And only where one begins. -/
theorem begins_of_reference {first : Option Char} {cs : List Char} {n : Nat}
    (h : reference first cs = some n) : Begins first cs := by
  unfold reference at h
  split at h
  · next hboundary =>
      obtain ⟨rest, hrest, -⟩ := Option.map_eq_some_iff.mp h
      obtain ⟨afterWordRest, hword, hrest⟩ := Option.bind_eq_some_iff.mp hrest
      obtain ⟨afterGap, hgap, hrest⟩ := Option.bind_eq_some_iff.mp hrest
      obtain ⟨afterNumber, hnumber, -⟩ := Option.bind_eq_some_iff.mp hrest
      obtain ⟨claimRest, hclaim, hplural⟩ := Option.bind_eq_some_iff.mp hword
      obtain ⟨keyword, hcs, hkeyword⟩ := afterWord_eq_some.mp hclaim
      obtain ⟨gap, hgapText, hgapNe, hgapSpace⟩ := afterSomeSpaces_split hgap
      obtain ⟨digits, hdigits, hdigitsNe, hdecimal, -⟩ := afterDigits_split hnumber
      have hs : ∃ plural : Option (Spelling "s"), claimRest
          = (plural.map Spelling.chars).getD [] ++ afterWordRest := by
        cases hafter : afterWord ['s'] claimRest with
        | none =>
            rw [hafter] at hplural
            cases hplural
            exact ⟨none, rfl⟩
        | some rest =>
            rw [hafter] at hplural
            cases hplural
            obtain ⟨chars, hchars, hspells⟩ := afterWord_eq_some.mp hafter
            exact ⟨some ⟨chars, hspells⟩, hchars⟩
      obtain ⟨plural, hs⟩ := hs
      subst hcs
      refine ⟨(wordBoundary_iff (isWord_of_spelling ⟨keyword, hkeyword⟩ _)).mp
        hboundary, ⟨⟨keyword, hkeyword⟩, plural, ⟨gap, hgapSpace⟩, hgapNe,
          .one ⟨digits, hdecimal, hdigitsNe⟩, []⟩, afterNumber, ?_⟩
      rw [hs, hgapText, hdigits]
      simp only [Reference.text, Reference.word, Item.text, Reference.restText,
        List.flatMap_nil, List.append_nil, List.append_assoc]
  · cases h

-- ================================================== between the references

theorem silent_of_quiet {first : Option Char} {cs rest : List Char}
    (h : Quiet first cs rest) : Silent reference first cs rest := by
  intro a b hab hb
  rw [Option.eq_none_iff_forall_ne_some]
  exact fun n hn => h a b hab hb (begins_of_reference hn)

/-- The characters of a separator. -/
theorem separator_facts {s : Separator} {c : Char} (hc : c ∈ s.text) :
    isDecimalDigit c = false ∧ matchesLetter 'c' c = false := by
  have hblank {b : Blanks} (hc : c ∈ b.chars) :
      isDecimalDigit c = false ∧ matchesLetter 'c' c = false :=
    ⟨not_decimal_of_isSpace (b.space c hc),
      not_matchesC_of_isSpace (b.space c hc)⟩
  have hlink {l : Link} (hc : c ∈ l.chars) :
      isDecimalDigit c = false ∧ matchesLetter 'c' c = false :=
    (l.facts hc).2
  cases s with
  | comma before after =>
      simp only [Separator.text, List.mem_append] at hc
      rcases hc with (hc | hc) | hc
      · exact hblank hc
      · exact hlink (l := comma) hc
      · exact hblank hc
  | conjunction before word after =>
      simp only [Separator.text, ← chars_conjunctionLink, List.mem_append] at hc
      rcases hc with (hc | hc) | hc
      · exact hblank hc
      · exact hlink hc
      · exact hblank hc
  | both before between word after =>
      simp only [Separator.text, ← chars_conjunctionLink, List.mem_append] at hc
      rcases hc with (((hc | hc) | hc) | hc) | hc
      · exact hblank hc
      · exact hlink (l := comma) hc
      · exact hblank hc
      · exact hlink hc
      · exact hblank hc

theorem item_facts {i : Item} {c : Char} (hc : c ∈ i.text) :
    matchesLetter 'c' c = false := by
  cases i with
  | one n => exact not_matchesC_of_decimal (n.decimal c hc)
  | range low before sign after high =>
      simp only [Item.text, ← chars_signLink, List.mem_append] at hc
      rcases hc with (((hc | hc) | hc) | hc) | hc
      · exact not_matchesC_of_decimal (low.decimal c hc)
      · exact not_matchesC_of_isSpace (before.space c hc)
      · exact ((signLink sign).facts hc).2.2
      · exact not_matchesC_of_isSpace (after.space c hc)
      · exact not_matchesC_of_decimal (high.decimal c hc)

/-- No reference begins in the part of a list that is not read. -/
theorem silent_cutList (r : Reference) (first : Option Char) (rest : List Char) :
    Silent reference first (cutList r) rest := by
  refine silent_of_forall (fun c hc => reference_eq_none ?_) first rest
  obtain ⟨p, -, hc⟩ := List.mem_flatMap.mp hc
  rcases List.mem_append.mp hc with hc | hc
  · exact (separator_facts hc).2
  · exact item_facts hc

/-- The references that are found are those of the text. -/
theorem finds_textOf {first : Option Char} {parts : List (List Char × Reference)}
    {tail : List Char} (h : Marked tail first parts) :
    Finds reference first (textOf tail parts) []
      (parts.map fun p => p.2.word ++ leadingList p.2) := by
  induction parts generalizing first with
  | nil => exact finds_of_silent (silent_of_quiet h)
  | cons p parts ih =>
      obtain ⟨hquiet, hfirst, hends, hmarked⟩ := h
      have hfiller : Finds reference first p.1
          (p.2.text ++ textOf tail parts ++ []) [] := by
        rw [List.append_nil]
        exact finds_of_silent (silent_of_quiet hquiet)
      have hread : Finds reference (before first p.1)
          (p.2.word ++ leadingList p.2) (cutList p.2 ++ textOf tail parts)
          [p.2.word ++ leadingList p.2] := by
        refine finds_of_match ?_ (reference_text p.2 hfirst hends)
        rw [Reference.word]
        intro hnil
        obtain ⟨c, hc, -⟩ := isWord_of_spelling p.2.keyword []
        simp only [List.append_eq_nil_iff] at hnil
        rw [hnil.1.1.1] at hc
        cases hc
      have hreference := hread.append (finds_of_silent
        (silent_cutList p.2 _ (textOf tail parts)))
      rw [← text_eq_leading, List.append_nil] at hreference
      have hrest : Finds reference (before first p.1)
          (p.2.text ++ textOf tail parts) []
          ([p.2.word ++ leadingList p.2]
            ++ parts.map fun p => p.2.word ++ leadingList p.2) := by
        refine Finds.append ?_ (ih hmarked)
        rw [List.append_nil]
        exact hreference
      exact hfiller.append hrest

end PatentEvidence.Fto.EpClaims
