/-
The references of a European claim, exactly.

Of each reference the part of its list in front of a comma with a
conjunction is read (Proofs/EpReading.lean). In that part the numbers are
found one by one (`finds_numbers`), and the ranges whose sign is plain
(`finds_ranges`). So the numbers found are those the wording denotes
plainly (`mem_parsed`), and the result is faithful exactly if nothing
else is denoted, or there is another cause for a warning.

# Sections

- the numbers of a list;
- its ranges;
- the result.
-/
import Mathlib.Data.List.Infix
import PatentEvidence.Fto.Proofs.EpFeatures
import PatentEvidence.Fto.Proofs.EpReading

namespace PatentEvidence.Fto.EpClaims

open Scan Text Wording

theorem append_ne_nil_iff {α : Type _} {l l' : List α} :
    l ++ l' ≠ [] ↔ l ≠ [] ∨ l' ≠ [] := by
  rw [ne_eq, List.append_eq_nil_iff, not_and_or]

theorem ite_singleton_ne_nil {α : Type _} {p : Prop} [Decidable p] {a : α} :
    (if p then [a] else []) ≠ [] ↔ p := by
  split
  · next h => exact iff_of_true (List.cons_ne_nil _ _) h
  · next h => exact iff_of_false (not_not_intro rfl) h

section References

variable [Digits] [Alphanumeric] [LawfulTables]

-- ================================================= the numbers of a list

/-- The numbers written in an item. -/
def itemNumbers : Item → List (List Char)
  | .one n => [n.digits]
  | .range low _ _ _ high => [low.digits, high.digits]

omit [Alphanumeric] [LawfulTables] in
theorem silent_number {cs : List Char}
    (h : ∀ c ∈ cs, isDecimalDigit c = false) (first : Option Char)
    (rest : List Char) : Silent number first cs rest := by
  refine silent_of_forall (fun c hc first rest => ?_) first rest
  rw [number, reads, afterDigits_eq_none, Option.map_none]
  intro d hd
  cases hd
  exact h c hc

omit [Alphanumeric] [LawfulTables] in
theorem finds_number (n : Numeral) (first : Option Char) {rest : List Char}
    (h : NoDigit rest) : Finds number first n.digits rest [n.digits] :=
  finds_of_match n.ne_nil (reads_of_rest (afterDigits_append n.ne_nil n.decimal h))

/-- Between the ends of a range there is no digit. -/
theorem not_decimal_between (before : Blanks) (sign : RangeSign)
    (after : Blanks) : ∀ c ∈ before.chars ++ sign.text ++ after.chars,
      isDecimalDigit c = false := by
  intro c hc
  simp only [← chars_signLink, List.mem_append] at hc
  rcases hc with (hc | hc) | hc
  · exact not_decimal_of_isSpace (before.space c hc)
  · exact ((signLink sign).facts hc).2.1
  · exact not_decimal_of_isSpace (after.space c hc)

theorem finds_itemNumbers (i : Item) (first : Option Char) {rest : List Char}
    (h : NoDigit rest) : Finds number first i.text rest (itemNumbers i) := by
  cases i with
  | one n => exact finds_number n first h
  | range low before sign after high =>
      have hlow : Finds number first low.digits
          ((before.chars ++ sign.text ++ after.chars ++ high.digits) ++ rest)
          [low.digits] := by
        refine finds_number low first ?_
        rw [← chars_signLink]
        simp only [List.append_assoc]
        exact Blanks.noDigit before (noDigit_link _ _)
      have hrest := (finds_of_silent (silent_number (not_decimal_between before sign after)
        (Scan.before first low.digits) (high.digits ++ rest))).append
        (finds_number high _ h)
      have hall := hlow.append hrest
      simpa only [Item.text, itemNumbers, List.append_assoc, List.nil_append,
        List.cons_append] using hall

omit [Alphanumeric] [LawfulTables] in
theorem noDigit_nil : NoDigit [] := fun _ hc => by cases hc

/-- The items that are read. -/
def leadingItems (r : Reference) : List Item :=
  r.first :: (Reference.leading r.rest).map Prod.snd

/-- The numbers written in a list. -/
theorem finds_numbers (r : Reference) :
    Finds number none (leadingList r) [] ((leadingItems r).flatMap itemNumbers) := by
  have hrest (rest : List (Separator × Item)) (first : Option Char) :
      Finds number first (Reference.restText rest) []
        ((rest.map Prod.snd).flatMap itemNumbers) := by
    induction rest generalizing first with
    | nil => exact fun _ => rfl
    | cons p rest ih =>
        have hsep : Finds number first p.1.text
            ((p.2.text ++ Reference.restText rest) ++ []) [] :=
          finds_of_silent (silent_number (fun c hc => (separator_facts hc).1) _ _)
        have hitem : Finds number (Scan.before first p.1.text) p.2.text
            (Reference.restText rest ++ []) (itemNumbers p.2) :=
          finds_itemNumbers p.2 _ (noDigit_restText rest noDigit_nil)
        have hall := hsep.append (hitem.append (ih _))
        simpa only [Reference.restText, List.flatMap_cons, List.map_cons,
          List.append_assoc, List.nil_append] using hall
  exact (finds_itemNumbers r.first none
    (noDigit_restText _ noDigit_nil)).append (hrest _ _)

-- ============================================================ its ranges

/-- The words of `afterRangeSign`. -/
def signs : List String := ["to", "-", "–"]

omit [Digits] [Alphanumeric] [LawfulTables] in
/-- A sign is read where it is written plainly. -/
theorem afterLiteral_link (l : Link) {v : String} (hv : v ∈ links)
    (hne : l.chars ≠ v.toList) (more : List Char) :
    afterLiteral v (l.chars ++ more) = none := by
  refine if_neg fun hstart => hne ?_
  have hstart := List.isPrefixOf_iff_prefix.mp hstart
  have hself : ∀ v ∈ links, ∀ p ∈ v.toList, matchesLetter p p = true := by
    decide
  obtain ⟨rest, hrest⟩ := hstart
  have hread : afterWord v.toList (l.chars ++ more) = some rest :=
    afterWord_eq_some.mpr
      ⟨v.toList, hrest.symm, List.forall₂_same.mpr (hself v hv)⟩
  have hword : v = l.word := by
    by_contra hword
    rw [afterWord_link l.mem l.spells hv hword] at hread
    cases hread
  subst hword
  exact (List.append_inj_left hrest l.spells.length_eq).symm

/-- What may follow a number that begins no range. -/
def NoSign (cs : List Char) : Prop := afterRangeSign (afterSpaces cs) = none

omit [Digits] [Alphanumeric] [LawfulTables] in
theorem afterRangeSign_eq_none (l : Link) (h : ∀ v ∈ signs, l.chars ≠ v.toList)
    (more : List Char) : afterRangeSign (l.chars ++ more) = none := by
  have hlinks : ∀ v ∈ signs, v ∈ links := by decide
  exact List.findSome?_eq_none_iff.mpr fun v hv =>
    afterLiteral_link l (hlinks v hv) (h v hv) more

omit [Digits] [Alphanumeric] [LawfulTables] in
theorem afterRangeSign_eq_some (l : Link) {v : String} (hv : v ∈ signs)
    (h : l.chars = v.toList) (more : List Char) :
    afterRangeSign (l.chars ++ more) = some more := by
  have hlinks : ∀ v ∈ signs, v ∈ links := by decide
  refine findSome?_eq_some hv ?_ fun u hu hne =>
    afterLiteral_link l (hlinks u hu) ?_ more
  · rw [h]
    exact afterLiteral_append v more
  · intro hchars
    refine hne ?_
    rw [← word_of_chars l (hlinks u hu) hchars, word_of_chars l (hlinks v hv) h]

theorem noSign_link (before : Blanks) (l : Link)
    (h : ∀ v ∈ signs, l.chars ≠ v.toList) (more : List Char) :
    NoSign (before.chars ++ (l.chars ++ more)) := by
  rw [NoSign, afterSpaces_append before.space
    fun c hc => (l.head_facts c hc).1]
  exact afterRangeSign_eq_none l h more

omit [Digits] [Alphanumeric] [LawfulTables] in
theorem noSign_nil : NoSign [] := by
  change afterRangeSign [] = none
  decide

/-- No range goes on behind an item of the list. -/
theorem noSign_restText {rest : List (Separator × Item)}
    (hsingle : ∀ r ∈ rest, r.1.isBoth = false) :
    NoSign (Reference.restText rest) := by
  cases rest with
  | nil => exact noSign_nil
  | cons r rest =>
      obtain ⟨before, l, after, hword, hsep⟩ :=
        text_of_not_isBoth (hsingle r (List.mem_cons_self ..))
      rw [Reference.restText, List.flatMap_cons, hsep]
      simp only [List.append_assoc]
      refine noSign_link before l (fun v hv hchars => ?_) _
      have hlinks : ∀ v ∈ signs, v ∈ links := by decide
      rw [word_of_chars l (hlinks v hv) hchars] at hword
      have hnot : ∀ v ∈ signs, ¬ (v = "," ∨ v = "or" ∨ v = "and") := by
        decide
      exact hnot v hv hword

omit [Digits] [Alphanumeric] [LawfulTables] in
/-- A sign is plain if it is one of the words as they are written. -/
theorem plain_iff {sign : RangeSign} :
    sign.Plain ↔ ∃ v ∈ signs, (signLink sign).chars = v.toList := by
  cases sign with
  | upTo word =>
      constructor
      · exact fun h => ⟨"to", by decide, h⟩
      · rintro ⟨v, hv, h⟩
        have hlinks : ∀ v ∈ signs, v ∈ links := by decide
        have hto : "to" = v := word_of_chars (signLink (.upTo word))
          (hlinks v hv) h
        subst hto
        exact h
  | hyphen => exact iff_of_true trivial ⟨"-", by decide, by decide⟩
  | dash => exact iff_of_true trivial ⟨"–", by decide, by decide +kernel⟩

-- ------------------------------------------------------- what is a range

omit [Alphanumeric] [LawfulTables] in
theorem silent_numberRange {cs : List Char}
    (h : ∀ c ∈ cs, isDecimalDigit c = false) (first : Option Char)
    (rest : List Char) : Silent numberRange first cs rest := by
  refine silent_of_forall (fun c hc first rest => ?_) first rest
  have hnone : afterDigits (c :: rest) = none := by
    refine afterDigits_eq_none fun d hd => ?_
    cases hd
    exact h c hc
  rw [numberRange, reads, hnone]
  rfl

omit [Alphanumeric] [LawfulTables] in
/-- A number without a sign behind it begins no range, and neither does a
part of it. -/
theorem silent_numeral (n : Numeral) (first : Option Char) {rest : List Char}
    (hrest : NoDigit rest) (hsign : NoSign rest) :
    Silent numberRange first n.digits rest := by
  intro a b hab hb
  have hdecimal : ∀ c ∈ b, isDecimalDigit c = true := fun c hc =>
    n.decimal c (by rw [hab]; exact List.mem_append_right _ hc)
  rw [numberRange, reads, afterDigits_append hb hdecimal hrest]
  change ((afterRangeSign (afterSpaces rest)).bind _).map _ = none
  rw [hsign]
  rfl

/-- The text of an item that is read as a range. -/
def itemRanges : Item → List (List Char)
  | .one _ => []
  | .range low before sign after high =>
      if sign.Plain then [(Item.range low before sign after high).text] else []

theorem finds_itemRanges (i : Item) (first : Option Char) {rest : List Char}
    (hrest : NoDigit rest) (hsign : NoSign rest) :
    Finds numberRange first i.text rest (itemRanges i) := by
  cases i with
  | one n => exact finds_of_silent (silent_numeral n first hrest hsign)
  | range low before sign after high =>
      have hbehind : NoDigit (behind (.range low before sign after high) ++ rest) :=
        noDigit_behind _ hrest
      rw [itemRanges]
      split
      · next hplain =>
          obtain ⟨v, hv, hchars⟩ := plain_iff.mp hplain
          refine finds_of_match ?_ (reads_of_rest ?_)
          · rw [text_eq_behind]
            exact fun hnil => low.ne_nil (List.append_eq_nil_iff.mp hnil).1
          · rw [text_eq_behind, List.append_assoc, firstNumber,
              afterDigits_append low.ne_nil low.decimal hbehind]
            change (afterRangeSign (afterSpaces _)).bind _ = _
            rw [behind, ← chars_signLink]
            simp only [List.append_assoc]
            rw [afterSpaces_append before.space
                fun c hc => ((signLink sign).head_facts c hc).1,
              afterRangeSign_eq_some _ hv hchars]
            exact afterNumber_blanks after high hrest
      · next hplain =>
          have hnot : ∀ v ∈ signs, (signLink sign).chars ≠ v.toList :=
            fun v hv hchars => hplain (plain_iff.mpr ⟨v, hv, hchars⟩)
          have hnoSign : NoSign (behind (.range low before sign after high)
              ++ rest) := by
            rw [behind, ← chars_signLink]
            simp only [List.append_assoc]
            exact noSign_link before _ hnot _
          have hhigh := (finds_of_silent (silent_numberRange
            (not_decimal_between before sign after)
            (Scan.before first low.digits) (high.digits ++ rest))).append
            (finds_of_silent (silent_numeral high _ hrest hsign))
          have hbehindText : behind (.range low before sign after high)
              = before.chars ++ sign.text ++ after.chars ++ high.digits := by
            simp only [behind, List.append_assoc]
          rw [hbehindText] at hbehind hnoSign
          have hlow : Finds numberRange first low.digits
              (before.chars ++ sign.text ++ after.chars ++ high.digits ++ rest)
              [] := finds_of_silent (silent_numeral low first hbehind hnoSign)
          rw [text_eq_behind, firstNumber, hbehindText]
          exact hlow.append hhigh

/-- The ranges of a list. -/
theorem finds_ranges (r : Reference) :
    Finds numberRange none (leadingList r) []
      ((leadingItems r).flatMap itemRanges) := by
  have hrest (rest : List (Separator × Item)) (first : Option Char)
      (hsingle : ∀ r ∈ rest, r.1.isBoth = false) :
      Finds numberRange first (Reference.restText rest) []
        ((rest.map Prod.snd).flatMap itemRanges) := by
    induction rest generalizing first with
    | nil => exact fun _ => rfl
    | cons p rest ih =>
        obtain ⟨-, hsingle⟩ := List.forall_mem_cons.mp hsingle
        have hsep : Finds numberRange first p.1.text
            ((p.2.text ++ Reference.restText rest) ++ []) [] :=
          finds_of_silent
            (silent_numberRange (fun c hc => (separator_facts hc).1) _ _)
        have hitem : Finds numberRange (Scan.before first p.1.text) p.2.text
            (Reference.restText rest ++ []) (itemRanges p.2) := by
          refine finds_itemRanges p.2 _ (noDigit_restText rest noDigit_nil) ?_
          rw [List.append_nil]
          exact noSign_restText hsingle
        have hall := hsep.append (hitem.append (ih _ hsingle))
        simpa only [Reference.restText, List.flatMap_cons, List.map_cons,
          List.append_assoc, List.nil_append] using hall
  have hsingle : ∀ p ∈ Reference.leading r.rest, p.1.isBoth = false :=
    fun p hp => isBoth_of_mem_leading hp
  have hfirst : Finds numberRange none r.first.text
      (Reference.restText (Reference.leading r.rest) ++ []) (itemRanges r.first) := by
    refine finds_itemRanges r.first none (noDigit_restText _ noDigit_nil) ?_
    rw [List.append_nil]
    exact noSign_restText hsingle
  exact hfirst.append (hrest _ _ hsingle)

-- ============================================================= the result

/-- The ends of a range that is read. -/
theorem rangeEnds_text (low : Numeral) (before : Blanks) {sign : RangeSign}
    (after : Blanks) (high : Numeral) (h : sign.Plain) :
    rangeEnds (Item.range low before sign after high).text
      = (low.digits, high.digits) := by
  obtain ⟨v, hv, hchars⟩ := plain_iff.mp h
  have hbehind : NoDigit (behind (.range low before sign after high)) := by
    have hnone := noDigit_behind (.range low before sign after high) noDigit_nil
    rwa [List.append_nil] at hnone
  have hend : afterSpaces (after.chars ++ high.digits) = high.digits := by
    refine afterSpaces_append after.space fun c hc => ?_
    exact not_isSpace_of_decimal (high.decimal c (List.mem_of_mem_head? hc))
  have htake : (low.digits ++ behind (.range low before sign after high)).takeWhile
      isDecimalDigit = low.digits := takeWhile_run low.decimal hbehind
  have hdrop : (low.digits ++ behind (.range low before sign after high)).dropWhile
      isDecimalDigit = behind (.range low before sign after high) :=
    dropWhile_run low.decimal hbehind
  rw [text_eq_behind, firstNumber, rangeEnds, htake, hdrop, behind,
    ← chars_signLink, afterSpaces_append before.space
      fun c hc => ((signLink sign).head_facts c hc).1,
    afterRangeSign_eq_some _ hv hchars, Option.getD_some, hend]

/-- What an item adds. -/
theorem plainly_iff {i : Item} {n : Nat} :
    i.Plainly n
      ↔ (∃ text ∈ itemRanges i, n ∈ List.range' (intOf (rangeEnds text).1)
          (intOf (rangeEnds text).2 + 1 - intOf (rangeEnds text).1))
        ∨ ∃ digits ∈ itemNumbers i, intOf digits = n := by
  cases i with
  | one m =>
      simp only [Item.Plainly, itemRanges, itemNumbers, List.not_mem_nil,
        false_and, exists_false, false_or, List.mem_singleton, exists_eq_left]
      exact eq_comm
  | range low before sign after high =>
      rw [itemRanges]
      by_cases hplain : sign.Plain
      · rw [if_pos hplain]
        simp only [Item.Plainly, itemNumbers, List.mem_singleton,
          exists_eq_left, List.mem_pair, exists_eq_or_imp,
          rangeEnds_text low before after high hplain, List.mem_range'_1,
          Numeral.value, hplain, true_and]
        omega
      · rw [if_neg hplain]
        simp only [Item.Plainly, itemNumbers, List.not_mem_nil, false_and,
          exists_false, false_or, List.mem_pair, exists_eq_or_imp,
          exists_eq_left, Numeral.value, hplain, or_false]
        omega

/-- What a reference adds. -/
theorem mem_numbersIn (r : Reference) {n : Nat} :
    n ∈ numbersIn (leadingList r) ↔ r.Plainly n := by
  rw [numbersIn, (finds_ranges r).findall, (finds_numbers r).findall]
  simp only [List.mem_append, List.mem_flatMap, List.mem_map]
  constructor
  · rintro (⟨text, ⟨i, hi, htext⟩, hn⟩ | ⟨digits, ⟨i, hi, hdigits⟩, rfl⟩)
    · exact ⟨i, hi, plainly_iff.mpr (.inl ⟨text, htext, hn⟩)⟩
    · exact ⟨i, hi, plainly_iff.mpr (.inr ⟨digits, hdigits, rfl⟩)⟩
  · rintro ⟨i, hi, hn⟩
    rcases plainly_iff.mp hn with ⟨text, htext, hn⟩ | ⟨digits, hdigits, hn⟩
    · exact .inl ⟨text, ⟨i, hi, htext⟩, hn⟩
    · exact .inr ⟨digits, ⟨i, hi, hdigits⟩, hn⟩

variable {w : MarkedText} {own n : Nat}

/-- The numbers parsed from the text of some references. -/
theorem mem_parsed :
    n ∈ (findall reference w.text).flatMap (fun found =>
      numbersIn (numbersOf found)) ↔ w.Plainly n := by
  have hfound := (finds_textOf w.marked).findall
  rw [MarkedText.text, hfound, List.flatMap_map, List.mem_flatMap]
  simp only [numbersOf_leading, mem_numbersIn]
  exact Iff.rfl

/-- The claims that a text mentions. -/
theorem mentions_iff :
    Mentions w.text own n
      ↔ n ≠ own ∧ (w.Plainly n
        ∨ search allPreceding w.text = true ∧ 1 ≤ n ∧ n < own) := by
  rw [Mentions, ← List.mem_flatMap, mem_parsed]

/-- The warnings of a claim. -/
theorem warnings_ne_nil :
    (references w.text own).2 ≠ []
      ↔ search allPreceding w.text = true
        ∨ (search claimWord w.text = true ∧ ∀ n, ¬ w.Plainly n)
        ∨ ∃ n, own < n ∧ w.Plainly n := by
  have hparsed : (findall reference w.text).flatMap (fun found =>
      numbersIn (numbersOf found)) = [] ↔ ∀ n, ¬ w.Plainly n := by
    rw [List.eq_nil_iff_forall_not_mem]
    exact forall_congr' fun n => not_congr mem_parsed
  have hbad (l : List Nat) : sortedSet ((l.filter fun n => n ≠ own).filter
      fun n => own ≤ n) ≠ [] ↔ ∃ n, own < n ∧ n ∈ l := by
    rw [ne_eq, List.eq_nil_iff_forall_not_mem]
    simp only [mem_sortedSet, List.mem_filter, decide_eq_true_eq, not_forall,
      not_not]
    refine exists_congr fun n => ?_
    rw [and_assoc, and_comm]
    refine and_congr_left fun _ => ?_
    omega
  rw [references]
  simp only [append_ne_nil_iff, ite_singleton_ne_nil, hbad, List.mem_append,
    mem_parsed, List.append_eq_nil_iff, hparsed]
  by_cases hpreceding : search allPreceding w.text = true
  · exact iff_of_true (.inl (.inl hpreceding)) (.inl hpreceding)
  · simp only [hpreceding, Bool.false_eq_true, if_false, List.not_mem_nil,
      or_false, false_or, and_true]

/-- Every number denoted but the claim's own is a reference and nothing
else is, or there is a warning. -/
def ReferencesFaithful (w : MarkedText) (own : Nat) : Prop :=
  (references w.text own).2 ≠ []
    ∨ ∀ n, n ∈ (references w.text own).1 ↔ w.Denotes n ∧ n ≠ own

omit [Alphanumeric] [LawfulTables] in
theorem denotes_of_plainly {i : Item} (h : i.Plainly n) : i.Denotes n := by
  cases i with
  | one m => exact h
  | range low before sign after high =>
      rw [Item.Denotes, Set.mem_uIcc]
      rcases h with rfl | rfl | ⟨-, hlow, hhigh⟩
      · omega
      · omega
      · exact .inl ⟨hlow, hhigh⟩

omit [LawfulTables] in
theorem MarkedText.denotes_of_plainly (h : w.Plainly n) : w.Denotes n := by
  obtain ⟨p, hp, i, hi, hn⟩ := h
  refine ⟨p, hp, i, ?_, EpClaims.denotes_of_plainly hn⟩
  rcases List.mem_cons.mp hi with rfl | hi
  · exact List.mem_cons_self ..
  · exact List.mem_cons_of_mem _
      ((List.takeWhile_sublist _).map Prod.snd |>.subset hi)

omit [LawfulTables] in
/-- Where something is denoted, something is denoted plainly. -/
theorem MarkedText.exists_plainly (h : w.Denotes n) : ∃ m, w.Plainly m := by
  obtain ⟨p, hp, -⟩ := h
  refine ⟨(firstNumber p.2.first).value, p, hp, p.2.first,
    List.mem_cons_self .., ?_⟩
  cases p.2.first with
  | one m => rfl
  | range => exact .inl rfl

/-- The references of a claim are faithful exactly if it refers to all
preceding claims, or plainly to a later one, or denotes no number that it
does not denote plainly. -/
theorem references_faithful_iff (w : MarkedText) (own : Nat) :
    ReferencesFaithful w own
      ↔ search allPreceding w.text = true
        ∨ (∃ n, own < n ∧ w.Plainly n)
        ∨ ∀ n, w.Denotes n → n = own ∨ w.Plainly n := by
  rw [ReferencesFaithful, warnings_ne_nil]
  by_cases hpreceding : search allPreceding w.text = true
  · exact iff_of_true (.inl (.inl hpreceding)) (.inl hpreceding)
  by_cases hlater : ∃ n, own < n ∧ w.Plainly n
  · exact iff_of_true (.inl (.inr (.inr hlater))) (.inr (.inl hlater))
  simp only [hpreceding, hlater, Bool.false_eq_true, false_or, or_false]
  constructor
  · rintro (⟨-, hnone⟩ | hexact) n hn
    · obtain ⟨m, hm⟩ := MarkedText.exists_plainly hn
      exact absurd hm (hnone m)
    · by_cases hown : n = own
      · exact .inl hown
      · have hmem := mentions_iff.mp
          (mem_references.mp ((hexact n).mpr ⟨hn, hown⟩))
        exact .inr (hmem.2.resolve_right fun h => hpreceding h.1)
  · intro h
    right
    intro n
    rw [mem_references, mentions_iff]
    constructor
    · rintro ⟨hown, hn | ⟨hp, -⟩⟩
      · exact ⟨MarkedText.denotes_of_plainly hn, hown⟩
      · exact absurd hp hpreceding
    · rintro ⟨hn, hown⟩
      exact ⟨hown, .inl ((h n hn).resolve_left hown)⟩

-- ============================================================ two wordings

omit [Alphanumeric] [LawfulTables] in
/-- A reference begins with its word. -/
theorem exists_afterWord (r : Reference) (rest : List Char) :
    ∃ more, afterWord "claim".toList (r.text ++ rest) = some more := by
  simp only [Reference.text, Reference.word, List.append_assoc]
  exact ⟨_, afterWord_eq_some.mpr ⟨_, rfl, r.keyword.spells⟩⟩

omit [LawfulTables] in
/-- No reference begins where the word is not. -/
theorem quiet_of_tails {first : Option Char} {cs rest : List Char}
    (h : ∀ b ∈ cs.tails, b ≠ [] → afterWord "claim".toList (b ++ rest) = none) :
    Quiet first cs rest := by
  rintro a b rfl hb ⟨-, r, more, hr⟩
  obtain ⟨left, hleft⟩ := exists_afterWord r more
  rw [← hr, h b ((List.mem_tails ..).mpr (List.suffix_append ..)) hb] at hleft
  cases hleft

omit [Alphanumeric] [LawfulTables] in
theorem ends_nil : Ends [] where
  digit := fun _ hc => by cases hc
  separator := fun s n cs h => by
    simp only [List.nil_eq_append_iff, List.append_eq_nil_iff] at h
    exact n.ne_nil h.1.2
  sign := fun before after s n cs h => by
    simp only [List.nil_eq_append_iff, List.append_eq_nil_iff] at h
    exact n.ne_nil h.1.2

end References

section Wordings

/-- A word in small letters. -/
def spelled (word : String) (h : ∀ p ∈ word.toList, matchesLetter p p = true) :
    Spelling word := ⟨word.toList, List.forall₂_same.mpr h⟩

def noBlank : Blanks := ⟨[], by decide⟩

def oneBlank : Blanks := ⟨[' '], by decide⟩

local instance wordingDigits : Digits := asciiDigits

local instance wordingAlphanumeric : Alphanumeric := asciiAlphanumeric

local instance wordingTables : LawfulTables := lawful_ascii

/-- A number of one digit. -/
def numeral (c : Char) (h : isDecimalDigit c = true) : Numeral :=
  ⟨[c], by simpa using h, List.cons_ne_nil _ _⟩

def digit (c : Char) (h : isDecimalDigit c = true) : Item := .one (numeral c h)

/-- "claims 1 to 3 and 5" -/
def ofRange : Reference :=
  { keyword := spelled "claim" (by decide)
    plural := some (spelled "s" (by decide))
    gap := oneBlank
    gap_ne_nil := by decide
    first := .range (numeral '1' (by decide)) oneBlank
      (.upTo (spelled "to" (by decide))) oneBlank (numeral '3' (by decide))
    rest := [
      (.conjunction oneBlank (.and (spelled "and" (by decide))) oneBlank,
        digit '5' (by decide))] }

/-- "claims 1, 2, or 3" -/
def ofClaims : Reference :=
  { keyword := spelled "claim" (by decide)
    plural := some (spelled "s" (by decide))
    gap := oneBlank
    gap_ne_nil := by decide
    first := digit '1' (by decide)
    rest := [
      (.comma noBlank oneBlank, digit '2' (by decide)),
      (.both noBlank oneBlank (.or (spelled "or" (by decide))) oneBlank,
        digit '3' (by decide))] }

/-- A device according to one reference. -/
def accordingTo (r : Reference)
    (h : ∀ b ∈ "A device according to ".toList.tails, b ≠ [] →
      afterWord "claim".toList (b ++ r.text) = none) : MarkedText :=
  { parts := [("A device according to ".toList, r)]
    tail := []
    marked := by
      refine ⟨quiet_of_tails ?_, fun c hc => ?_, ends_nil, quiet_of_tails ?_⟩
      · simpa [textOf] using h
      · cases hc
        decide
      · simp }

theorem references_faithful_iff_range :
    ReferencesFaithful (accordingTo ofRange (by decide)) 6 := by
  refine (references_faithful_iff _ _).mpr (.inr (.inr ?_))
  rintro n ⟨p, hp, i, hi, hn⟩
  refine .inr ⟨p, hp, i, ?_, ?_⟩
  · rw [List.mem_singleton.mp hp] at hi ⊢
    exact hi
  · rw [List.mem_singleton.mp hp] at hi
    rcases List.mem_cons.mp hi with rfl | hi
    · -- the range goes up, with its sign in small letters
      change n ∈ Set.uIcc (intOf ['1']) (intOf ['3']) at hn
      rw [Set.uIcc_of_le (by decide)] at hn
      exact .inr (.inr ⟨rfl, hn⟩)
    · rw [List.mem_singleton.mp hi] at hn ⊢
      exact hn

/-- "A device according to claims 1, 2, or 3". -/
theorem third_alternative_dropped :
    ¬ ∀ (w : MarkedText) (own : Nat), ReferencesFaithful w own := by
  intro h
  have hrefs : references (accordingTo ofClaims (by decide)).text 4
      = ([1, 2], []) := by decide
  rcases h (accordingTo ofClaims (by decide)) 4 with hwarn | hexact
  · rw [hrefs] at hwarn
    exact hwarn rfl
  · have hitem : digit '3' (by decide) ∈ ofClaims.items :=
      .tail _ (.tail _ (.head _))
    have hvalue : (digit '3' (by decide)).Denotes 3 := by
      change 3 = intOf ['3']
      decide
    have hthree := (hexact 3).mpr
      ⟨⟨_, List.mem_singleton.mpr rfl, _, hitem, hvalue⟩, by decide⟩
    rw [hrefs] at hthree
    exact absurd hthree (by decide)

end Wordings

end PatentEvidence.Fto.EpClaims
