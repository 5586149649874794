/-
Printing JSON values, and why no two print alike.

The printer escapes in strings what the notation itself uses, separates
with two texts of the caller's (`Separators`: compact or spaced), and
leaves numbers to a class. It never backtracks: from what a value prints
and whatever follows, the value and the rest can be told apart
(`text_unambiguous`), as long as what follows cannot be taken for more of
a number. The induction is over the value; the first character says which
kind it is, so only values of one kind are ever compared.

`dumps` is the printer with sorted keys. It prints the canonical form
(`dumps_eq`), so it prints two values alike exactly when they are the same
value (`dumps_eq_iff`).

# Sections

- numbers;
- strings;
- lists of texts;
- values;
- sorted keys.
-/
import Mathlib.Data.Rat.Defs
import PatentEvidence.Lib.Json
import PatentEvidence.Lib.Text

namespace PatentEvidence

-- ============================================================== numbers

/-- The characters numbers are printed with. -/
def isNumberChar (c : Char) : Bool := c.isDigit || c ∈ ['+', '-', '.', 'e']

/-- Numbers of the language: what one is worth and how it prints. Two
numbers of one text are one number. -/
class JsonNumber (ν : Type _) where
  value : ν → Rat
  ofInt : Int → ν
  text : ν → List Char
  text_ofInt : ∀ z, text (ofInt z) = (toString z).toList
  text_ne_nil : ∀ n, text n ≠ []
  isNumberChar_of_mem : ∀ n, ∀ c ∈ text n, isNumberChar c
  text_injective : Function.Injective text

theorem toList_int (z : Int) :
    (toString z).toList = if 0 ≤ z then Nat.toDigits 10 z.toNat
      else '-' :: Nat.toDigits 10 (-z).toNat := by
  rw [Int.toString_eq_repr, Int.repr_eq_if]
  split
  · exact Nat.toList_repr
  · rw [String.toList_append, Nat.toList_repr]
    rfl

theorem toDigits_injective : Function.Injective (Nat.toDigits 10) := by
  intro m n h
  have hread := congrArg (fun cs => Nat.ofDigitChars 10 cs 0) h
  simpa only [Nat.ofDigitChars_ten_toDigits] using hread

theorem isDigit_of_mem_toDigits {n : Nat} {c : Char}
    (h : c ∈ Nat.toDigits 10 n) : c.isDigit :=
  Nat.isDigit_of_mem_toDigits (by decide) (by decide) h

/-- Decimal digits never open with a sign. -/
theorem toDigits_ne_minus {n : Nat} {cs : List Char} :
    Nat.toDigits 10 n ≠ '-' :: cs := by
  intro h
  have hminus : '-' ∈ Nat.toDigits 10 n := h ▸ List.mem_cons_self ..
  exact absurd (isDigit_of_mem_toDigits hminus) (by decide)

/-- The whole numbers in decimal. -/
instance : JsonNumber Int where
  value z := z
  ofInt z := z
  text z := (toString z).toList
  text_ofInt _ := rfl
  text_ne_nil z := by
    rw [toList_int]
    split
    · exact Nat.toDigits_ne_nil
    · exact List.cons_ne_nil _ _
  isNumberChar_of_mem z c hc := by
    rw [toList_int] at hc
    have hdigit : ∀ n, c ∈ Nat.toDigits 10 n → isNumberChar c := by
      intro n h
      rw [isNumberChar, isDigit_of_mem_toDigits h, Bool.true_or]
    split at hc
    · exact hdigit _ hc
    · rcases List.mem_cons.mp hc with rfl | hc
      · decide
      · exact hdigit _ hc
  text_injective := by
    intro a b h
    simp only [toList_int] at h
    split at h
    · split at h
      · have := toDigits_injective h
        omega
      · exact absurd h toDigits_ne_minus
    · split at h
      · exact absurd h.symm toDigits_ne_minus
      · have := toDigits_injective (List.cons.inj h).2
        omega

namespace Json

variable {ν α : Type _}

-- ============================================================== strings

/-- The characters with a short escape, and its letter. -/
def shortEscapes : List (Char × Char) :=
  [('"', '"'), ('\\', '\\'), ('\n', 'n'), ('\r', 'r'), ('\t', 't'),
    ('\x08', 'b'), ('\x0c', 'f')]

/-- A character inside a string: the notation's own characters and the
control characters are escaped. -/
def escape (c : Char) : List Char :=
  match shortEscapes.lookup c with
  | some letter => ['\\', letter]
  | none =>
      if c.toNat < 32 then
        ['\\', 'u', '0', '0', (c.toNat / 16).digitChar, (c.toNat % 16).digitChar]
      else [c]

/-- A string between quotation marks. -/
def quoted (s : String) : List Char :=
  '"' :: (s.toList.flatMap escape ++ ['"'])

/-- Elements that can each be read off any text can be read up to a mark that
none of them opens with. -/
theorem flatMap_unambiguous {α β : Type _} {code : α → List β} {mark : β}
    (hcode : ∀ {c d : α} {r s : List β},
      code c ++ r = code d ++ s → c = d ∧ r = s)
    (hmark : ∀ {c : α} {r s : List β}, code c ++ r ≠ mark :: s)
    {cs ds : List α} {r s : List β}
    (h : cs.flatMap code ++ mark :: r = ds.flatMap code ++ mark :: s) :
    cs = ds ∧ r = s := by
  induction cs generalizing ds with
  | nil =>
      cases ds with
      | nil => exact ⟨rfl, (List.cons.inj h).2⟩
      | cons d ds =>
          rw [List.flatMap_cons, List.append_assoc] at h
          exact absurd h.symm hmark
  | cons c cs ih =>
      cases ds with
      | nil =>
          rw [List.flatMap_cons, List.append_assoc] at h
          exact absurd h hmark
      | cons d ds =>
          rw [List.flatMap_cons, List.flatMap_cons, List.append_assoc,
            List.append_assoc] at h
          obtain ⟨hcd, hrest⟩ := hcode h
          obtain ⟨hcs, hrs⟩ := ih hrest
          exact ⟨by rw [hcd, hcs], hrs⟩

theorem mem_shortEscapes {c letter : Char}
    (h : shortEscapes.lookup c = some letter) : (c, letter) ∈ shortEscapes := by
  obtain ⟨l₁, l₂, hl, -⟩ := List.lookup_eq_some_iff.mp h
  rw [hl]
  exact List.mem_append_right _ (List.mem_cons_self ..)

/-- What has no short escape ends no string and opens no escape. -/
theorem ne_of_lookup_eq_none {c : Char} (h : shortEscapes.lookup c = none) :
    c ≠ '"' ∧ c ≠ '\\' := by
  have hnot : ∀ e ∈ shortEscapes, c ≠ e.1 := by
    intro e he
    simpa using List.lookup_eq_none_iff.mp h e he
  exact ⟨hnot ('"', '"') (by decide), hnot ('\\', '\\') (by decide)⟩

/-- What `escape` writes: a short escape, a code, or the character. -/
inductive Escaped (c : Char) : List Char → Prop
  | short {letter : Char} (h : (c, letter) ∈ shortEscapes) :
      Escaped c ['\\', letter]
  | code (h : c.toNat < 32) : Escaped c
      ['\\', 'u', '0', '0', (c.toNat / 16).digitChar, (c.toNat % 16).digitChar]
  | plain (hquote : c ≠ '"') (hslash : c ≠ '\\') : Escaped c [c]

theorem escaped_escape (c : Char) : Escaped c (escape c) := by
  cases hlookup : shortEscapes.lookup c with
  | some letter =>
      simp only [escape, hlookup]
      exact .short (mem_shortEscapes hlookup)
  | none =>
      obtain ⟨hquote, hslash⟩ := ne_of_lookup_eq_none hlookup
      simp only [escape, hlookup]
      split
      · next hlt => exact .code hlt
      · exact .plain hquote hslash

/-- The two digits of a code tell it. -/
theorem code_injective : ∀ m < 32, ∀ n < 32,
    (m / 16).digitChar = (n / 16).digitChar →
      (m % 16).digitChar = (n % 16).digitChar → m = n := by decide

theorem letter_injective : ∀ e ∈ shortEscapes, ∀ f ∈ shortEscapes,
    e.2 = f.2 → e.1 = f.1 := by decide

theorem letter_ne_u : ∀ e ∈ shortEscapes, e.2 ≠ 'u' := by decide

/-- One escaped character can be read off any text. -/
theorem Escaped.unambiguous {c d : Char} {cs ds r s : List Char}
    (hc : Escaped c cs) (hd : Escaped d ds) (h : cs ++ r = ds ++ s) :
    c = d ∧ r = s := by
  cases hc with
  | @short letter hc =>
      cases hd with
      | @short letter' hd =>
          obtain ⟨-, h⟩ := List.cons.inj h
          obtain ⟨hletter, hrest⟩ := List.cons.inj h
          exact ⟨letter_injective _ hc _ hd hletter, hrest⟩
      | code hd =>
          obtain ⟨-, h⟩ := List.cons.inj h
          exact absurd (List.cons.inj h).1 (letter_ne_u _ hc)
      | plain hquote hslash => exact absurd (List.cons.inj h).1.symm hslash
  | code hc =>
      cases hd with
      | @short letter' hd =>
          obtain ⟨-, h⟩ := List.cons.inj h
          exact absurd (List.cons.inj h).1.symm (letter_ne_u _ hd)
      | code hd =>
          obtain ⟨-, h⟩ := List.cons.inj h
          obtain ⟨-, h⟩ := List.cons.inj h
          obtain ⟨-, h⟩ := List.cons.inj h
          obtain ⟨-, h⟩ := List.cons.inj h
          obtain ⟨hhigh, h⟩ := List.cons.inj h
          obtain ⟨hlow, hrest⟩ := List.cons.inj h
          exact ⟨Char.toNat_inj.mp (code_injective _ hc _ hd hhigh hlow), hrest⟩
      | plain hquote hslash => exact absurd (List.cons.inj h).1.symm hslash
  | plain hquote hslash =>
      cases hd with
      | short hd => exact absurd (List.cons.inj h).1 hslash
      | code hd => exact absurd (List.cons.inj h).1 hslash
      | plain hquote' hslash' => exact List.cons.inj h

/-- No escaped character opens with a quotation mark. -/
theorem Escaped.ne_quote {c : Char} {cs r s : List Char} (hc : Escaped c cs) :
    cs ++ r ≠ '"' :: s := by
  intro h
  cases hc with
  | short hc => exact absurd (List.cons.inj h).1 (by decide)
  | code hc => exact absurd (List.cons.inj h).1 (by decide)
  | plain hquote hslash => exact hquote (List.cons.inj h).1

theorem escape_unambiguous {cs ds r s : List Char}
    (h : cs.flatMap escape ++ '"' :: r = ds.flatMap escape ++ '"' :: s) :
    cs = ds ∧ r = s :=
  flatMap_unambiguous
    (fun h => (escaped_escape _).unambiguous (escaped_escape _) h)
    (escaped_escape _).ne_quote h

/-- A quoted string can be read off any text. -/
theorem quoted_unambiguous {k l : String} {r s : List Char}
    (h : quoted k ++ r = quoted l ++ s) : k = l ∧ r = s := by
  simp only [quoted, List.cons_append, List.append_assoc, List.nil_append,
    List.cons.injEq, true_and] at h
  obtain ⟨hchars, hrest⟩ := escape_unambiguous h
  exact ⟨String.toList_inj.mp hchars, hrest⟩

-- ======================================================= lists of texts

/-- What may follow a number without being read as more of it. -/
def Stops (r : List Char) : Prop := ∀ c ∈ r.head?, isNumberChar c = false

theorem stops_nil : Stops [] := fun _ h => nomatch h

theorem stops_cons {c : Char} {r : List Char} (h : isNumberChar c = false) :
    Stops (c :: r) := by
  intro c' hc'
  rw [List.head?_cons, Option.mem_some_iff] at hc'
  rwa [← hc']

/-- Texts with a separator between them. -/
def separated (sep : List Char) : List (List Char) → List Char
  | [] => []
  | p :: ps => p ++ ps.flatMap fun q => sep ++ q

/-- A printer whose texts can be read off any text that stops numbers. -/
def Unambiguous (print : α → List Char) (a : α) : Prop :=
  ∀ b r s, Stops r → Stops s → print a ++ r = print b ++ s → a = b ∧ r = s

theorem stops_separators {print : α → List Char} {mark close : Char}
    {sep : List Char} (hmark : isNumberChar mark = false)
    (hclose : isNumberChar close = false) (l : List α) (t : List Char) :
    Stops ((l.map print).flatMap (fun q => mark :: sep ++ q)
      ++ close :: t) := by
  cases l with
  | nil => exact stops_cons hclose
  | cons a l => exact stops_cons hmark

/-- The rest of a list: each item behind its separator, up to the
bracket. -/
theorem separators_unambiguous {print : α → List Char} {mark close : Char}
    {sep r s : List Char} (hmark : isNumberChar mark = false)
    (hclose : isNumberChar close = false) (hne : mark ≠ close) {as bs : List α}
    (has : ∀ a ∈ as, Unambiguous print a)
    (h : (as.map print).flatMap (fun q => mark :: sep ++ q) ++ close :: r
      = (bs.map print).flatMap (fun q => mark :: sep ++ q) ++ close :: s) :
    as = bs ∧ r = s := by
  induction as generalizing bs with
  | nil =>
      cases bs with
      | nil => exact ⟨rfl, (List.cons.inj h).2⟩
      | cons b bs => exact absurd (List.cons.inj h).1.symm hne
  | cons a as ih =>
      cases bs with
      | nil => exact absurd (List.cons.inj h).1 hne
      | cons b bs =>
          simp only [List.map_cons, List.flatMap_cons, List.cons_append,
            List.append_assoc, List.cons.injEq, true_and,
            List.append_cancel_left_eq] at h
          obtain ⟨hab, hrest⟩ := has a (List.mem_cons_self ..) b _ _
            (stops_separators hmark hclose as r)
            (stops_separators hmark hclose bs s) h
          obtain ⟨habs, hrs⟩ :=
            ih (fun a' ha' => has a' (List.mem_cons_of_mem _ ha')) hrest
          exact ⟨by rw [hab, habs], hrs⟩

/-- A list up to its bracket can be read off any text. -/
theorem separated_unambiguous {print : α → List Char} {mark close : Char}
    {sep r s : List Char} (hmark : isNumberChar mark = false)
    (hclose : isNumberChar close = false) (hne : mark ≠ close)
    (hopen : ∀ a, ∀ t, print a ≠ [] ∧ print a ≠ close :: t) {as bs : List α}
    (has : ∀ a ∈ as, Unambiguous print a)
    (h : separated (mark :: sep) (as.map print) ++ close :: r
      = separated (mark :: sep) (bs.map print) ++ close :: s) :
    as = bs ∧ r = s := by
  have hstart : ∀ (a : α) (t u : List Char), print a ++ t ≠ close :: u := by
    intro a t u heq
    cases hp : print a with
    | nil => exact (hopen a []).1 hp
    | cons c cs =>
        rw [hp] at heq
        exact (hopen a cs).2 (hp.trans (by rw [(List.cons.inj heq).1]))
  cases as with
  | nil =>
      cases bs with
      | nil => exact ⟨rfl, (List.cons.inj h).2⟩
      | cons b bs =>
          simp only [List.map_cons, separated, List.append_assoc] at h
          exact absurd h.symm (hstart b _ _)
  | cons a as =>
      cases bs with
      | nil =>
          simp only [List.map_cons, separated, List.append_assoc] at h
          exact absurd h (hstart a _ _)
      | cons b bs =>
          simp only [List.map_cons, separated, List.append_assoc] at h
          obtain ⟨hab, hrest⟩ := has a (List.mem_cons_self ..) b _ _
            (stops_separators hmark hclose as r)
            (stops_separators hmark hclose bs s) h
          obtain ⟨habs, hrs⟩ := separators_unambiguous hmark hclose hne
            (fun a' ha' => has a' (List.mem_cons_of_mem _ ha')) hrest
          exact ⟨by rw [hab, habs], hrs⟩

-- =============================================================== values

/-- What stands behind the comma between items and the colon behind a
key. -/
structure Separators where
  item : List Char
  key : List Char

/-- `(",", ":")`. -/
def compact : Separators := ⟨[], []⟩

/-- `(", ", ": ")`. -/
def spaced : Separators := ⟨[' '], [' ']⟩

variable [JsonNumber ν] (seps : Separators)

/-- A printed entry. -/
def entryText (e : String × List Char) : List Char :=
  quoted e.1 ++ ':' :: (seps.key ++ e.2)

def itemsText (ps : List (List Char)) : List Char :=
  '[' :: (separated (',' :: seps.item) ps ++ [']'])

def entriesText (es : List (String × List Char)) : List Char :=
  '{' :: (separated (',' :: seps.item) (es.map (entryText seps)) ++ ['}'])

/-- The algebra of `text`. -/
def textAlg : Alg ν (List Char) where
  null := "null".toList
  bool b := if b then "true".toList else "false".toList
  num n := JsonNumber.text n
  str s := quoted s
  arr ps := itemsText seps ps
  obj es := entriesText seps es

/-- A value as text, object entries in their order. -/
def text (v : Json ν) : List Char := v.fold (textAlg seps)

theorem text_arr (items : List (Json ν)) :
    text seps (.arr items) = itemsText seps (items.map (text seps)) :=
  fold_arr (textAlg seps) items

theorem text_obj (entries : List (String × Json ν)) :
    text seps (.obj entries)
      = entriesText seps (entries.map (foldEntry (textAlg seps))) :=
  fold_obj (textAlg seps) entries

/-- The kinds of values a first character tells apart. -/
inductive Kind
  | null
  | bool (b : Bool)
  | num
  | str
  | arr
  | obj
  deriving DecidableEq

def kind : Json ν → Kind
  | .null => .null
  | .bool b => .bool b
  | .num _ => .num
  | .str _ => .str
  | .arr _ => .arr
  | .obj _ => .obj

/-- The kind a text of this first character is of. -/
def kindOfChar (c : Char) : Kind :=
  if c = 'n' then .null
  else if c = 't' then .bool true
  else if c = 'f' then .bool false
  else if c = '"' then .str
  else if c = '[' then .arr
  else if c = '{' then .obj
  else .num

/-- No number character opens another kind of value. -/
theorem kindOfChar_of_isNumberChar {c : Char} (h : isNumberChar c) :
    kindOfChar c = .num := by
  have hne : ∀ d, isNumberChar d = false → c ≠ d := by
    rintro d hd rfl
    rw [h] at hd
    cases hd
  simp only [kindOfChar, hne 'n' (by decide), hne 't' (by decide),
    hne 'f' (by decide), hne '"' (by decide), hne '[' (by decide),
    hne '{' (by decide), if_false]

/-- A text is not empty, and its first character tells the kind and is
no closing bracket. -/
theorem exists_head_text (v : Json ν) :
    ∃ c cs, text seps v = c :: cs ∧ kindOfChar c = v.kind ∧ c ≠ ']' := by
  cases v with
  | null => exact ⟨'n', _, rfl, rfl, by decide⟩
  | bool b =>
      cases b with
      | true => exact ⟨'t', _, rfl, rfl, by decide⟩
      | false => exact ⟨'f', _, rfl, rfl, by decide⟩
  | num n =>
      obtain ⟨c, cs, hcs⟩ := List.exists_cons_of_ne_nil (JsonNumber.text_ne_nil n)
      have hc := JsonNumber.isNumberChar_of_mem n c (hcs ▸ List.mem_cons_self ..)
      refine ⟨c, cs, hcs, kindOfChar_of_isNumberChar hc, ?_⟩
      rintro rfl
      cases hc
  | str s => exact ⟨'"', _, rfl, rfl, by decide⟩
  | arr items => exact ⟨'[', _, text_arr seps items, rfl, by decide⟩
  | obj entries => exact ⟨'{', _, text_obj seps entries, rfl, by decide⟩

theorem kind_eq_of_text {v w : Json ν} {r s : List Char}
    (h : text seps v ++ r = text seps w ++ s) : v.kind = w.kind := by
  obtain ⟨c, cs, hv, hkv, -⟩ := exists_head_text seps v
  obtain ⟨d, ds, hw, hkw, -⟩ := exists_head_text seps w
  rw [hv, hw] at h
  rw [← hkv, ← hkw, (List.cons.inj h).1]

/-- A number ends where no character of a number follows. -/
theorem number_unambiguous {m n : ν} {r s : List Char} (hr : Stops r)
    (hs : Stops s) (h : JsonNumber.text m ++ r = JsonNumber.text n ++ s) :
    m = n ∧ r = s := by
  have hspan : ∀ (k : ν) (t : List Char), Stops t →
      (JsonNumber.text k ++ t).takeWhile isNumberChar = JsonNumber.text k := by
    exact fun k t => Text.takeWhile_run (JsonNumber.isNumberChar_of_mem k)
  have htext : JsonNumber.text m = JsonNumber.text n := by
    rw [← hspan m r hr, h, hspan n s hs]
  rw [htext] at h
  exact ⟨JsonNumber.text_injective htext, List.append_cancel_left h⟩

/-- An entry can be read off any text when its value can. -/
theorem entry_unambiguous {e : String × Json ν}
    (he : Unambiguous (text seps) e.2) :
    Unambiguous (fun e : String × Json ν =>
      entryText seps (foldEntry (textAlg seps) e)) e := by
  intro f r s hr hs h
  simp only [entryText, foldEntry_fst, foldEntry_snd, List.append_assoc,
    List.cons_append] at h
  obtain ⟨hkey, hrest⟩ := quoted_unambiguous h
  have hvalue := List.append_cancel_left (List.cons.inj hrest).2
  obtain ⟨hval, hrs⟩ := he f.2 r s hr hs hvalue
  exact ⟨Prod.ext hkey hval, hrs⟩

/-- From what a value prints and any text that stops numbers, the value
and the text can be told apart. -/
theorem text_unambiguous (v : Json ν) : Unambiguous (text seps) v := by
  induction v with
  | null =>
      intro w r s _ _ h
      cases w with
      | null => exact ⟨rfl, List.append_cancel_left h⟩
      | _ => cases kind_eq_of_text seps h
  | bool b =>
      intro w r s _ _ h
      have hkind := kind_eq_of_text seps h
      cases w with
      | bool b' =>
          cases hkind
          exact ⟨rfl, List.append_cancel_left h⟩
      | _ => cases hkind
  | num n =>
      intro w r s hr hs h
      cases w with
      | num m =>
          obtain ⟨hnm, hrs⟩ := number_unambiguous hr hs h
          exact ⟨by rw [hnm], hrs⟩
      | _ => cases kind_eq_of_text seps h
  | str k =>
      intro w r s _ _ h
      cases w with
      | str l =>
          obtain ⟨hkl, hrs⟩ := quoted_unambiguous h
          exact ⟨by rw [hkl], hrs⟩
      | _ => cases kind_eq_of_text seps h
  | arr items ih =>
      intro w r s _ _ h
      cases w with
      | arr items' =>
          rw [text_arr, text_arr, itemsText, itemsText] at h
          simp only [List.cons_append, List.append_assoc, List.nil_append,
            List.cons.injEq, true_and] at h
          have hopen : ∀ (a : Json ν) (t : List Char),
              text seps a ≠ [] ∧ text seps a ≠ ']' :: t := by
            intro a t
            obtain ⟨c, cs, ha, -, hne⟩ := exists_head_text seps a
            rw [ha]
            exact ⟨List.cons_ne_nil _ _, fun heq => hne (List.cons.inj heq).1⟩
          obtain ⟨hitems, hrs⟩ := separated_unambiguous (by decide) (by decide)
            (by decide) hopen ih h
          exact ⟨by rw [hitems], hrs⟩
      | _ => cases kind_eq_of_text seps h
  | obj entries ih =>
      intro w r s _ _ h
      cases w with
      | obj entries' =>
          rw [text_obj, text_obj, entriesText, entriesText] at h
          simp only [List.cons_append, List.append_assoc, List.nil_append,
            List.cons.injEq, true_and, List.map_map] at h
          obtain ⟨hentries, hrs⟩ := separated_unambiguous (by decide)
            (by decide) (by decide)
            (fun e t => ⟨List.cons_ne_nil _ _, fun heq => by
              cases (List.cons.inj heq).1⟩)
            (fun e he => entry_unambiguous seps (ih e he)) h
          exact ⟨by rw [hentries], hrs⟩
      | _ => cases kind_eq_of_text seps h

theorem text_injective : Function.Injective (text seps (ν := ν)) := by
  intro v w h
  refine (text_unambiguous seps v w [] [] stops_nil stops_nil ?_).1
  rw [List.append_nil, List.append_nil, h]

-- ========================================================= sorted keys

/-- The algebra of `dumps`. -/
def dumpsAlg : Alg ν (List Char) where
  null := "null".toList
  bool b := if b then "true".toList else "false".toList
  num n := JsonNumber.text n
  str s := quoted s
  arr ps := itemsText seps ps
  obj es := entriesText seps (sortEntries es)

/-- `json.dumps(v, sort_keys=True, ensure_ascii=False, separators=seps)`. -/
def dumps (v : Json ν) : List Char := v.fold (dumpsAlg seps)

/-- Printing with sorted keys prints the canonical form. -/
theorem dumps_eq (v : Json ν) : dumps seps v = text seps v.canonical := by
  induction v with
  | null => rfl
  | bool b => rfl
  | num n => rfl
  | str s => rfl
  | arr items ih =>
      have hitems : items.map (dumps seps)
          = (items.map canonical).map (text seps) := by
        rw [List.map_map]
        exact List.map_congr_left ih
      rw [canonical_arr, text_arr, ← hitems]
      exact fold_arr (dumpsAlg seps) items
  | obj entries ih =>
      have hentries : entries.map (foldEntry (dumpsAlg seps))
          = (entries.map (foldEntry canonicalAlg)).map
            (foldEntry (textAlg seps)) := by
        rw [List.map_map]
        exact List.map_congr_left fun e he => Prod.ext rfl (ih e he)
      have hsorted : sortEntries (entries.map (foldEntry (dumpsAlg seps)))
          = (sortEntries (entries.map (foldEntry canonicalAlg))).map
            (foldEntry (textAlg seps)) := by
        rw [hentries, sortEntries_map (foldEntry_fst _)]
      rw [canonical_obj, text_obj, ← hsorted]
      exact fold_obj (dumpsAlg seps) entries

/-- Two values print alike with sorted keys exactly when they are the same
JSON value. -/
theorem dumps_eq_iff {v w : Json ν} (hv : v.DistinctKeys) :
    dumps seps v = dumps seps w ↔ SameValue v w := by
  rw [sameValue_iff_canonical hv, dumps_eq, dumps_eq]
  exact (text_injective seps).eq_iff

end Json

end PatentEvidence
