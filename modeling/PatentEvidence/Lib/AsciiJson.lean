/-
Printing flat JSON objects in ASCII, and why no two print alike.

`json.dumps` writes what is not printable ASCII as the code units of its
UTF-16 form, one `\u` escape each, so a character beyond the first plane is
two. A surrogate never stands for a character, so the first unit says
whether a second one belongs to it (`AsciiEscaped.unambiguous`), and
strings, values and objects can be read off any text as in the general
printer.

# Sections

- code units;
- strings;
- flat objects.
-/
import PatentEvidence.Lib.JsonText

namespace PatentEvidence.Json

-- =========================================================== code units

/-- A code unit as `\uXXXX`. -/
def unitText (unit : Nat) : List Char :=
  ['\\', 'u', (unit / 4096).digitChar, (unit / 256 % 16).digitChar,
    (unit / 16 % 16).digitChar, (unit % 16).digitChar]

theorem digitChar_injective : ∀ m < 16, ∀ n < 16,
    m.digitChar = n.digitChar → m = n := by decide

/-- Four digits tell the unit. -/
theorem unitText_unambiguous {m n : Nat} {r s : List Char} (hm : m < 65536)
    (hn : n < 65536) (h : unitText m ++ r = unitText n ++ s) :
    m = n ∧ r = s := by
  simp only [unitText, List.cons_append, List.nil_append, List.cons.injEq,
    true_and] at h
  obtain ⟨h₃, h₂, h₁, h₀, hrest⟩ := h
  have := digitChar_injective _ (by omega) _ (by omega) h₃
  have := digitChar_injective _ (by omega) _ (by omega) h₂
  have := digitChar_injective _ (by omega) _ (by omega) h₁
  have := digitChar_injective _ (by omega) _ (by omega) h₀
  exact ⟨by omega, hrest⟩

/-- The units of a character beyond the first plane. -/
def highSurrogate (c : Char) : Nat := 0xd800 + (c.toNat - 0x10000) / 1024

def lowSurrogate (c : Char) : Nat := 0xdc00 + (c.toNat - 0x10000) % 1024

theorem toNat_lt (c : Char) : c.toNat < 0x110000 := by
  rcases c.valid with h | h
  · exact Nat.lt_trans h (by decide)
  · exact h.2

/-- No character is a surrogate. -/
theorem not_surrogate (c : Char) : c.toNat < 0xd800 ∨ 0xdfff < c.toNat := by
  rcases c.valid with h | h
  · exact Or.inl h
  · exact Or.inr h.1

theorem highSurrogate_bounds (c : Char) :
    0xd800 ≤ highSurrogate c ∧ highSurrogate c < 0xdc00 := by
  have hlt := toNat_lt c
  unfold highSurrogate
  omega

theorem lowSurrogate_lt (c : Char) : lowSurrogate c < 65536 := by
  unfold lowSurrogate
  omega

theorem surrogates_injective {c d : Char} (hc : 0x10000 ≤ c.toNat)
    (hd : 0x10000 ≤ d.toNat) (hhigh : highSurrogate c = highSurrogate d)
    (hlow : lowSurrogate c = lowSurrogate d) : c = d := by
  unfold highSurrogate at hhigh
  unfold lowSurrogate at hlow
  exact Char.toNat_inj.mp (by omega)

-- ============================================================== strings

/-- A character inside a string, in ASCII. -/
def asciiEscape (c : Char) : List Char :=
  match shortEscapes.lookup c with
  | some letter => ['\\', letter]
  | none =>
      if 32 ≤ c.toNat ∧ c.toNat ≤ 126 then [c]
      else if c.toNat < 0x10000 then unitText c.toNat
      else unitText (highSurrogate c) ++ unitText (lowSurrogate c)

def asciiQuoted (s : String) : List Char :=
  '"' :: (s.toList.flatMap asciiEscape ++ ['"'])

/-- What `asciiEscape` writes. -/
inductive AsciiEscaped (c : Char) : List Char → Prop
  | short {letter : Char} (h : (c, letter) ∈ shortEscapes) :
      AsciiEscaped c ['\\', letter]
  | plain (hquote : c ≠ '"') (hslash : c ≠ '\\') : AsciiEscaped c [c]
  | unit (h : c.toNat < 0x10000) : AsciiEscaped c (unitText c.toNat)
  | pair (h : 0x10000 ≤ c.toNat) : AsciiEscaped c
      (unitText (highSurrogate c) ++ unitText (lowSurrogate c))

theorem asciiEscaped_asciiEscape (c : Char) :
    AsciiEscaped c (asciiEscape c) := by
  cases hlookup : shortEscapes.lookup c with
  | some letter =>
      simp only [asciiEscape, hlookup]
      exact .short (mem_shortEscapes hlookup)
  | none =>
      obtain ⟨hquote, hslash⟩ := ne_of_lookup_eq_none hlookup
      simp only [asciiEscape, hlookup]
      split
      · exact .plain hquote hslash
      · split
        · next hlt => exact .unit hlt
        · next hge => exact .pair (by omega)

/-- A short escape is no code. -/
theorem short_ne_unit {c letter : Char} {unit : Nat} {r s : List Char}
    (h : (c, letter) ∈ shortEscapes) :
    ['\\', letter] ++ r ≠ unitText unit ++ s := by
  intro heq
  obtain ⟨-, heq⟩ := List.cons.inj heq
  exact letter_ne_u _ h (List.cons.inj heq).1

/-- A character itself opens no escape. -/
theorem plain_ne_slash {c : Char} {r s : List Char} (hslash : c ≠ '\\') :
    [c] ++ r ≠ '\\' :: s := fun heq => hslash (List.cons.inj heq).1

/-- One escaped character can be read off any text. -/
theorem AsciiEscaped.unambiguous {c d : Char} {cs ds r s : List Char}
    (hc : AsciiEscaped c cs) (hd : AsciiEscaped d ds)
    (h : cs ++ r = ds ++ s) : c = d ∧ r = s := by
  have hhigh (c : Char) := highSurrogate_bounds c
  cases hc with
  | @short letter hc =>
      cases hd with
      | @short letter' hd =>
          obtain ⟨-, h⟩ := List.cons.inj h
          obtain ⟨hletter, hrest⟩ := List.cons.inj h
          exact ⟨letter_injective _ hc _ hd hletter, hrest⟩
      | plain hquote hslash => exact absurd h.symm (plain_ne_slash hslash)
      | unit hd => exact absurd h (short_ne_unit hc)
      | pair hd =>
          rw [List.append_assoc] at h
          exact absurd h (short_ne_unit hc)
  | plain hquote hslash =>
      cases hd with
      | plain hquote' hslash' => exact List.cons.inj h
      | short hd => exact absurd h (plain_ne_slash hslash)
      | unit hd => exact absurd h (plain_ne_slash hslash)
      | pair hd => exact absurd h (plain_ne_slash hslash)
  | unit hc =>
      cases hd with
      | short hd => exact absurd h.symm (short_ne_unit hd)
      | plain hquote hslash => exact absurd h.symm (plain_ne_slash hslash)
      | unit hd =>
          obtain ⟨heq, hrest⟩ := unitText_unambiguous hc hd h
          exact ⟨Char.toNat_inj.mp heq, hrest⟩
      | pair hd =>
          rw [List.append_assoc] at h
          obtain ⟨heq, -⟩ := unitText_unambiguous hc (by
            have := hhigh d
            omega) h
          have := hhigh d
          have := not_surrogate c
          omega
  | pair hc =>
      cases hd with
      | short hd =>
          rw [List.append_assoc] at h
          exact absurd h.symm (short_ne_unit hd)
      | plain hquote hslash => exact absurd h.symm (plain_ne_slash hslash)
      | unit hd =>
          rw [List.append_assoc] at h
          obtain ⟨heq, -⟩ := unitText_unambiguous (by
            have := hhigh c
            omega) hd h
          have := hhigh c
          have := not_surrogate d
          omega
      | pair hd =>
          rw [List.append_assoc, List.append_assoc] at h
          obtain ⟨hhighs, h⟩ := unitText_unambiguous (by
            have := hhigh c
            omega) (by
            have := hhigh d
            omega) h
          obtain ⟨hlows, hrest⟩ := unitText_unambiguous (lowSurrogate_lt c)
            (lowSurrogate_lt d) h
          exact ⟨surrogates_injective hc hd hhighs hlows, hrest⟩

/-- No escaped character opens with a quotation mark. -/
theorem AsciiEscaped.ne_quote {c : Char} {cs r s : List Char}
    (hc : AsciiEscaped c cs) : cs ++ r ≠ '"' :: s := by
  intro h
  cases hc with
  | short hc => exact absurd (List.cons.inj h).1 (by decide)
  | plain hquote hslash => exact hquote (List.cons.inj h).1
  | unit hc => exact absurd (List.cons.inj h).1 (by decide)
  | pair hc => exact absurd (List.cons.inj h).1 (by decide)

theorem asciiEscape_unambiguous {cs ds r s : List Char}
    (h : cs.flatMap asciiEscape ++ '"' :: r
      = ds.flatMap asciiEscape ++ '"' :: s) : cs = ds ∧ r = s :=
  flatMap_unambiguous
    (fun h => (asciiEscaped_asciiEscape _).unambiguous
      (asciiEscaped_asciiEscape _) h)
    (asciiEscaped_asciiEscape _).ne_quote h

theorem asciiQuoted_unambiguous {k l : String} {r s : List Char}
    (h : asciiQuoted k ++ r = asciiQuoted l ++ s) : k = l ∧ r = s := by
  simp only [asciiQuoted, List.cons_append, List.append_assoc, List.nil_append,
    List.cons.injEq, true_and] at h
  obtain ⟨hchars, hrest⟩ := asciiEscape_unambiguous h
  exact ⟨String.toList_inj.mp hchars, hrest⟩

-- ========================================================= flat objects

/-- A value that is no array and no object. -/
inductive Scalar (ν : Type _)
  | null
  | num (n : ν)
  | str (s : String)

variable {ν : Type _} [JsonNumber ν]

def Scalar.text : Scalar ν → List Char
  | .null => "null".toList
  | .num n => JsonNumber.text n
  | .str s => asciiQuoted s

/-- A number opens with none of the other values' characters. -/
theorem number_ne_cons {n : ν} {c : Char} {r s : List Char}
    (hc : isNumberChar c = false) : JsonNumber.text n ++ r ≠ c :: s := by
  obtain ⟨d, ds, hd⟩ := List.exists_cons_of_ne_nil (JsonNumber.text_ne_nil n)
  have hnumber := JsonNumber.isNumberChar_of_mem n d
    (hd ▸ List.mem_cons_self ..)
  rw [hd]
  intro h
  rw [(List.cons.inj h).1, hc] at hnumber
  cases hnumber

theorem scalar_unambiguous (v : Scalar ν) : Unambiguous Scalar.text v := by
  intro w r s hr hs h
  cases v with
  | null =>
      cases w with
      | null => exact ⟨rfl, List.append_cancel_left h⟩
      | num n => exact absurd h.symm (number_ne_cons (by decide))
      | str l => exact absurd (List.cons.inj h).1 (by decide)
  | num n =>
      cases w with
      | null => exact absurd h (number_ne_cons (by decide))
      | num m =>
          obtain ⟨rfl, hrest⟩ := number_unambiguous hr hs h
          exact ⟨rfl, hrest⟩
      | str l => exact absurd h (number_ne_cons (by decide))
  | str k =>
      cases w with
      | null => exact absurd (List.cons.inj h).1 (by decide)
      | num m => exact absurd h.symm (number_ne_cons (by decide))
      | str l =>
          obtain ⟨rfl, hrest⟩ := asciiQuoted_unambiguous h
          exact ⟨rfl, hrest⟩

def flatEntryText (e : String × Scalar ν) : List Char :=
  asciiQuoted e.1 ++ ':' :: e.2.text

theorem flatEntry_unambiguous (e : String × Scalar ν) :
    Unambiguous flatEntryText e := by
  intro f r s hr hs h
  simp only [flatEntryText, List.append_assoc, List.cons_append] at h
  obtain ⟨hkey, hrest⟩ := asciiQuoted_unambiguous h
  obtain ⟨hvalue, hrs⟩ :=
    scalar_unambiguous e.2 f.2 r s hr hs (List.cons.inj hrest).2
  exact ⟨Prod.ext hkey hvalue, hrs⟩

/-- `json.dumps(payload, sort_keys=True, separators=(",", ":"))`, of a dict
with no container in it. -/
def flatDumps (entries : List (String × Scalar ν)) : List Char :=
  '{' :: (separated [','] ((sortEntries entries).map flatEntryText) ++ ['}'])

/-- Two objects that print alike have the same entries. -/
theorem perm_of_flatDumps {es fs : List (String × Scalar ν)}
    (h : flatDumps es = flatDumps fs) : es.Perm fs := by
  obtain ⟨-, h⟩ := List.cons.inj h
  have hopen (e : String × Scalar ν) (t : List Char) :
      flatEntryText e ≠ [] ∧ flatEntryText e ≠ '}' :: t :=
    ⟨List.cons_ne_nil _ _, fun heq => by cases (List.cons.inj heq).1⟩
  obtain ⟨hsorted, -⟩ := separated_unambiguous (by decide) (by decide)
    (by decide) hopen (fun e _ => flatEntry_unambiguous e) h
  have hperm := perm_sortEntries es
  rw [hsorted] at hperm
  exact hperm.symm.trans (perm_sortEntries fs)

/-- And the same value under each key that is there once. -/
theorem value_eq_of_flatDumps {es fs : List (String × Scalar ν)}
    (h : flatDumps es = flatDumps fs) (hfs : (fs.map Prod.fst).Nodup)
    {key : String} {v w : Scalar ν} (hv : (key, v) ∈ es) (hw : (key, w) ∈ fs) :
    v = w := by
  have hv' : (key, v) ∈ fs := (perm_of_flatDumps h).mem_iff.mp hv
  exact congrArg Prod.snd (List.inj_on_of_nodup_map hfs hv' hw rfl)

end PatentEvidence.Json
