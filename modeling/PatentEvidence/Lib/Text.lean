/-
Character strings as the interpreted language computes them: stripping,
blankness, substring search, joining, slicing, lines.

`strip` removes the characters the language's own predicate calls white
space, which is a fixed table of code points and larger than the ASCII
one. What is left has no white space at either end: it is `Solid`, unless
nothing is left (`solid_stripChars`). The ends of a solid text survive
cutting it and joining it to others.

# Sections

- characters and texts;
- slices and lines;
- runs;
- texts without outer white space.
-/
import Mathlib.Data.List.DropRight
import Mathlib.Data.List.Infix
import Mathlib.Data.List.TakeWhile

namespace PatentEvidence.Text

/-- What holds of each character of a list is decided along the list, not
by running through all characters there are. -/
instance (priority := 2000) decidableForallMem (p : Char → Prop)
    [DecidablePred p] (cs : List Char) : Decidable (∀ c ∈ cs, p c) :=
  List.decidableBAll p cs

/-- The code points `str.isspace` accepts. -/
def isSpace (c : Char) : Bool :=
  let n := c.toNat
  (9 ≤ n && n ≤ 13) || (28 ≤ n && n ≤ 32) || n == 0x85 || n == 0xa0
    || n == 0x1680 || (0x2000 ≤ n && n ≤ 0x200a) || n == 0x2028
    || n == 0x2029 || n == 0x202f || n == 0x205f || n == 0x3000

/-- `s.strip()`, on characters. -/
def stripChars (cs : List Char) : List Char :=
  (cs.dropWhile isSpace).rdropWhile isSpace

/-- `s.strip()`. -/
def strip (s : String) : String := String.ofList (stripChars s.toList)

/-- A string with nothing but white space in it. -/
def Blank (s : String) : Prop := strip s = ""

instance (s : String) : Decidable (Blank s) :=
  inferInstanceAs (Decidable (strip s = ""))

/-- `needle in s`. -/
def occursIn (needle s : String) : Bool :=
  decide (needle.toList <:+: s.toList)

/-- `s.lower()` for comparison with a lower-case ASCII word: no letter
outside ASCII lowers to one of the words compared with here. -/
def lower (s : String) : String := String.ofList (s.toList.map Char.toLower)

/-- The upper case of a character, as far as it is ASCII: besides the ASCII
letters, these have an upper case of ASCII letters only. -/
def upperChar (c : Char) : List Char :=
  if c = 'ß' then ['S', 'S']
  else if c = 'ı' then ['I']
  else if c = 'ſ' then ['S']
  else if c = 'ﬀ' then ['F', 'F']
  else if c = 'ﬁ' then ['F', 'I']
  else if c = 'ﬂ' then ['F', 'L']
  else if c = 'ﬃ' then ['F', 'F', 'I']
  else if c = 'ﬄ' then ['F', 'F', 'L']
  else if c = 'ﬅ' ∨ c = 'ﬆ' then ['S', 'T']
  else [c.toUpper]

/-- `s.upper()` for comparison with an upper-case ASCII word. -/
def upper (s : String) : String := String.ofList (s.toList.flatMap upperChar)

/-- `s.startswith(start)`. -/
def startsWith (start s : String) : Bool := start.toList.isPrefixOf s.toList

/-- `separator.join(parts)`. -/
def join (separator : String) (parts : List String) : String :=
  separator.intercalate parts

/-- `s.split()`: the runs of characters that are no white space. -/
def words (s : String) : List String :=
  ((s.toList.splitOnP isSpace).filter fun cs => cs ≠ []).map String.ofList

/-- What follows the first occurrence of `needle`. -/
def afterFirst (needle : List Char) : List Char → Option (List Char)
  | [] => if needle = [] then some [] else none
  | c :: cs =>
      if needle.isPrefixOf (c :: cs) then
        some ((c :: cs).drop needle.length)
      else afterFirst needle cs

/-- An ASCII capital, `[A-Z]`. -/
def isCapital (c : Char) : Bool := 'A' ≤ c && c ≤ 'Z'

/-- The language's Unicode tables of digits: the value of a decimal digit
(what `\d` matches and `int` reads), and which characters `str.isdigit`
accepts. -/
class Digits where
  decimal? : Char → Option Nat
  isDigit : Char → Bool

section Digits

variable [Digits]

/-- The decimal digits of a text, with everything else removed. -/
def decimals (s : String) : List Nat := s.toList.filterMap Digits.decimal?

/-- `int(digits)`; no digits are no number. -/
def numberOf : List Nat → Option Nat
  | [] => none
  | digits => some (digits.foldl (fun n d => 10 * n + d) 0)

/-- `s.isdigit()`. -/
def allDigits (s : String) : Bool := s ≠ "" && s.toList.all Digits.isDigit

end Digits

/-- The language's table of the characters `str.isalnum` accepts. -/
class Alphanumeric where
  isAlnum : Char → Bool

/-- `\w`. -/
def isWord [Alphanumeric] (c : Char) : Bool := Alphanumeric.isAlnum c || c = '_'

/-- A string is blank exactly when all of it is white space. -/
theorem blank_iff {s : String} : Blank s ↔ ∀ c ∈ s.toList, isSpace c := by
  have hof : strip s = "" ↔ stripChars s.toList = [] := by
    rw [← String.toList_inj, strip, String.toList_ofList]
    rfl
  rw [Blank, hof, stripChars, List.rdropWhile_eq_nil_iff]
  refine ⟨fun h => ?_, fun h c hc => h c (List.dropWhile_subset _ hc)⟩
  -- what the left strip keeps starts with a non-space, so it keeps nothing
  refine List.dropWhile_eq_nil_iff.mp ?_
  cases hd : s.toList.dropWhile isSpace with
  | nil => rfl
  | cons c cs =>
      have hne : s.toList.dropWhile isSpace ≠ [] := by simp [hd]
      have hc := List.head_dropWhile_not isSpace hne
      rw [h _ (List.head_mem hne)] at hc
      cases hc

-- ====================================================== slices and lines

/-- `text[start:stop]`, of positions that are not negative. -/
def slice (text : List Char) (start stop : Nat) : List Char :=
  (text.take stop).drop start

theorem length_slice {text : List Char} (start : Nat) {stop : Nat}
    (h : stop ≤ text.length) : (slice text start stop).length = stop - start := by
  rw [slice, List.length_drop, List.length_take, Nat.min_eq_left h]

/-- A slice of a slice is one of the text. -/
theorem slice_slice (text : List Char) {start stop i j : Nat}
    (h : start + j ≤ stop) :
    slice (slice text start stop) i j = slice text (start + i) (start + j) := by
  rw [slice, slice, slice, List.take_drop, List.take_take, List.drop_drop,
    Nat.min_eq_left h]

/-- The line boundaries of `str.splitlines`. -/
def isLineBreak (c : Char) : Bool :=
  let n := c.toNat
  (10 ≤ n && n ≤ 13) || (28 ≤ n && n ≤ 30) || n == 0x85 || n == 0x2028
    || n == 0x2029

/-- The lines of what follows the beginning `line` of one. -/
def splitLinesFrom (line : List Char) : List Char → List (List Char)
  | [] => if line = [] then [] else [line]
  | '\r' :: '\n' :: cs => (line ++ ['\r', '\n']) :: splitLinesFrom [] cs
  | c :: cs =>
      if isLineBreak c then (line ++ [c]) :: splitLinesFrom [] cs
      else splitLinesFrom (line ++ [c]) cs

/-- `text.splitlines(keepends=True)`. -/
def splitLines (text : List Char) : List (List Char) := splitLinesFrom [] text

theorem flatten_splitLinesFrom (line cs : List Char) :
    (splitLinesFrom line cs).flatten = line ++ cs := by
  fun_induction splitLinesFrom line cs with
  | case1 => rfl
  | case2 line h => simp
  | case3 line cs ih => simp [ih]
  | case4 line c cs _ hbreak ih => simp [ih]
  | case5 line c cs _ hbreak ih => simp [ih]

/-- The lines are the text. -/
theorem flatten_splitLines (text : List Char) :
    (splitLines text).flatten = text := flatten_splitLinesFrom [] text

-- ================================================================= runs

section Runs

variable {α : Type _} {p : α → Bool} {run rest : List α}

/-- A run ends where something else follows, or nothing. -/
theorem takeWhile_run (hrun : ∀ a ∈ run, p a = true)
    (hrest : ∀ a ∈ rest.head?, p a = false) : (run ++ rest).takeWhile p = run := by
  rw [List.takeWhile_append_of_pos hrun]
  cases rest with
  | nil => exact List.append_nil run
  | cons a rest =>
      rw [List.takeWhile_cons_of_neg (ne_true_of_eq_false (hrest a rfl)),
        List.append_nil]

theorem dropWhile_run (hrun : ∀ a ∈ run, p a = true)
    (hrest : ∀ a ∈ rest.head?, p a = false) : (run ++ rest).dropWhile p = rest := by
  rw [List.dropWhile_append_of_pos hrun]
  cases rest with
  | nil => rfl
  | cons a rest =>
      rw [List.dropWhile_cons_of_neg (ne_true_of_eq_false (hrest a rfl))]

/-- What follows a run is not of it. -/
theorem head_dropWhile (h : run.dropWhile p ≠ []) :
    ∃ a ∈ (run.dropWhile p).head?, p a = false :=
  ⟨_, List.head?_eq_some_head h, List.head_dropWhile_not p h⟩

/-- Where a run ends, more behind it changes nothing. -/
theorem dropWhile_append_of_ne_nil (h : run.dropWhile p ≠ []) (more : List α) :
    (run ++ more).dropWhile p = run.dropWhile p ++ more := by
  rw [List.dropWhile_append, if_neg (List.isEmpty_iff.not.mpr h)]

theorem takeWhile_append_of_ne_nil (h : run.dropWhile p ≠ []) (more : List α) :
    (run ++ more).takeWhile p = run.takeWhile p := by
  rw [List.takeWhile_append, if_neg]
  intro hlength
  refine h (List.dropWhile_eq_nil_iff.mpr (List.takeWhile_eq_self_iff.mp ?_))
  exact (List.takeWhile_prefix p).eq_of_length hlength

/-- What stands before the first mark is read back, and what stands behind. -/
theorem append_cons_inj [DecidableEq α] {mark : α} {before after before' after' : List α}
    (h : before ++ mark :: after = before' ++ mark :: after')
    (hbefore : mark ∉ before) (hbefore' : mark ∉ before') :
    before = before' ∧ after = after' := by
  have hread (before after : List α) (hno : mark ∉ before) :
      (before ++ mark :: after).takeWhile (fun a => decide (a ≠ mark)) = before :=
    takeWhile_run (fun a ha => decide_eq_true fun heq => hno (heq ▸ ha)) (by simp)
  have heq : before = before' := by
    rw [← hread before after hbefore, h, hread before' after' hbefore']
  subst heq
  exact ⟨rfl, (List.cons.inj (List.append_cancel_left h)).2⟩

end Runs

/-- So are texts with a separator between them that begins with the mark. -/
theorem append_separated_inj {a b a' b' separator : String} {mark : Char}
    {label : List Char} (hseparator : separator.toList = mark :: label)
    (h : a ++ (separator ++ b) = a' ++ (separator ++ b'))
    (ha : mark ∉ a.toList) (ha' : mark ∉ a'.toList) : a = a' ∧ b = b' := by
  have hlists := congrArg String.toList h
  simp only [String.toList_append, hseparator, List.cons_append] at hlists
  obtain ⟨hbefore, hafter⟩ := append_cons_inj hlists ha ha'
  exact ⟨String.toList_inj.mp hbefore,
    String.toList_inj.mp (List.append_cancel_left hafter)⟩

-- ====================================== texts without outer white space

/-- Neither empty nor with white space at an end. -/
def Solid (cs : List Char) : Prop :=
  (∃ c ∈ cs.head?, isSpace c = false) ∧ ∃ c ∈ cs.getLast?, isSpace c = false

section Solid

variable {cs ds : List Char}

theorem Solid.ne_nil (h : Solid cs) : cs ≠ [] := by
  rintro rfl
  obtain ⟨⟨c, hc, -⟩, -⟩ := h
  cases hc

/-- Nothing is stripped off the front. -/
theorem dropWhile_of_head (h : ∃ c ∈ cs.head?, isSpace c = false) :
    cs.dropWhile isSpace = cs := by
  obtain ⟨c, hc, hspace⟩ := h
  cases cs with
  | nil => cases hc
  | cons d ds =>
      cases hc
      rw [List.dropWhile_cons_of_neg (ne_true_of_eq_false hspace)]

/-- Nor off the back. -/
theorem rdropWhile_of_getLast (h : ∃ c ∈ cs.getLast?, isSpace c = false) :
    cs.rdropWhile isSpace = cs := by
  rw [List.rdropWhile, dropWhile_of_head, List.reverse_reverse]
  rw [List.head?_reverse]
  exact h

theorem getLast_rdropWhile (h : cs.rdropWhile isSpace ≠ []) :
    ∃ c ∈ (cs.rdropWhile isSpace).getLast?, isSpace c = false :=
  ⟨_, List.getLast?_eq_some_getLast h,
    eq_false_of_ne_true (List.rdropWhile_last_not isSpace cs h)⟩

theorem Solid.strip (h : Solid cs) : stripChars cs = cs := by
  rw [stripChars, dropWhile_of_head h.1, rdropWhile_of_getLast h.2]

/-- A slice that begins and ends with something other than white space. -/
theorem solid_slice {i j : Nat} (hlt : i < j) (hle : j ≤ cs.length)
    (hhead : ∃ c ∈ (cs.drop i).head?, isSpace c = false)
    (hlast : ∃ c ∈ (cs.take j).getLast?, isSpace c = false) :
    Solid (slice cs i j) := by
  have hlength : (cs.take j).length = j := by
    rw [List.length_take, Nat.min_eq_left hle]
  constructor
  · rw [slice, List.head?_drop, List.getElem?_take_of_lt hlt, ← List.head?_drop]
    exact hhead
  · rw [slice, List.getLast?_drop, hlength, if_neg (by omega)]
    exact hlast

/-- Stripping both ends is dropping what each strip drops. -/
theorem dropWhile_eq_drop (cs : List Char) :
    cs.dropWhile isSpace
      = cs.drop (cs.length - (cs.dropWhile isSpace).length) :=
  List.suffix_iff_eq_drop.mp (List.dropWhile_suffix isSpace)

theorem rdropWhile_eq_take (cs : List Char) :
    cs.rdropWhile isSpace = cs.take (cs.rdropWhile isSpace).length :=
  List.prefix_iff_eq_take.mp (List.rdropWhile_prefix isSpace cs)

theorem solid_stripChars (h : stripChars cs ≠ []) : Solid (stripChars cs) := by
  refine ⟨?_, getLast_rdropWhile h⟩
  have hne : cs.dropWhile isSpace ≠ [] := by
    intro hnil
    rw [stripChars, hnil] at h
    exact h rfl
  have hpos := List.length_pos_iff.mpr h
  rw [stripChars] at hpos ⊢
  rw [rdropWhile_eq_take, List.head?_take, if_neg (by omega)]
  exact head_dropWhile hne

/-- A stripped text has nothing more to strip. -/
theorem stripChars_stripChars (cs : List Char) :
    stripChars (stripChars cs) = stripChars cs := by
  by_cases h : stripChars cs = []
  · rw [h]
    rfl
  · exact (solid_stripChars h).strip

theorem strip_strip (s : String) : strip (strip s) = strip s := by
  rw [strip, strip, String.toList_ofList, stripChars_stripChars]

theorem stripChars_subset (cs : List Char) : stripChars cs ⊆ cs :=
  fun _ hc => List.dropWhile_subset _ ((List.rdropWhile_prefix _ _).subset hc)

/-- What is no white space stays in front of what is stripped behind it. -/
theorem rdropWhile_append {cs ds : List Char} (h : ∀ c ∈ cs, isSpace c = false) :
    (cs ++ ds).rdropWhile isSpace = cs ++ ds.rdropWhile isSpace := by
  induction cs with
  | nil => rfl
  | cons c cs ih =>
      obtain ⟨hc, hcs⟩ := List.forall_mem_cons.mp h
      rw [List.cons_append, List.cons_append, ← ih hcs, List.rdropWhile,
        List.reverse_cons, List.dropWhile_append, List.rdropWhile]
      split
      · next hall =>
          rw [List.isEmpty_iff] at hall
          rw [hall, List.dropWhile_cons_of_neg (ne_true_of_eq_false hc)]
          rfl
      · rw [List.reverse_append]
        rfl

/-- White space in front goes, up to text that has none. -/
theorem stripChars_append {spaces cs : List Char} (ds : List Char)
    (hspaces : ∀ c ∈ spaces, isSpace c = true) (hcs : ∀ c ∈ cs, isSpace c = false)
    (hne : cs ≠ []) :
    stripChars (spaces ++ (cs ++ ds)) = cs ++ ds.rdropWhile isSpace := by
  have hhead : ∃ c ∈ (cs ++ ds).head?, isSpace c = false := by
    obtain ⟨c, rest, rfl⟩ := List.exists_cons_of_ne_nil hne
    exact ⟨c, rfl, hcs c (List.mem_cons_self ..)⟩
  rw [stripChars, List.dropWhile_append_of_pos hspaces, dropWhile_of_head hhead,
    rdropWhile_append hcs]

/-- A text is what is stripped of it and white space around. -/
theorem exists_spaces (cs : List Char) : ∃ spaces behind : List Char,
    (∀ c ∈ spaces, isSpace c = true) ∧ cs = spaces ++ (stripChars cs ++ behind) := by
  refine ⟨cs.takeWhile isSpace, (cs.dropWhile isSpace).rtakeWhile isSpace,
    fun c hc => List.mem_takeWhile_imp hc, ?_⟩
  rw [stripChars, List.rdropWhile_append_rtakeWhile, List.takeWhile_append_dropWhile]

/-- What is left of a text, where neither strip takes all of it: the rest
of the bounds each strip leaves. -/
theorem solid_slice_of_strips
    (h : cs.length - (cs.dropWhile isSpace).length
      < (cs.rdropWhile isSpace).length) :
    Solid (slice cs (cs.length - (cs.dropWhile isSpace).length)
      (cs.rdropWhile isSpace).length) := by
  have hright : cs.rdropWhile isSpace ≠ [] := by
    intro hnil
    rw [hnil] at h
    exact Nat.not_lt_zero _ h
  have hle := (List.rdropWhile_prefix isSpace cs).length_le
  have hleft : cs.dropWhile isSpace ≠ [] := by
    intro hnil
    rw [hnil, List.length_nil, Nat.sub_zero] at h
    omega
  refine solid_slice h hle ?_ ?_
  · rw [← dropWhile_eq_drop]
    exact head_dropWhile hleft
  · rw [← rdropWhile_eq_take]
    exact getLast_rdropWhile hright

/-- The part of a solid text before a cut, stripped. -/
theorem Solid.strip_take (h : Solid cs) {n : Nat}
    (hne : stripChars (cs.take n) ≠ []) :
    stripChars (cs.take n) = slice cs 0 ((cs.take n).rdropWhile isSpace).length := by
  have hpos : n ≠ 0 := by
    rintro rfl
    exact hne rfl
  have hhead : ∃ c ∈ (cs.take n).head?, isSpace c = false := by
    rw [List.head?_take, if_neg hpos]
    exact h.1
  have hle := (List.rdropWhile_prefix isSpace (cs.take n)).length_le
  rw [List.length_take] at hle
  rw [stripChars, dropWhile_of_head hhead, slice, List.drop_zero]
  nth_rewrite 1 [rdropWhile_eq_take]
  rw [List.take_take, Nat.min_eq_left (by omega)]

/-- And the part after it. -/
theorem Solid.strip_drop (h : Solid cs) {n : Nat}
    (hne : stripChars (cs.drop n) ≠ []) :
    stripChars (cs.drop n) = cs.drop (n + ((cs.drop n).length
      - ((cs.drop n).dropWhile isSpace).length)) := by
  have hleft : (cs.drop n).dropWhile isSpace ≠ [] := by
    intro hnil
    rw [stripChars, hnil] at hne
    exact hne rfl
  have hdrop : (cs.drop n).dropWhile isSpace = cs.drop (n + ((cs.drop n).length
      - ((cs.drop n).dropWhile isSpace).length)) := by
    rw [← List.drop_drop, ← dropWhile_eq_drop]
  have hlast : ∃ c ∈ ((cs.drop n).dropWhile isSpace).getLast?,
      isSpace c = false := by
    rw [hdrop] at hleft ⊢
    rw [ne_eq, List.drop_eq_nil_iff] at hleft
    rw [List.getLast?_drop, if_neg hleft]
    exact h.2
  rw [stripChars, rdropWhile_of_getLast hlast, ← hdrop]

theorem Solid.append {ds : List Char} (hcs : Solid cs) (hds : Solid ds)
    (between : List Char) : Solid (cs ++ between ++ ds) := by
  obtain ⟨⟨c, hc, hspace⟩, -⟩ := hcs
  obtain ⟨-, d, hd, hspace'⟩ := hds
  refine ⟨⟨c, ?_, hspace⟩, d, ?_, hspace'⟩
  · rw [List.append_assoc, List.head?_append, Option.mem_def.mp hc]
    rfl
  · rw [List.getLast?_append, Option.mem_def.mp hd]
    rfl

end Solid

theorem solid_iff {s : String} :
    Solid s.toList ↔ ¬ Blank s ∧ strip s = s := by
  have hstrip : strip s = s ↔ stripChars s.toList = s.toList := by
    rw [← String.toList_inj, strip, String.toList_ofList]
  have hblank : Blank s ↔ stripChars s.toList = [] := by
    rw [Blank, ← String.toList_inj, strip, String.toList_ofList]
    rfl
  rw [hstrip, hblank]
  constructor
  · intro h
    rw [h.strip]
    exact ⟨h.ne_nil, rfl⟩
  · rintro ⟨hne, heq⟩
    rw [← heq]
    exact solid_stripChars hne

/-- Joined with anything, solid texts are solid. -/
theorem solid_join {separator : String} {parts : List String} (hne : parts ≠ [])
    (h : ∀ s ∈ parts, Solid s.toList) : Solid (join separator parts).toList := by
  induction parts with
  | nil => exact absurd rfl hne
  | cons s parts ih =>
      obtain ⟨hs, hparts⟩ := List.forall_mem_cons.mp h
      by_cases hnil : parts = []
      · subst hnil
        rw [join, String.intercalate_singleton]
        exact hs
      · rw [join, String.intercalate_cons_of_ne_nil hnil, String.toList_append,
          String.toList_append]
        exact hs.append (ih hnil hparts) _

/-- What is in a part is in the joined text. -/
theorem mem_join {separator part : String} {parts : List String} {c : Char}
    (hpart : part ∈ parts) (hc : c ∈ part.toList) :
    c ∈ (join separator parts).toList := by
  induction parts with
  | nil => cases hpart
  | cons s parts ih =>
      by_cases hnil : parts = []
      · subst hnil
        rw [join, String.intercalate_singleton, ← List.mem_singleton.mp hpart]
        exact hc
      · rw [join, String.intercalate_cons_of_ne_nil hnil, String.toList_append,
          String.toList_append, List.append_assoc]
        rcases List.mem_cons.mp hpart with rfl | hpart
        · exact List.mem_append_left _ hc
        · exact List.mem_append_right _ (List.mem_append_right _ (ih hpart))

/-- Joining joined texts. -/
theorem join_flatMap {α : Type _} (separator : String) (parts : α → List String)
    {l : List α} (h : ∀ a ∈ l, parts a ≠ []) :
    join separator (l.flatMap parts)
      = join separator (l.map fun a => join separator (parts a)) := by
  induction l with
  | nil => rfl
  | cons a l ih =>
      obtain ⟨ha, hl⟩ := List.forall_mem_cons.mp h
      by_cases hnil : l = []
      · subst hnil
        rw [List.flatMap_cons, List.flatMap_nil, List.append_nil, List.map_cons,
          List.map_nil]
        exact String.intercalate_singleton.symm
      · have hparts : l.flatMap parts ≠ [] := by
          obtain ⟨b, hb⟩ := List.exists_mem_of_ne_nil l hnil
          rw [ne_eq, List.flatMap_eq_nil_iff]
          exact fun hall => hl b hb (hall b hb)
        have hmap : l.map (fun a => join separator (parts a)) ≠ [] := by
          rw [ne_eq, List.map_eq_nil_iff]
          exact hnil
        rw [List.flatMap_cons, List.map_cons, join,
          String.intercalate_append_of_ne_nil ha hparts, join,
          String.intercalate_cons_of_ne_nil hmap]
        exact congrArg _ (ih hl)

end PatentEvidence.Text
