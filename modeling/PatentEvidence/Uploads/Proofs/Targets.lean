/-
Which spellings of a network location are told from local paths.

Either separator may stand for the other: in front of the target and after
`file:`. Behind `file:` both are counted, so every spelling has one verdict
(`isNetworkValue_file`). A target that begins with two separators is one of
a network only if the two are the same, and then one of the two may be
exchanged (`isNetworkValue_separators`). So the verdict depends on the
spelling exactly for the targets with two or more separators in front.
-/
import PatentEvidence.Lib.Scan
import PatentEvidence.Uploads.Guard

namespace PatentEvidence.Uploads

open Text

-- ============================================================ spellings

/-- Two spellings of one target: some separators in front, or behind `file:`,
are other ones. -/
inductive Respelled : List Char → List Char → Prop
  | front {spaces seps seps' : List Char} (rest : List Char)
      (hspaces : ∀ c ∈ spaces, isSpace c = true)
      (hseps : ∀ c ∈ seps, isSeparator c = true)
      (hseps' : ∀ c ∈ seps', isSeparator c = true)
      (hlength : seps'.length = seps.length) :
      Respelled (spaces ++ (seps ++ rest)) (spaces ++ (seps' ++ rest))
  | file {spaces scheme seps seps' : List Char} (rest : List Char)
      (hspaces : ∀ c ∈ spaces, isSpace c = true)
      (hfile : lower (String.ofList scheme) = "file")
      (hseps : ∀ c ∈ seps, isSeparator c = true)
      (hseps' : ∀ c ∈ seps', isSeparator c = true)
      (hlength : seps'.length = seps.length) :
      Respelled (spaces ++ (scheme ++ ':' :: (seps ++ rest)))
        (spaces ++ (scheme ++ ':' :: (seps' ++ rest)))

/-- No other spelling of the target has another verdict. -/
def OneVerdict (target : String) : Prop :=
  ∀ target' : String, Respelled target.toList target'.toList →
    isNetworkTarget target' = isNetworkTarget target

/-- The separators in front of a stripped target. -/
def leadingSeparators (target : String) : Nat :=
  ((stripChars target.toList).takeWhile isSeparator).length

-- ============================================================ characters

theorem separator_cases {c : Char} (h : isSeparator c = true) :
    c = '/' ∨ c = '\\' := by
  rw [isSeparator, Bool.or_eq_true, decide_eq_true_eq, decide_eq_true_eq] at h
  exact h

theorem isSpace_of_separator {c : Char} (h : isSeparator c = true) :
    isSpace c = false := by
  rcases separator_cases h with rfl | rfl
  · decide
  · decide

-- ============================================================= verdicts

/-- A target that begins with a separator is a network's if the next character
is the same. -/
theorem isNetworkValue_separator {c : Char} (hc : isSeparator c = true)
    (cs : List Char) : isNetworkValue (c :: cs) = decide (cs.head? = some c) := by
  cases cs with
  | nil =>
      rcases separator_cases hc with rfl | rfl
      · rfl
      · rfl
  | cons d ds =>
      have hvalue : isNetworkValue (c :: d :: ds) = (c == d) := by
        rcases separator_cases hc with rfl | rfl
        · have htwo : isNetworkValue ('/' :: d :: ds) = (false || ('/' == d && true)) :=
            rfl
          rw [htwo, Bool.false_or, Bool.and_true]
        · have htwo : isNetworkValue ('\\' :: d :: ds)
              = (('\\' == d && true) || false) := rfl
          rw [htwo, Bool.or_false, Bool.and_true]
      rw [hvalue, List.head?_cons, Bool.eq_iff_iff, beq_iff_eq, decide_eq_true_eq,
        Option.some_inj, eq_comm]

/-- The scheme is four letters. -/
theorem letters_of_file {scheme : List Char}
    (h : lower (String.ofList scheme) = "file") :
    scheme.length = 4 ∧ ∀ c ∈ scheme, c.isAlpha = true := by
  have hmap : scheme.map Char.toLower = ['f', 'i', 'l', 'e'] := by
    rw [lower, String.toList_ofList] at h
    exact String.ofList_inj.mp h
  refine ⟨?_, fun c hc => ?_⟩
  · have hlength := congrArg List.length hmap
    rw [List.length_map] at hlength
    exact hlength
  · have hmem : c.toLower ∈ ['f', 'i', 'l', 'e'] := hmap ▸ List.mem_map_of_mem hc
    have hall : ∀ d ∈ ['f', 'i', 'l', 'e'], d.isAlpha = true := by decide
    refine eq_true_of_ne_false fun hno => ?_
    rw [Scan.toLower_of_not_isAlpha hno] at hmem
    exact ne_true_of_eq_false hno (hall c hmem)

/-- Behind `file:` the separators are counted. -/
theorem isNetworkValue_file {scheme : List Char}
    (h : lower (String.ofList scheme) = "file") (path : List Char) :
    isNetworkValue (scheme ++ ':' :: path)
      = ((path.takeWhile isSeparator).length = 2
        || 4 ≤ (path.takeWhile isSeparator).length) := by
  obtain ⟨hlength, halpha⟩ := letters_of_file h
  obtain ⟨c, cs, rfl⟩ := List.exists_cons_of_length_eq_add_one hlength
  obtain ⟨hc, hcs⟩ := List.forall_mem_cons.mp halpha
  have hletter : isSchemeLetter c = true := by rw [isSchemeLetter, hc, Bool.true_or]
  have hchars : ∀ d ∈ cs, isSchemeChar d = true := fun d hd => by
    rw [isSchemeChar, isSchemeLetter, hcs d hd, Bool.true_or, Bool.true_or,
      Bool.true_or]
  have hscheme : urlScheme (c :: cs ++ ':' :: path) = some (c :: cs, path) := by
    rw [List.cons_append, urlScheme, if_pos hletter,
      List.dropWhile_append_of_pos hchars, List.takeWhile_append_of_pos hchars,
      List.dropWhile_cons_of_neg (by decide), List.takeWhile_cons_of_neg (by decide),
      List.append_nil]
    rfl
  have hdrive : isDrive (c :: cs ++ ':' :: path) = false := by
    cases cs with
    | nil => cases hlength
    | cons d ds =>
        have hd : d ≠ ':' := fun heq => by
          have halpha := hcs d (List.mem_cons_self ..)
          rw [heq] at halpha
          exact absurd halpha (by decide)
        rw [List.cons_append, List.cons_append, isDrive]
        exact fun _ _ heq => hd (List.cons.inj (List.cons.inj heq).2).1
  rw [isNetworkValue, hscheme]
  dsimp only
  rw [hdrive, if_neg Bool.false_ne_true, if_neg (not_not.mpr h)]

-- ======================================================= the condition

theorem isSpace_of_forall_separator {seps : List Char}
    (h : ∀ c ∈ seps, isSeparator c = true) : ∀ c ∈ seps, isSpace c = false :=
  fun c hc => isSpace_of_separator (h c hc)

/-- What is no white space is counted before what is stripped. -/
theorem takeWhile_separators {seps : List Char}
    (h : ∀ c ∈ seps, isSeparator c = true) (cs : List Char) :
    ((seps ++ cs).takeWhile isSeparator).length
      = seps.length + (cs.takeWhile isSeparator).length := by
  rw [List.takeWhile_append_of_pos h, List.length_append]

/-- Behind `file:` every spelling has one verdict. -/
theorem isNetworkValue_file_respelled {spaces scheme seps seps' : List Char}
    (rest : List Char) (hspaces : ∀ c ∈ spaces, isSpace c = true)
    (hfile : lower (String.ofList scheme) = "file")
    (hseps : ∀ c ∈ seps, isSeparator c = true)
    (hseps' : ∀ c ∈ seps', isSeparator c = true)
    (hlength : seps'.length = seps.length) :
    isNetworkValue (stripChars (spaces ++ (scheme ++ ':' :: (seps' ++ rest))))
      = isNetworkValue (stripChars (spaces ++ (scheme ++ ':' :: (seps ++ rest)))) := by
  have hsolid : ∀ c ∈ scheme ++ [':'], isSpace c = false := by
    intro c hc
    rcases List.mem_append.mp hc with hc | hc
    · have halpha := (letters_of_file hfile).2 c hc
      refine eq_false_of_ne_true fun hspace => ?_
      have hno := Scan.not_isAlphanum_of_isSpace hspace
      rw [Char.isAlphanum, halpha, Bool.true_or] at hno
      cases hno
    · rw [List.mem_singleton.mp hc]
      decide
  have hverdict {seps : List Char} (hseps : ∀ c ∈ seps, isSeparator c = true) :
      isNetworkValue (stripChars (spaces ++ (scheme ++ ':' :: (seps ++ rest))))
        = (seps.length + ((rest.rdropWhile isSpace).takeWhile isSeparator).length = 2
          || 4 ≤ seps.length
            + ((rest.rdropWhile isSpace).takeWhile isSeparator).length) := by
    have hsplit : scheme ++ ':' :: (seps ++ rest) = (scheme ++ [':']) ++ (seps ++ rest) := by
      rw [List.append_assoc, List.singleton_append]
    rw [hsplit, stripChars_append _ hspaces hsolid (by simp),
      rdropWhile_append (isSpace_of_forall_separator hseps), List.append_assoc,
      List.singleton_append, isNetworkValue_file hfile, takeWhile_separators hseps]
  rw [hverdict hseps, hverdict hseps', hlength]

/-- With less than two separators in front every spelling has one verdict. -/
theorem isNetworkValue_respelled {cs cs' : List Char} (h : Respelled cs cs')
    (hfew : ((stripChars cs).takeWhile isSeparator).length < 2) :
    isNetworkValue (stripChars cs') = isNetworkValue (stripChars cs) := by
  cases h with
  | @front spaces seps seps' rest hspaces hseps hseps' hlength =>
      cases seps with
      | nil => rw [List.length_eq_zero_iff.mp hlength]
      | cons c seps =>
          obtain ⟨c', seps', rfl⟩ := List.exists_cons_of_length_eq_add_one hlength
          have hstrip := stripChars_append rest hspaces
            (isSpace_of_forall_separator hseps) (List.cons_ne_nil c seps)
          have hstrip' := stripChars_append rest hspaces
            (isSpace_of_forall_separator hseps') (List.cons_ne_nil c' seps')
          rw [hstrip, takeWhile_separators hseps, List.length_cons] at hfew
          -- there is one separator, and what follows it is none
          obtain rfl : seps = [] := List.length_eq_zero_iff.mp (by omega)
          obtain rfl : seps' = [] := List.length_eq_zero_iff.mp (by
            rw [List.length_cons, List.length_cons] at hlength
            omega)
          have hnone {d : Char} (hd : isSeparator d = true) :
              ¬ (rest.rdropWhile isSpace).head? = some d := by
            intro hhead
            obtain ⟨ds, hds⟩ := List.head?_eq_some_iff.mp hhead
            rw [hds, List.takeWhile_cons_of_pos hd, List.length_cons] at hfew
            omega
          have hc : isSeparator c = true := hseps c (List.mem_singleton_self c)
          have hc' : isSeparator c' = true := hseps' c' (List.mem_singleton_self c')
          rw [hstrip, hstrip', List.singleton_append, List.singleton_append,
            isNetworkValue_separator hc, isNetworkValue_separator hc',
            decide_eq_false (hnone hc), decide_eq_false (hnone hc')]
  | file rest hspaces hfile hseps hseps' hlength =>
      exact isNetworkValue_file_respelled rest hspaces hfile hseps hseps' hlength

/-- The other separator. -/
def otherSeparator (c : Char) : Char := if c = '/' then '\\' else '/'

theorem otherSeparator_facts {c : Char} (h : isSeparator c = true) :
    isSeparator (otherSeparator c) = true ∧ otherSeparator c ≠ c := by
  rcases separator_cases h with rfl | rfl
  · decide
  · decide

/-- A value with two separators in front. -/
theorem two_separators {value : List Char}
    (h : 2 ≤ (value.takeWhile isSeparator).length) : ∃ a b rest,
      value = a :: b :: rest ∧ isSeparator a = true ∧ isSeparator b = true := by
  obtain ⟨a, seps, hseps⟩ := List.exists_cons_of_length_pos (Nat.lt_of_lt_of_le (by decide) h)
  rw [hseps, List.length_cons] at h
  obtain ⟨b, seps, rfl⟩ := List.exists_cons_of_length_pos (Nat.lt_of_succ_lt_succ h)
  have hall : ∀ c ∈ a :: b :: seps, isSeparator c = true := fun c hc =>
    List.mem_takeWhile_imp (hseps ▸ hc)
  refine ⟨a, b, seps ++ value.dropWhile isSeparator, ?_, hall a (by simp), hall b (by simp)⟩
  rw [← List.cons_append, ← List.cons_append, ← hseps, List.takeWhile_append_dropWhile]

/-- Of two separators in front one can be exchanged. -/
theorem exists_respelled {cs : List Char}
    (hmany : 2 ≤ ((stripChars cs).takeWhile isSeparator).length) :
    ∃ cs', Respelled cs cs'
      ∧ isNetworkValue (stripChars cs') ≠ isNetworkValue (stripChars cs) := by
  obtain ⟨spaces, behind, hspaces, hcs⟩ := exists_spaces cs
  obtain ⟨a, b, rest, hvalue, ha, hb⟩ := two_separators hmany
  rw [hvalue] at hcs ⊢
  -- the second separator becomes like the first, or unlike it
  obtain ⟨b', hb', hexchanged⟩ : ∃ b', isSeparator b' = true ∧ (b' = a ↔ ¬ b = a) := by
    by_cases heq : b = a
    · obtain ⟨hother, hne⟩ := otherSeparator_facts ha
      exact ⟨otherSeparator a, hother, iff_of_false hne (not_not.mpr heq)⟩
    · exact ⟨a, ha, iff_of_true rfl heq⟩
  have hpair {d : Char} (hd : isSeparator d = true) :
      ∀ c ∈ [a, d], isSeparator c = true :=
    List.forall_mem_cons.mpr ⟨ha, List.forall_mem_singleton.mpr hd⟩
  refine ⟨spaces ++ ([a, b'] ++ (rest ++ behind)), ?_, ?_⟩
  · rw [hcs]
    exact .front (rest ++ behind) hspaces (hpair hb) (hpair hb') rfl
  · rw [stripChars_append _ hspaces (isSpace_of_forall_separator (hpair hb'))
      (List.cons_ne_nil a [b']), List.cons_append,
      isNetworkValue_separator ha, isNetworkValue_separator ha, List.cons_append,
      List.head?_cons, List.head?_cons, ne_eq, decide_eq_decide, Option.some_inj,
      Option.some_inj, hexchanged]
    exact not_iff_self

/-- The verdict depends on the spelling exactly for the targets with two
separators or more in front. -/
theorem oneVerdict_iff (target : String) :
    OneVerdict target ↔ leadingSeparators target < 2 := by
  constructor
  · intro hone
    by_contra hmany
    obtain ⟨cs', hrespelled, hne⟩ := exists_respelled (Nat.le_of_not_lt hmany)
    have hsame := hone (String.ofList cs') (by rwa [String.toList_ofList])
    rw [isNetworkTarget, isNetworkTarget, String.toList_ofList] at hsame
    exact hne hsame
  · exact fun hfew target' hrespelled => isNetworkValue_respelled hrespelled hfew

-- ------------------------------------------------------ a mixed spelling

/-- `\\server` is a network target, `/\server` is not. -/
theorem not_oneVerdict_server : ¬ OneVerdict "\\\\server\\share\\template.dotx" := by
  intro hone
  have hrespelled : Respelled "\\\\server\\share\\template.dotx".toList
      "/\\server\\share\\template.dotx".toList :=
    @Respelled.front [] ['\\'] ['/'] "\\server\\share\\template.dotx".toList
      (by decide) (by decide) (by decide) rfl
  exact absurd (hone _ hrespelled) (by decide)

end PatentEvidence.Uploads
