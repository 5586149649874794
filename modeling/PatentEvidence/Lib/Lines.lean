/-
Texts as lines.

`splitlines` cuts a text at the line boundaries of the language, which are
more than the newline; a carriage return and a newline are one boundary.
What ends with a newline is cut on its own (`splitlinesFrom_newline`), so a
text put together of ended lines is cut into what each of them is cut into
(`splitlines_unlines`), and those without a boundary are read back.

The pieces of a line between two separators are of the line and have no
separator (`piece_facts`).
-/
import PatentEvidence.Lib.Text

namespace PatentEvidence.Lines

open Text

abbrev Line := List Char

/-- The lines of what follows the beginning `line` of one. -/
def splitlinesFrom (line : Line) : List Char → List Line
  | [] => if line = [] then [] else [line]
  | '\r' :: '\n' :: cs => line :: splitlinesFrom [] cs
  | c :: cs =>
      if isLineBreak c then line :: splitlinesFrom [] cs
      else splitlinesFrom (line ++ [c]) cs

/-- `text.splitlines()`. -/
def splitlines (text : List Char) : List Line := splitlinesFrom [] text

/-- Lines with a newline behind each. -/
def unlines (lines : List Line) : List Char := lines.flatMap (· ++ ['\n'])

/-- What ended lines are cut into. -/
def physical (lines : List Line) : List Line :=
  lines.flatMap fun line => splitlines (line ++ ['\n'])

/-- Without a line boundary. -/
def Unbroken (line : Line) : Prop := ∀ c ∈ line, isLineBreak c = false

instance (line : Line) : Decidable (Unbroken line) :=
  inferInstanceAs (Decidable (∀ c ∈ line, isLineBreak c = false))

-- ================================================================ cutting

/-- One character, unless it and the next are one boundary. -/
theorem splitlinesFrom_cons (line : Line) {c : Char} {cs : List Char}
    (h : c = '\r' → cs.head? ≠ some '\n') : splitlinesFrom line (c :: cs)
      = if isLineBreak c then line :: splitlinesFrom [] cs
        else splitlinesFrom (line ++ [c]) cs := by
  rw [splitlinesFrom]
  rintro ds rfl rfl
  exact h rfl rfl

theorem splitlinesFrom_cons_of_not_break (line : Line) {c : Char} {cs : List Char}
    (h : isLineBreak c = false) :
    splitlinesFrom line (c :: cs) = splitlinesFrom (line ++ [c]) cs := by
  have hc : c ≠ '\r' := fun heq => by
    rw [heq] at h
    exact absurd h (by decide)
  rw [splitlinesFrom_cons line fun heq => absurd heq hc, h,
    if_neg Bool.false_ne_true]

/-- A newline ends what is in front of it. -/
theorem splitlinesFrom_newline (line text rest : List Char) :
    splitlinesFrom line (text ++ '\n' :: rest)
      = splitlinesFrom line (text ++ ['\n']) ++ splitlines rest := by
  fun_induction splitlinesFrom line text with
  | case1 => rfl
  | case2 line hne => rfl
  | case3 line cs ih => exact congrArg (line :: ·) ih
  | case4 line c cs hpair hbreak ih =>
      cases cs with
      | nil =>
          by_cases hc : c = '\r'
          · -- a carriage return at the end goes with the newline
            rw [hc]
            rfl
          · rw [List.singleton_append, List.singleton_append,
              splitlinesFrom_cons line fun heq => absurd heq hc,
              splitlinesFrom_cons line fun heq => absurd heq hc, if_pos hbreak,
              if_pos hbreak]
            rfl
      | cons d ds =>
          have hhead (more : List Char) :
              c = '\r' → (d :: ds ++ more).head? ≠ some '\n' := by
            rintro rfl h
            exact hpair ds rfl (congrArg (· :: ds) (Option.some.inj h))
          have hleft := splitlinesFrom_cons line (hhead ('\n' :: rest))
          have hright := splitlinesFrom_cons line (hhead ['\n'])
          rw [if_pos hbreak] at hleft hright
          exact hleft.trans ((congrArg (line :: ·) ih).trans
            (congrArg (· ++ splitlines rest) hright.symm))
  | case5 line c cs hpair hbreak ih =>
      have hbreak := eq_false_of_ne_true hbreak
      rw [List.cons_append, List.cons_append,
        splitlinesFrom_cons_of_not_break line hbreak, splitlinesFrom_cons_of_not_break line hbreak]
      exact ih

theorem physical_append (lines lines' : List Line) :
    physical (lines ++ lines') = physical lines ++ physical lines' :=
  List.flatMap_append

/-- Ended lines are cut one by one. -/
theorem splitlines_unlines (lines : List Line) :
    splitlines (unlines lines) = physical lines := by
  induction lines with
  | nil => rfl
  | cons line lines ih =>
      rw [unlines, List.flatMap_cons, List.append_assoc, List.singleton_append,
        splitlines, splitlinesFrom_newline]
      exact congrArg _ ih

theorem splitlinesFrom_of_unbroken (line : Line) {cs : List Char} (h : Unbroken cs) :
    splitlinesFrom line (cs ++ ['\n']) = [line ++ cs] := by
  induction cs generalizing line with
  | nil => rw [List.append_nil]; rfl
  | cons c cs ih =>
      obtain ⟨hc, hcs⟩ := List.forall_mem_cons.mp h
      rw [List.cons_append, splitlinesFrom_cons_of_not_break line hc, ih _ hcs,
        List.append_assoc, List.singleton_append]

/-- A line without a boundary is read back. -/
theorem splitlines_of_unbroken {line : Line} (h : Unbroken line) :
    splitlines (line ++ ['\n']) = [line] :=
  splitlinesFrom_of_unbroken [] h

theorem physical_of_unbroken {lines : List Line} (h : ∀ line ∈ lines, Unbroken line) :
    physical lines = lines := by
  induction lines with
  | nil => rfl
  | cons line lines ih =>
      obtain ⟨hline, hlines⟩ := List.forall_mem_cons.mp h
      rw [physical, List.flatMap_cons, splitlines_of_unbroken hline]
      exact congrArg (line :: ·) (ih hlines)

theorem unbroken_of_mem_splitlinesFrom {line : Line} {text : List Char}
    (hline : Unbroken line) {l : Line} (h : l ∈ splitlinesFrom line text) :
    Unbroken l := by
  fun_induction splitlinesFrom line text with
  | case1 => cases h
  | case2 line hne =>
      rw [List.mem_singleton.mp h]
      exact hline
  | case3 line cs ih =>
      rcases List.mem_cons.mp h with rfl | h
      · exact hline
      · exact ih (List.forall_mem_nil _) h
  | case4 line c cs hpair hbreak ih =>
      rcases List.mem_cons.mp h with rfl | h
      · exact hline
      · exact ih (List.forall_mem_nil _) h
  | case5 line c cs hpair hbreak ih =>
      refine ih (fun d hd => ?_) h
      rcases List.mem_append.mp hd with hd | hd
      · exact hline d hd
      · rw [List.mem_singleton.mp hd]
        exact eq_false_of_ne_true hbreak

/-- No line has a boundary in it. -/
theorem unbroken_of_mem_splitlines {text : List Char} {line : Line}
    (h : line ∈ splitlines text) : Unbroken line :=
  unbroken_of_mem_splitlinesFrom (List.forall_mem_nil _) h

-- ================================================================= pieces

/-- The pieces between separators are of the text and have none. -/
theorem piece_facts {α : Type _} [BEq α] [LawfulBEq α] {sep : α}
    {cs piece : List α} (h : piece ∈ cs.splitOn sep) : sep ∉ piece ∧ piece ⊆ cs := by
  induction cs generalizing piece with
  | nil =>
      rw [List.splitOn_nil, List.mem_singleton] at h
      rw [h]
      exact ⟨List.not_mem_nil, List.Subset.refl _⟩
  | cons c cs ih =>
      rw [List.splitOn_cons_eq_if_modifyHead] at h
      split at h
      · rcases List.mem_cons.mp h with rfl | h
        · exact ⟨List.not_mem_nil, List.nil_subset _⟩
        · exact ⟨(ih h).1, List.subset_cons_of_subset c (ih h).2⟩
      · next hc =>
          obtain ⟨first, others, hsplit⟩ :=
            List.exists_cons_of_ne_nil (List.splitOn_ne_nil sep cs)
          rw [hsplit] at h ih
          rcases List.mem_cons.mp h with rfl | h
          · obtain ⟨hno, hsub⟩ := ih (List.mem_cons_self ..)
            refine ⟨fun hmem => ?_, List.cons_subset_cons c hsub⟩
            rcases List.mem_cons.mp hmem with heq | hmem
            · exact hc (beq_iff_eq.mpr heq.symm)
            · exact hno hmem
          · obtain ⟨hno, hsub⟩ := ih (List.mem_cons_of_mem _ h)
            exact ⟨hno, List.subset_cons_of_subset c hsub⟩

theorem unbroken_join {separator : String} {parts : List String}
    (hseparator : Unbroken separator.toList)
    (h : ∀ part ∈ parts, Unbroken part.toList) :
    Unbroken (join separator parts).toList := by
  induction parts with
  | nil => exact List.forall_mem_nil _
  | cons part parts ih =>
      obtain ⟨hpart, hparts⟩ := List.forall_mem_cons.mp h
      by_cases hnil : parts = []
      · rw [hnil, join, String.intercalate_singleton]
        exact hpart
      · rw [join, String.intercalate_cons_of_ne_nil hnil, String.toList_append,
          String.toList_append]
        exact List.forall_mem_append.mpr
          ⟨List.forall_mem_append.mpr ⟨hpart, hseparator⟩, ih hparts⟩

end PatentEvidence.Lines
