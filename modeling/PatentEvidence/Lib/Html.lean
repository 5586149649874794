/-
Markup, and the text that is read back from it.

A reader goes through a document character by character: a tag runs from
`<` to `>`, a character reference from `&` to `;`, and every other
character stands for itself. What it has read is a `Chunk`: the text before
the first tag, and one `Cell` for each tag with the text behind it. The
reader ends every chunk as it began it, outside of tags and references, so
what two documents are read as determines what their concatenation is read
as (`read_append`), and a template is read piece by piece.

`escape` is what makes text safe: whatever the text is, escaped it is read
back as itself and opens no tag (`read_escape`).

A reader interested in some tags sees their cells only (`Shows`); a template
shows what its pieces show, where each of them ends outside of those tags.

# Sections

- chunks;
- the reader;
- escaped text;
- content;
- lists of rows.
-/
import Mathlib.Data.List.Forall2
import PatentEvidence.Lib.Text

namespace PatentEvidence.Html

-- =============================================================== chunks

/-- A tag, as it stands between `<` and `>`, and the text behind it. -/
structure Cell where
  tag : String
  text : String
  deriving DecidableEq

/-- The text before the first tag, and the tags. -/
structure Chunk where
  lead : String
  cells : List Cell
  deriving DecidableEq

/-- A chunk goes on in the text of its last cell. -/
def glue (text : String) : List Cell → Chunk → Chunk
  | [], y => ⟨text ++ y.lead, y.cells⟩
  | c :: cs, y =>
      let rest := glue c.text cs y
      ⟨text, ⟨c.tag, rest.lead⟩ :: rest.cells⟩

def Chunk.append (x y : Chunk) : Chunk := glue x.lead x.cells y

/-- Text alone. -/
def Chunk.ofText (text : String) : Chunk := ⟨text, []⟩

theorem glue_text (front text : String) (cells : List Cell) (y : Chunk) :
    glue (front ++ text) cells y
      = ⟨front ++ (glue text cells y).lead, (glue text cells y).cells⟩ := by
  cases cells with
  | nil => simp [glue, String.append_assoc]
  | cons c cs => rfl

theorem glue_of_lead (text : String) (cells : List Cell) {y : Chunk}
    (h : y.lead = "") : glue text cells y = ⟨text, cells ++ y.cells⟩ := by
  induction cells generalizing text with
  | nil => simp [glue, h]
  | cons c cs ih => simp [glue, ih]

/-- Where the second begins with a tag, the cells are put together. -/
theorem Chunk.append_of_lead (x : Chunk) {y : Chunk} (h : y.lead = "") :
    x.append y = ⟨x.lead, x.cells ++ y.cells⟩ :=
  glue_of_lead x.lead x.cells h

-- =========================================================== the reader

/-- Where the reader is. -/
inductive Mode
  | text
  | tag (read : List Char)
  | reference (read : List Char)

/-- The references an escape writes. -/
def references : List (List Char × Char) :=
  [("amp".toList, '&'), ("lt".toList, '<'), ("gt".toList, '>'),
    ("quot".toList, '"'), ("#x27".toList, '\x27')]

/-- One more character before a chunk. -/
def Chunk.push (c : Char) (x : Chunk) : Chunk :=
  ⟨String.singleton c ++ x.lead, x.cells⟩

/-- A tag before a chunk. -/
def Chunk.open (tag : List Char) (x : Chunk) : Chunk :=
  ⟨"", ⟨String.ofList tag, x.lead⟩ :: x.cells⟩

def readFrom : Mode → List Char → Option Chunk
  | .text, [] => some ⟨"", []⟩
  | .text, c :: cs =>
      if c = '<' then readFrom (.tag []) cs
      else if c = '&' then readFrom (.reference []) cs
      else (readFrom .text cs).map (Chunk.push c)
  | .tag _, [] => none
  | .tag read, c :: cs =>
      if c = '>' then (readFrom .text cs).map (Chunk.open read)
      else readFrom (.tag (read ++ [c])) cs
  | .reference _, [] => none
  | .reference read, c :: cs =>
      if c = ';' then do
        let char ← references.lookup read
        (readFrom .text cs).map (Chunk.push char)
      else readFrom (.reference (read ++ [c])) cs

/-- What a document is read as, unless it ends in a tag. -/
def read (html : String) : Option Chunk := readFrom .text html.toList

theorem push_append (c : Char) (x y : Chunk) :
    (x.push c).append y = (x.append y).push c := by
  unfold Chunk.append Chunk.push
  exact glue_text ..

theorem open_append (tag : List Char) (x y : Chunk) :
    (x.open tag).append y = (x.append y).open tag := rfl

theorem readFrom_append {mode : Mode} {cs ds : List Char} {x y : Chunk}
    (hx : readFrom mode cs = some x) (hy : readFrom .text ds = some y) :
    readFrom mode (cs ++ ds) = some (x.append y) := by
  induction cs generalizing mode x with
  | nil =>
      cases mode with
      | text =>
          cases hx
          simpa [Chunk.append, glue] using hy
      | tag read => cases hx
      | reference read => cases hx
  | cons c cs ih =>
      cases mode with
      | text =>
          rw [List.cons_append]
          unfold readFrom at hx ⊢
          by_cases hlt : c = '<'
          · rw [if_pos hlt] at hx ⊢
            exact ih hx
          · by_cases hamp : c = '&'
            · rw [if_neg hlt, if_pos hamp] at hx ⊢
              exact ih hx
            · rw [if_neg hlt, if_neg hamp] at hx ⊢
              obtain ⟨z, hz, rfl⟩ := Option.map_eq_some_iff.mp hx
              rw [ih hz, push_append, Option.map_some]
      | tag read =>
          rw [List.cons_append]
          unfold readFrom at hx ⊢
          by_cases hgt : c = '>'
          · rw [if_pos hgt] at hx ⊢
            obtain ⟨z, hz, rfl⟩ := Option.map_eq_some_iff.mp hx
            rw [ih hz, open_append, Option.map_some]
          · rw [if_neg hgt] at hx ⊢
            exact ih hx
      | reference read =>
          rw [List.cons_append]
          unfold readFrom at hx ⊢
          by_cases hsemicolon : c = ';'
          · rw [if_pos hsemicolon] at hx ⊢
            obtain ⟨char, hchar, hx⟩ := Option.bind_eq_some_iff.mp hx
            obtain ⟨z, hz, rfl⟩ := Option.map_eq_some_iff.mp hx
            rw [hchar]
            show (readFrom .text (cs ++ ds)).map (Chunk.push char) = _
            rw [ih hz, push_append, Option.map_some]
          · rw [if_neg hsemicolon] at hx ⊢
            exact ih hx

/-- A template is read piece by piece. -/
theorem read_append {a b : String} {x y : Chunk} (ha : read a = some x)
    (hb : read b = some y) : read (a ++ b) = some (x.append y) := by
  unfold read
  rw [String.toList_append]
  exact readFrom_append ha hb

-- ========================================================= escaped text

/-- A character of `escape(s)`. -/
def escapeChar (c : Char) : List Char :=
  if c = '&' then "&amp;".toList
  else if c = '<' then "&lt;".toList
  else if c = '>' then "&gt;".toList
  else if c = '"' then "&quot;".toList
  else if c = '\x27' then "&#x27;".toList
  else [c]

/-- `html.escape`. -/
def escape (s : String) : String := String.ofList (s.toList.flatMap escapeChar)

/-- An escaped character is read back as the character. -/
theorem readFrom_escapeChar (c : Char) (cs : List Char) :
    readFrom .text (escapeChar c ++ cs)
      = (readFrom .text cs).map (Chunk.push c) := by
  unfold escapeChar
  by_cases hamp : c = '&'
  · subst hamp
    rfl
  by_cases hlt : c = '<'
  · subst hlt
    rfl
  by_cases hgt : c = '>'
  · subst hgt
    rfl
  by_cases hquot : c = '"'
  · subst hquot
    rfl
  by_cases hapostrophe : c = '\x27'
  · subst hapostrophe
    rfl
  rw [if_neg hamp, if_neg hlt, if_neg hgt, if_neg hquot, if_neg hapostrophe,
    List.singleton_append, readFrom, if_neg hlt, if_neg hamp]

/-- Whatever a text is, escaped it is read back as itself. -/
theorem read_escape (s : String) : read (escape s) = some (.ofText s) := by
  have hchars (cs : List Char) : readFrom .text (cs.flatMap escapeChar)
      = some (.ofText (String.ofList cs)) := by
    induction cs with
    | nil => rfl
    | cons c cs ih =>
        rw [List.flatMap_cons, readFrom_escapeChar, ih, Option.map_some]
        unfold Chunk.push Chunk.ofText
        rw [String.ofList_cons]
  unfold read escape
  rw [String.toList_ofList, hchars, String.ofList_toList]

-- ============================================================== content

section Content

variable {keep : String → Bool} {html text : String} {cells : List Cell}

/-- The cells of some tags. -/
def kept (keep : String → Bool) (cells : List Cell) : List Cell :=
  cells.filter fun c => keep c.tag

/-- The last tag is none of them: the text that follows is not theirs. -/
def Outside (keep : String → Bool) (cells : List Cell) : Prop :=
  ∀ c ∈ cells.getLast?, keep c.tag = false

instance : Decidable (Outside keep cells) :=
  inferInstanceAs (Decidable (∀ c ∈ cells.getLast?, keep c.tag = false))

/-- A document shows these cells of the tags, and ends outside of them. -/
def Shows (keep : String → Bool) (html : String) (cells : List Cell) : Prop :=
  ∃ x ∈ read html, kept keep x.cells = cells ∧ Outside keep x.cells

/-- One that begins with a tag. -/
def Closes (keep : String → Bool) (html : String) (cells : List Cell) : Prop :=
  ∃ x ∈ read html, x.lead = "" ∧ x.cells ≠ [] ∧ kept keep x.cells = cells
    ∧ Outside keep x.cells

/-- Text alone. -/
def Plain (html text : String) : Prop := read html = some (.ofText text)

-- a fixed piece of a template is read from its characters

theorem shows_ofList {cs : List Char}
    (h : ∃ x ∈ readFrom .text cs, kept keep x.cells = cells
      ∧ Outside keep x.cells) :
    Shows keep (String.ofList cs) cells := by
  unfold Shows read
  rwa [String.toList_ofList]

theorem closes_ofList {cs : List Char}
    (h : ∃ x ∈ readFrom .text cs, x.lead = "" ∧ x.cells ≠ []
      ∧ kept keep x.cells = cells ∧ Outside keep x.cells) :
    Closes keep (String.ofList cs) cells := by
  unfold Closes read
  rwa [String.toList_ofList]

theorem read_ofList {cs : List Char} {x : Chunk}
    (h : readFrom .text cs = some x) : read (String.ofList cs) = some x := by
  unfold read
  rwa [String.toList_ofList]

theorem Closes.shows (h : Closes keep html cells) : Shows keep html cells := by
  obtain ⟨x, hread, -, -, hshows⟩ := h
  exact ⟨x, hread, hshows⟩

theorem Plain.shows (h : Plain html text) : Shows keep html [] :=
  ⟨.ofText text, h, rfl, fun c hc => by cases hc⟩

/-- Text without the two characters that begin something else. -/
theorem plain_ofList {cs : List Char}
    (h : (cs.all fun c => c ≠ '<' && c ≠ '&') = true) :
    Plain (String.ofList cs) (String.ofList cs) := by
  unfold Plain read
  rw [String.toList_ofList]
  induction cs with
  | nil => rfl
  | cons c cs ih =>
      rw [List.all_cons, Bool.and_eq_true, Bool.and_eq_true] at h
      rw [readFrom, if_neg (of_decide_eq_true h.1.1),
        if_neg (of_decide_eq_true h.1.2), ih h.2, Option.map_some]
      unfold Chunk.push Chunk.ofText
      rw [String.ofList_cons]

theorem plain_escape (s : String) : Plain (escape s) s := read_escape s

theorem Plain.append {html' text' : String} (h : Plain html text)
    (h' : Plain html' text') : Plain (html ++ html') (text ++ text') :=
  read_append h h'

theorem lead_glue (text : String) (c : Cell) (cs : List Cell) (y : Chunk) :
    (glue text (c :: cs) y).lead = text := rfl

/-- What follows a document outside of the tags adds its own cells. -/
theorem kept_glue {cs : List Cell} (h : Outside keep cs) (text : String)
    (y : Chunk) :
    kept keep (glue text cs y).cells = kept keep cs ++ kept keep y.cells := by
  induction cs generalizing text with
  | nil => rfl
  | cons c cs ih =>
      show kept keep (⟨c.tag, (glue c.text cs y).lead⟩ :: (glue c.text cs y).cells) = _
      unfold kept at ih ⊢
      cases cs with
      | nil =>
          have hout : keep c.tag = false := h c rfl
          simp [glue, hout]
      | cons c' cs' =>
          have hrest : Outside keep (c' :: cs') := by
            intro last hlast
            exact h last (by rwa [List.getLast?_cons_cons])
          rw [lead_glue, List.filter_cons, List.filter_cons, ih hrest c.text]
          split <;> simp

theorem outside_glue {cs : List Cell} (h : Outside keep cs) (text : String)
    {y : Chunk} (hy : Outside keep y.cells) :
    Outside keep (glue text cs y).cells := by
  induction cs generalizing text with
  | nil => exact hy
  | cons c cs ih =>
      intro last hlast
      have hlast' : last ∈ ((⟨c.tag, (glue c.text cs y).lead⟩ : Cell)
          :: (glue c.text cs y).cells).getLast? := hlast
      cases hrest : (glue c.text cs y).cells with
      | nil =>
          rw [hrest] at hlast'
          obtain rfl := Option.some.inj hlast'
          cases cs with
          | nil => exact h c rfl
          | cons c' cs' => cases hrest
      | cons d ds =>
          rw [hrest, List.getLast?_cons_cons, ← hrest] at hlast'
          refine ih ?_ c.text last hlast'
          cases cs with
          | nil => exact fun _ hnone => by cases hnone
          | cons c' cs' =>
              intro last' hlast''
              exact h last' (by rwa [List.getLast?_cons_cons])

/-- Two documents one after another show what each shows. -/
theorem Shows.append {html' : String} {cells' : List Cell}
    (h : Shows keep html cells) (h' : Shows keep html' cells') :
    Shows keep (html ++ html') (cells ++ cells') := by
  obtain ⟨x, hx, rfl, hout⟩ := h
  obtain ⟨y, hy, rfl, hout'⟩ := h'
  exact ⟨x.append y, read_append hx hy, kept_glue hout x.lead y,
    outside_glue hout x.lead hout'⟩

theorem Closes.append {html' : String} {cells' : List Cell}
    (h : Closes keep html cells) (h' : Shows keep html' cells') :
    Closes keep (html ++ html') (cells ++ cells') := by
  obtain ⟨x, hx, hlead, hne, rfl, hout⟩ := h
  obtain ⟨y, hy, rfl, hout'⟩ := h'
  refine ⟨x.append y, read_append hx hy, ?_, ?_, kept_glue hout x.lead y,
    outside_glue hout x.lead hout'⟩
  · obtain ⟨lead, cells⟩ := x
    cases cells with
    | nil => exact absurd rfl hne
    | cons c cs => exact hlead
  · obtain ⟨lead, cells⟩ := x
    cases cells with
    | nil => exact absurd rfl hne
    | cons c cs => exact List.cons_ne_nil _ _

/-- Text put behind an opening tag, up to the next tag, is the text of the
tag's cell. -/
theorem shows_text {front rest lead tag before : String} {opened : List Cell}
    (hfront : read front = some ⟨lead, opened ++ [⟨tag, before⟩]⟩)
    (hkeep : keep tag = true) (htext : Plain html text)
    (hrest : Closes keep rest cells) :
    Shows keep (front ++ (html ++ rest))
      (kept keep opened ++ ⟨tag, before ++ text⟩ :: cells) := by
  obtain ⟨⟨lead', cs⟩, hx, rfl, hne, rfl, hout⟩ := hrest
  have hglue (lead : String) (opened : List Cell) :
      glue lead (opened ++ [⟨tag, before⟩]) ⟨text, cs⟩
        = ⟨lead, opened ++ ⟨tag, before ++ text⟩ :: cs⟩ := by
    induction opened generalizing lead with
    | nil => rfl
    | cons o os ih => simp [glue, ih]
  have hread : read (front ++ (html ++ rest))
      = some ⟨lead, opened ++ ⟨tag, before ++ text⟩ :: cs⟩ := by
    rw [read_append hfront (read_append htext hx), Chunk.append_of_lead (.ofText text) rfl,
      ← hglue]
    rfl
  refine ⟨_, hread, ?_, ?_⟩
  · show kept keep (opened ++ ⟨tag, before ++ text⟩ :: cs) = _
    unfold kept
    rw [List.filter_append, List.filter_cons, if_pos hkeep]
  · intro last hlast
    apply hout last
    have hsplit : opened ++ ⟨tag, before ++ text⟩ :: cs
        = (opened ++ [⟨tag, before ++ text⟩]) ++ cs := by simp
    simp only [hsplit, List.getLast?_append_of_ne_nil _ hne]
      at hlast
    exact hlast

theorem shows_element {front rest lead tag : String} {opened : List Cell}
    (hfront : read front = some ⟨lead, opened ++ [⟨tag, ""⟩]⟩)
    (hkeep : keep tag = true) (htext : Plain html text)
    (hrest : Closes keep rest cells) :
    Shows keep (front ++ (html ++ rest))
      (kept keep opened ++ ⟨tag, text⟩ :: cells) := by
  have h := shows_text hfront hkeep htext hrest
  rwa [String.empty_append] at h

end Content

-- ======================================================== lists of rows

theorem join_cons (part : String) (parts : List String) :
    Text.join "" (part :: parts) = part ++ Text.join "" parts := by
  cases parts with
  | nil => simp [Text.join]
  | cons next rest => simp [Text.join, String.intercalate_cons_cons]

/-- Rows show what they show, one after another. -/
theorem shows_join {α : Type _} {keep : String → Bool} {cells : α → List Cell}
    {l : List α} {rows : List String}
    (h : List.Forall₂ (fun a row => Shows keep row (cells a)) l rows) :
    Shows keep (Text.join "" rows) (l.flatMap cells) := by
  induction h with
  | nil => exact ⟨⟨"", []⟩, rfl, rfl, fun c hc => by cases hc⟩
  | cons hrow _ ih =>
      rw [join_cons, List.flatMap_cons]
      exact hrow.append ih

end PatentEvidence.Html
