/-
The blocks of a Markdown text (modules/reports/markdown_blocks.py).

`parse_blocks` is a loop over the lines of the text; `nextBlock` is one pass
of it, which reads a block, or skips a blank line, and leaves the lines
behind. Lines are lists of characters. Every pattern is matched against a
stripped line, so the white space its pattern allows at the end is not
there. What a block shows is cut into runs by `split_inline`, which the
exporters call on each cell of a table.
-/
import PatentEvidence.Lib.Lines
import PatentEvidence.Lib.Scan

namespace PatentEvidence.Reports

open Text Lines Scan

/-- `Block`, by its kind. -/
inductive Block
  | table (header : List String) (rows : List (List String))
  | heading (level : Nat) (text : String)
  | rule
  | code (lines : List String)
  | bullet (text : String)
  | quote (text : String)
  | paragraph (text : String)
  deriving DecidableEq

-- ================================================================ tables

/-- A text without a bar in front. -/
def afterBar (cs : List Char) : List Char :=
  if cs.head? = some '|' then cs.tail else cs

/-- A text without a bar at the end. -/
def beforeBar (cs : List Char) : List Char :=
  if cs.getLast? = some '|' then cs.dropLast else cs

/-- `_split_table_row`. -/
def splitTableRow (line : Line) : List (List Char) :=
  ((beforeBar (afterBar (stripChars line))).splitOn '|').map stripChars

/-- `\s*:?-+:?\s*` -/
def isSeparatorCell (cell : List Char) : Bool :=
  let cell := stripChars cell
  let cell := if cell.head? = some ':' then cell.tail else cell
  let cell := if cell.getLast? = some ':' then cell.dropLast else cell
  cell ≠ [] && cell.all (· = '-')

/-- `_TABLE_SEPARATOR_RE`: cells between bars, with a bar between two at least,
and perhaps one in front and one behind. -/
def isSeparatorRow (line : Line) : Bool :=
  let cells := line.splitOn '|'
  let cells := if cells.head? = some [] then cells.tail else cells
  let cells := if cells.getLast? = some [] then cells.dropLast else cells
  2 ≤ cells.length && cells.all isSeparatorCell

/-- `_is_table_start`, of a line and what follows it. -/
def isTableStart (line : Line) (rest : List Line) : Bool :=
  '|' ∈ stripChars line
    && rest.head?.any fun next => isSeparatorRow (stripChars next)

/-- A line that goes on with a table. -/
def isTableRow (line : Line) : Bool :=
  '|' ∈ stripChars line && stripChars line ≠ []

/-- The cells of a row, as many as the header has. -/
def tableCells (columns : Nat) (line : Line) : List String :=
  let cells := splitTableRow line
  (List.range columns).map fun col => String.ofList (cells.getD col [])

-- ======================================================== the other blocks

/-- `_HEADING_RE`: the level and the text. -/
def heading? (line : Line) : Option (Nat × List Char) :=
  let level := (line.takeWhile (· = '#')).length
  let rest := line.dropWhile (· = '#')
  if 1 ≤ level ∧ level ≤ 3 ∧ rest.head?.any isSpace then
    some (level, stripChars (rest.dropWhile isSpace))
  else none

/-- `_RULE_RE`. -/
def isRule (line : Line) : Bool := 3 ≤ line.length && line.all (· = '-')

/-- `_FENCE_RE`. -/
def isFence [Alphanumeric] (line : Line) : Bool :=
  ['`', '`', '`'].isPrefixOf line && (line.drop 3).all isWord

/-- `_BULLET_RE`: the text. -/
def bullet? : Line → Option (List Char)
  | '-' :: rest =>
      if rest.head?.any isSpace then some (rest.dropWhile isSpace) else none
  | _ => none

/-- `_QUOTE_RE`: the text. -/
def quote? : Line → Option (List Char)
  | '>' :: rest => some (if rest.head?.any isSpace then rest.tail else rest)
  | _ => none

/-- The block of a table: its header line and its rows. -/
def tableBlock (line : Line) (rows : List Line) : Block :=
  let header := splitTableRow line
  .table (header.map String.ofList) (rows.map (tableCells header.length))

/-- The block of the lines of a code block, as they are. -/
def codeBlock (lines : List Line) : Block := .code (lines.map String.ofList)

-- ============================================================== the loop

section Parse

variable [Alphanumeric]

def isFenceLine (line : Line) : Bool := isFence (stripChars line)

/-- One pass of the loop: the block it reads, if any, and the lines left. -/
def nextBlock (line : Line) (rest : List Line) : Option Block × List Line :=
  if stripChars line = [] then (none, rest)
  else if isTableStart line rest then
    -- behind the header and the separator
    (some (tableBlock line (rest.tail.takeWhile isTableRow)),
      rest.tail.dropWhile isTableRow)
  else
    match heading? (stripChars line) with
    | some (level, text) =>
        (some (.heading (min level 3) (String.ofList text)), rest)
    | none =>
        if isRule (stripChars line) then (some .rule, rest)
        else if isFenceLine line then
          -- up to the closing fence, or to the end
          (some (codeBlock (rest.takeWhile (!isFenceLine ·))),
            (rest.dropWhile (!isFenceLine ·)).tail)
        else
          match bullet? (stripChars line) with
          | some text => (some (.bullet (String.ofList text)), rest)
          | none =>
              match quote? (stripChars line) with
              | some text => (some (.quote (String.ofList text)), rest)
              | none => (some (.paragraph (String.ofList (stripChars line))), rest)

/-- Each pass leaves fewer lines. -/
theorem length_nextBlock_le (line : Line) (rest : List Line) :
    (nextBlock line rest).2.length ≤ rest.length := by
  have htable : (rest.tail.dropWhile isTableRow).length ≤ rest.length :=
    ((List.dropWhile_suffix _).trans (List.tail_suffix _)).length_le
  have hcode : (rest.dropWhile (!isFenceLine ·)).tail.length ≤ rest.length :=
    ((List.tail_suffix _).trans (List.dropWhile_suffix _)).length_le
  unfold nextBlock
  split
  · exact Nat.le_refl _
  split
  · exact htable
  split
  · exact Nat.le_refl _
  split
  · exact Nat.le_refl _
  split
  · exact hcode
  split
  · exact Nat.le_refl _
  split <;> exact Nat.le_refl _

/-- The loop of `parse_blocks`. -/
def parseLines : List Line → List Block
  | [] => []
  | line :: rest =>
      (nextBlock line rest).1.toList ++ parseLines (nextBlock line rest).2
termination_by lines => lines.length
decreasing_by
  exact Nat.lt_succ_of_le (length_nextBlock_le line rest)

/-- `parse_blocks`. -/
def parseBlocks (markdown : String) : List Block :=
  parseLines (splitlines markdown.toList)

end Parse

-- ============================================================ inline runs

/-- `InlineKind`. -/
inductive InlineKind
  | text
  | bold
  | code
  deriving DecidableEq

/-- A text between two marks, one alternative of `_INLINE_TOKEN_RE`. -/
def afterMarked (mark : String) (cs : List Char) : Option (List Char) :=
  (afterLiteral mark cs).bind (afterLazy mark)

/-- `_INLINE_TOKEN_RE`. -/
def inlineToken : Pattern := fun _ cs =>
  reads (fun cs => (afterMarked "**" cs).or (afterMarked "`" cs)) cs

/-- The run of a piece: what is inside its marks, or the piece. -/
def inlineRun (token : List Char) : InlineKind × List Char :=
  if "**".toList.isPrefixOf token ∧ "**".toList.isSuffixOf token ∧ 4 < token.length then
    (.bold, slice token 2 (token.length - 2))
  else if "`".toList.isPrefixOf token ∧ "`".toList.isSuffixOf token
      ∧ 2 < token.length then
    (.code, slice token 1 (token.length - 1))
  else (.text, token)

/-- `split_inline`. -/
def splitInline (text : String) : List (InlineKind × String) :=
  ((Scan.split inlineToken text.toList).filter (· ≠ [])).map fun token =>
    ((inlineRun token).1, String.ofList (inlineRun token).2)

/-- What the exporters write of a cell: the texts of its runs. -/
def exportedText (cell : String) : String :=
  join "" ((splitInline cell).map Prod.snd)

end PatentEvidence.Reports
