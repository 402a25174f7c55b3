import NaturalDeduction.Formula.Parser
import NaturalDeduction.Text.Columns
import NaturalDeduction.Text.Rows

/-!
# Snippets

The long form of a syntax error shows the text of the formula, row by row, with marks below the
token that the formula cannot go on with:

```
error: could not parse the formula in problem 2, line 4
 --> problem 2, line 4:1:5
  |
1 | A & ) B
  |     ^ expected a formula
  |
```

Rows are numbered from 1 in a gutter as wide as the last number. The place in the second line counts
rows and characters from 1. The marks are placed by terminal columns.

A text that consists of blanks has nothing to show, so all its rows are cut off and three dots stand
in the place of each:

```
1 | ...
  | ^ expected a formula
```

## Implementation notes

The marks of a row that is cut off move to the left by the columns that its blanks would fill on a
terminal. A tab fills four columns, but a place behind it is counted as if it filled none, so the
marks below a row with tabs can run over the border and into the gutter, where the left end of the
line stops them.

A place at the end of the text, behind the line end of the last row, still belongs to that row for
the marks, but to no row for the numbers of the second line, which then reads `1:1`.
-/

namespace NaturalDeduction

/-- A source text with one span of it to be pointed out. Offsets count bytes. -/
structure Snippet where
  title : String
  /-- Where the text comes from. -/
  origin : String
  source : List Char
  start : Nat
  stop : Nat
  /-- What to say about the span. -/
  label : String
deriving DecidableEq, Repr

namespace Snippet

/-- A row of the source in its place. -/
structure PlacedRow where
  /-- Rows are numbered from 1. -/
  number : Nat
  /-- The byte offset of the first character. -/
  start : Nat
  content : List Char
  ending : List Char
deriving DecidableEq, Repr

namespace PlacedRow

/-- The byte offset behind the content. -/
def stop (row : PlacedRow) : Nat := row.start + Text.utf8Length row.content

/-- The byte offset up to which a place counts as lying in the row: the line end is included, and
one byte at least is. -/
def reach (row : PlacedRow) : Nat := row.stop + max (Text.utf8Length row.ending) 1

end PlacedRow

/-- Rows in their places, when the first of them has the given number and offset. -/
def placeRows (number start : Nat) : List Text.Row → List PlacedRow
  | [] => []
  | row :: others =>
    ⟨number, start, row.content, row.ending⟩ ::
      placeRows (number + 1)
        (start + Text.utf8Length row.content + Text.utf8Length row.ending) others

/-- The characters of a text that begin before a byte offset into it. -/
def takeBytes (offset : Nat) : List Char → List Char
  | [] => []
  | c :: rest => if offset = 0 then [] else c :: takeBytes (offset - c.utf8Size) rest

/-- Characters that terminals lay out in ways of their own, and what is shown instead: a tab becomes
four blanks, and joiners and directional marks are left out. -/
def shown (c : Char) : List Char :=
  if c = '\t' then [' ', ' ', ' ', ' ']
  else if Text.inRanges [(0x200D, 0x200D), (0x202A, 0x202E), (0x2066, 0x2069)] c then []
  else [c]

/-- The rows of the source in their places. -/
def placedRows (snippet : Snippet) : List PlacedRow := placeRows 1 0 (Text.rows snippet.source)

/-- The row and column of the span's beginning, both counted from 1. -/
def position (snippet : Snippet) : Nat × Nat :=
  match snippet.placedRows.find? fun row =>
    row.start ≤ snippet.start ∧ snippet.start < row.reach with
  | none => (1, 1)
  | some row => (row.number, 1 + (takeBytes (snippet.start - row.start) row.content).length)

/-- The row that the span is marked under. -/
def markedRow? (snippet : Snippet) : Option PlacedRow :=
  snippet.placedRows.find? fun row => row.start ≤ snippet.start ∧ snippet.stop ≤ row.reach

/-- A text of blanks, line ends included, of which no row is shown. -/
def isBlank (snippet : Snippet) : Bool := snippet.source.all Text.isBlank

/-- The columns that are cut off a row. A blank fills one of them at least, also one that has no
width of its own. -/
def cut (snippet : Snippet) (row : PlacedRow) : Nat :=
  if snippet.isBlank then
    Text.total (fun c => max (Text.columnsOf c) 1) (row.content.flatMap shown)
  else 0

/-- Writes characters into a line, from a column on, over those that stand there. Blanks fill the
line up if it ends before the column. -/
def overwrite (column : Nat) (written line : List Char) : List Char :=
  (line.take column).rightpad column ' ' ++ written ++ line.drop (column + written.length)

/-- The width of the numbers in the gutter. -/
def gutter (snippet : Snippet) : Nat :=
  match snippet.placedRows.getLast? with
  | none => 0
  | some row => (toString row.number).length

/-- A blank gutter and its right border. -/
def border (snippet : Snippet) : String :=
  String.ofList (List.replicate (snippet.gutter + 1) ' ') ++ "|"

/-- The line below a row: the border, the marks from the span's first column to its last, one at
least, and the label behind them with a blank between. -/
def renderMarks (snippet : Snippet) (row : PlacedRow) : String :=
  let left := Text.columns (takeBytes (snippet.start - row.start) row.content)
  let right := max (Text.columns (takeBytes (snippet.stop - row.start) row.content)) (left + 1)
  let margin := snippet.gutter + 3
  let cut := snippet.cut row
  let first := margin + left - cut
  let last := margin + (right - 1) - cut
  String.ofList
    (overwrite first (List.replicate (last - first + 1) '^')
      (overwrite (margin + (right + 1 - cut)) snippet.label.toList snippet.border.toList))

/-- A row with its number in the gutter. -/
def renderRow (snippet : Snippet) (row : PlacedRow) : String :=
  let number := toString row.number
  let content := if snippet.isBlank then ['.', '.', '.'] else row.content.flatMap shown
  String.ofList (List.replicate (snippet.gutter - number.length) ' ') ++ number ++ " |" ++
    if content.isEmpty then "" else " " ++ String.ofList content

/-- The printed lines of a snippet. -/
def lines (snippet : Snippet) : List String :=
  let (row, column) := snippet.position
  let marked := snippet.markedRow?
  ["error: " ++ snippet.title,
    String.ofList (List.replicate snippet.gutter ' ') ++ s!"--> {snippet.origin}:{row}:{column}",
    snippet.border] ++
  (snippet.placedRows.flatMap fun row =>
    if marked = some row then
      [snippet.renderRow row, snippet.renderMarks row]
    else [snippet.renderRow row]) ++
  [snippet.border]

/-- The text of a snippet, without a line end behind it. -/
def render (snippet : Snippet) : String := String.intercalate "\n" snippet.lines

end Snippet

/-- The snippet of a formula that could not be read. -/
def SyntaxError.snippet (error : SyntaxError) (origin text : String) : Snippet where
  title := "could not parse the formula in " ++ origin
  origin := origin
  source := text.toList
  start := error.position
  stop := error.stop
  label := "expected " ++ error.expected.text

end NaturalDeduction
