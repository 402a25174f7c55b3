/-!
# Rows of a text

A text falls into rows at each line feed. A carriage return directly before the line feed belongs to
the row's end and not to its content; anywhere else it is an ordinary character. An end of row at
the end of the text opens no further row.

Both the terminal summary and the snippets of formulas cut their text with `Text.rows`.
-/

namespace NaturalDeduction.Text

/-- One row of a text: what it holds, and the line end that closes it, empty for a last row that is
closed by the end of the text. -/
structure Row where
  content : List Char
  ending : List Char
deriving Repr, DecidableEq

/-- The rows of a text, in order. -/
def rows : List Char → List Row
  | [] => []
  | '\n' :: rest => ⟨[], ['\n']⟩ :: rows rest
  | '\r' :: '\n' :: rest => ⟨[], ['\r', '\n']⟩ :: rows rest
  | c :: rest =>
    match rows rest with
    | [] => [⟨[c], []⟩]
    | first :: others => { first with content := c :: first.content } :: others

/-- Nothing is lost: the rows, put end to end, are the text. -/
theorem flatMap_rows (s : List Char) : ((rows s).flatMap fun r => r.content ++ r.ending) = s := by
  fun_induction rows s with
  | case1 => rfl
  | case2 rest ih => simp [ih]
  | case3 rest ih => simp [ih]
  | case4 c rest _ _ h ih => simp_all
  | case5 c rest _ _ first others h ih => simp_all

/-- The contents of the rows. -/
def rowTexts (text : String) : List String :=
  (rows text.toList).map fun row => String.ofList row.content

end NaturalDeduction.Text
