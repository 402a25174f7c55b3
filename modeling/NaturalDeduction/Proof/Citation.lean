import NaturalDeduction.Text.Blank

/-!
# Citations

A line of a proof cites what it rests on: an earlier line by its number, or a closed subproof by the
numbers of its first and last line, as in `2-4`.

A number is an optional plus sign and one or more ASCII digits, with any blanks around it. Numbers
are machine words of 64 bits: a text of a larger value is no number.

## Main definitions

* `Citation`, `Citation.render`
* `readNumber?`: the value of a number
* `Citation.parse`: the citation that a text writes
-/

namespace NaturalDeduction

/-- A reference to an earlier line, or to a closed subproof by its first and last line. -/
inductive Citation where
  | line (number : Nat)
  | subproof (first last : Nat)
deriving DecidableEq, Repr

/-- The first number that is too large to be written in a citation. -/
def numberBound : Nat := UInt64.size

/-- The value of a run of decimal digits; `none` if there is none, or another character. -/
def digitsValue? (digits : List Char) : Option Nat :=
  if digits ≠ [] ∧ digits.all Char.isDigit then
    some (digits.foldl (fun value d => 10 * value + (d.toNat - '0'.toNat)) 0)
  else none

/-- The value of a number, which blanks may surround and a plus sign precede. -/
def readNumber? (text : List Char) : Option Nat :=
  let digits :=
    match Text.trim text with
    | '+' :: digits => digits
    | digits => digits
  (digitsValue? digits).filter (· < numberBound)

namespace Citation

/-- The canonical text of a citation. -/
def render : Citation → String
  | line n => toString n
  | subproof first last => s!"{first}-{last}"

/-- The citation in a text: a number, or two numbers that do not decrease with a dash
between them. -/
def read? (text : List Char) : Option Citation :=
  match text.dropWhile (· ≠ '-') with
  | [] => (readNumber? text).map line
  | _ :: last =>
    match readNumber? (text.takeWhile (· ≠ '-')), readNumber? last with
    | some first, some last => if first ≤ last then some (subproof first last) else none
    | _, _ => none

end Citation

/-- A text that is no citation. -/
structure CitationError where
  text : String
deriving DecidableEq, Repr

/-- The error in words. -/
def CitationError.message (error : CitationError) : String :=
  s!"`{error.text}` is not a line number or a line range like `2-4`"

/-- The citation that a text writes. -/
def Citation.parse (text : String) : Except CitationError Citation :=
  match Citation.read? text.toList with
  | some citation => .ok citation
  | none => .error ⟨text⟩

end NaturalDeduction
