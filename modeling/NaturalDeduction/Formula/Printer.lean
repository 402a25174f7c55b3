import NaturalDeduction.Formula.Basic

/-!
# Writing formulas

The canonical text of a formula uses the mathematical signs, one blank on either side of a
binary connective, and the fewest parentheses that a reader needs who does not know the
precedence of the connectives: every operand that is not an atom, a constant or a negation of
one stands in parentheses, while a negation and a quantifier put them only around what they
would otherwise cut short.

## Main definitions

* `Formula.write`: the canonical text, as characters
* `Formula.render`: the same as a string
-/

namespace NaturalDeduction

/-- The sign of a connective. -/
def Connective.sign : Connective → Char
  | and => '∧'
  | or => '∨'
  | implies => '→'
  | iff => '↔'

/-- The sign of a quantifier. -/
def Quantifier.sign : Quantifier → Char
  | forAll => '∀'
  | forSome => '∃'

namespace Formula

/-- Atoms, constants, and negation chains over them, which stand as operands without parentheses. -/
def isSimple : Formula → Bool
  | atom .. | bottom | top => true
  | not inner => inner.isSimple
  | binary .. | quantified .. => false

/-- Whether the outermost sign is a binary connective. -/
def isBinary : Formula → Bool
  | binary .. => true
  | _ => false

/-- A text, in parentheses if `condition` holds. -/
def parenthesizeIf (condition : Bool) (text : List Char) : List Char :=
  if condition then '(' :: text ++ [')'] else text

/-- The names of an argument list, separated by a comma and a blank. -/
def writeNames : List Name → List Char
  | [] => []
  | [name] => name.toList
  | name :: others => name.toList ++ [',', ' '] ++ writeNames others

/-- The canonical text of a formula. -/
def write : Formula → List Char
  | atom name [] => name.toList
  | atom name args => name.toList ++ '(' :: writeNames args ++ [')']
  | not inner => '¬' :: parenthesizeIf inner.isBinary inner.write
  | binary c left right =>
    parenthesizeIf (!left.isSimple) left.write ++ [' ', c.sign, ' '] ++
      parenthesizeIf (!right.isSimple) right.write
  | quantified q x body => q.sign :: x.toList ++ ' ' :: body.write
  | bottom => ['⊥']
  | top => ['⊤']

/-- The canonical text of a formula. -/
def render (φ : Formula) : String := String.ofList φ.write

end Formula

end NaturalDeduction
