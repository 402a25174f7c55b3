/-!
# Formulas

First-order formulas over names, without function symbols and without identity. A sentence letter is
an atom without arguments, so the formulas of propositional logic are those without quantifiers and
without argument lists.

Names are not divided into variables and constants: a name is a variable where a quantifier binds
it, and stands for an individual everywhere else.

## Main definitions

* `Connective`, `Quantifier`, `Formula`
* `Formula.freeNames`: the names that occur free
* `Formula.reorders`: equality up to the order of the operands of `∧` and of `∨`
-/

namespace NaturalDeduction

/-- The name of a predicate, a variable or an individual. -/
abbrev Name := String

/-- The connectives that join two formulas. -/
inductive Connective where
  | and
  | or
  | implies
  | iff
deriving DecidableEq, Hashable, Repr

/-- The two quantifiers. -/
inductive Quantifier where
  | forAll
  | forSome
deriving DecidableEq, Hashable, Repr

/-- A formula. Syntactic identity of formulas is equality of trees; bound variables are not
renamed. -/
inductive Formula where
  /-- A sentence letter `P`, or a predicate applied to names `P(a, x)`. -/
  | atom (name : Name) (args : List Name)
  | not (inner : Formula)
  | binary (connective : Connective) (left right : Formula)
  | quantified (quantifier : Quantifier) (bound : Name) (body : Formula)
  /-- The contradiction `⊥`. -/
  | bottom
  /-- The tautology `⊤`. -/
  | top
deriving DecidableEq, Repr

namespace Connective

/-- Whether exchanging the operands is overlooked when conclusions are compared. -/
def overlooksOrder : Connective → Bool
  | and | or => true
  | implies | iff => false

end Connective

namespace Formula

/-- A conjunction. -/
@[match_pattern] abbrev and (left right : Formula) : Formula := binary .and left right

/-- A disjunction. -/
@[match_pattern] abbrev or (left right : Formula) : Formula := binary .or left right

/-- An implication. -/
@[match_pattern] abbrev implies (left right : Formula) : Formula := binary .implies left right

/-- A biconditional. -/
@[match_pattern] abbrev iff (left right : Formula) : Formula := binary .iff left right

/-- A universal quantification. -/
@[match_pattern] abbrev forAll (x : Name) (body : Formula) : Formula := quantified .forAll x body

/-- An existential quantification. -/
@[match_pattern] abbrev forSome (x : Name) (body : Formula) : Formula := quantified .forSome x body

/-! ### Free names -/

/-- The names that occur free in argument positions, in order of occurrence, when the variables in
`bound` are bound from outside. -/
def freeNamesUnder (bound : List Name) : Formula → List Name
  | atom _ args => args.filter fun name => !bound.contains name
  | not inner => freeNamesUnder bound inner
  | binary _ left right => freeNamesUnder bound left ++ freeNamesUnder bound right
  | quantified _ x body => freeNamesUnder (x :: bound) body
  | bottom | top => []

/-- The names that occur free in a formula, in order of occurrence and as often as they occur. -/
def freeNames (φ : Formula) : List Name := freeNamesUnder [] φ

/-- The free names once each, in the order of their code points. -/
def sortedFreeNames (φ : Formula) : List Name :=
  φ.freeNames.eraseDups.mergeSort fun a b => a ≤ b

/-! ### Equality up to the order of operands -/

/-- Whether two formulas differ at most in the order of the operands of `∧` and of `∨`, at any
depth. -/
def reorders : Formula → Formula → Bool
  | not φ, not ψ => reorders φ ψ
  | binary c l r, binary c' l' r' =>
    c = c' &&
      ((reorders l l' && reorders r r') || (c.overlooksOrder && reorders l r' && reorders r l'))
  | quantified q x φ, quantified q' x' φ' => q = q' && x = x' && reorders φ φ'
  | φ, ψ => φ = ψ

theorem reorders_refl (φ : Formula) : reorders φ φ = true := by
  induction φ with
  | atom | bottom | top => simp [reorders]
  | not φ ih => simp [reorders, ih]
  | binary c l r ihl ihr => simp [reorders, ihl, ihr]
  | quantified q x φ ih => simp [reorders, ih]

end Formula

end NaturalDeduction
