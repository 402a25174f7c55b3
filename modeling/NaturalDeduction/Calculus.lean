/-!
# The two calculi

A problem is set either in propositional logic or in predicate logic. The calculus decides which
formulas can be written and which rules can be used.
-/

namespace NaturalDeduction

/-- The logic that a problem is set in. -/
inductive Calculus where
  /-- Sentence letters and connectives. -/
  | propositional
  /-- Predicates applied to names, and quantifiers. -/
  | predicate
deriving DecidableEq, Repr

namespace Calculus

/-- The name that assignments use. -/
def name : Calculus → String
  | propositional => "propositional"
  | predicate => "predicate"

/-- The calculus with a given name, spelled exactly so. -/
def ofName? (name : String) : Option Calculus :=
  [propositional, predicate].find? fun calculus => calculus.name = name

/-- Whether formulas may have quantifiers and argument lists, and proofs the quantifier rules. -/
def hasQuantifiers : Calculus → Bool
  | propositional => false
  | predicate => true

end Calculus

end NaturalDeduction
