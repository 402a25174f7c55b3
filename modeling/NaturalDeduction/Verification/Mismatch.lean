import NaturalDeduction.Formula.Basic
import NaturalDeduction.Proof.Citation
import NaturalDeduction.Proof.Rule
import NaturalDeduction.Text.Plural

/-!
# How a line can misapply its rule

The causes, and the words for each. A line is told one cause only, the first in the order in which
its rule looks at things: `Verification.Step` fixes that order.
-/

namespace NaturalDeduction

/-- What the outermost sign of a formula has to be. -/
inductive Shape where
  | conjunction
  | disjunction
  | implication
  | biconditional
  | negation
  | doubleNegation
  | bottom
  | top
  | universal
  | existential
deriving DecidableEq, Repr

/-- The shape in words. -/
def Shape.text : Shape → String
  | conjunction => "a conjunction"
  | disjunction => "a disjunction"
  | implication => "an implication"
  | biconditional => "a biconditional"
  | negation => "a negation"
  | doubleNegation => "a double negation"
  | bottom => "⊥"
  | top => "⊤"
  | universal => "a universal"
  | existential => "an existential"

/-- What has to hold between a conclusion and what it cites. -/
inductive Requirement where
  | conclusionRepeatsLine
  | singleLineIsBothConjuncts
  | linesAreConjuncts
  | conclusionIsConjunct
  | lineIsDisjunct
  | subproofsAssumeDisjuncts
  | subproofsEndInConclusion
  | subproofAssumesAntecedent
  | subproofEndsInConsequent
  | someLineIsImplication
  | otherLineIsAntecedent
  | conclusionIsConsequent
  | subproofAssumesNegated
  | subproofEndsInBottom
  | conclusionDropsNegations
  | linesContradict
  | subproofsDeriveEachOther
  | someLineIsBiconditional
  | conclusionIsOppositeSide
  | lineIsInstance
  | conclusionIsInstance
  | subproofAssumesInstance
  | subproofEndsInConclusion
deriving DecidableEq, Repr

/-- The requirement in words. -/
def Requirement.text : Requirement → String
  | conclusionRepeatsLine => "conclusion must repeat the cited line"
  | singleLineIsBothConjuncts => "a single cited line only justifies its conjunction with itself"
  | linesAreConjuncts => "cited lines must be the two conjuncts"
  | conclusionIsConjunct => "conclusion must be one of the conjuncts"
  | lineIsDisjunct => "cited line must be one of the disjuncts"
  | subproofsAssumeDisjuncts => "subproofs must assume the two disjuncts"
  | subproofsEndInConclusion => "both subproofs must end in the conclusion"
  | subproofAssumesAntecedent => "subproof must assume the antecedent"
  | subproofEndsInConsequent => "subproof must end in the consequent"
  | someLineIsImplication => "one cited line must be an implication"
  | otherLineIsAntecedent => "the other cited line must be the antecedent"
  | conclusionIsConsequent => "conclusion must be the consequent"
  | subproofAssumesNegated => "subproof must assume what the conclusion negates"
  | subproofEndsInBottom => "subproof must end in ⊥"
  | conclusionDropsNegations => "conclusion must drop both negations"
  | linesContradict => "cited lines must be a formula and its negation"
  | subproofsDeriveEachOther => "subproofs must derive each side from the other"
  | someLineIsBiconditional => "one cited line must be a biconditional"
  | conclusionIsOppositeSide => "conclusion must be the side opposite the other cited line"
  | lineIsInstance => "cited line must be the body with one name in place of the variable"
  | conclusionIsInstance => "conclusion must be the body with one name in place of the variable"
  | subproofAssumesInstance =>
    "subproof must assume the body with one name in place of the variable"
  | subproofEndsInConclusion => "subproof must end in the conclusion"

/-- How many lines and how many subproofs are cited. -/
structure CitationCount where
  lines : Nat
  subproofs : Nat
deriving DecidableEq, Repr

/-- The count in words. -/
def CitationCount.text : CitationCount → String
  | ⟨0, 0⟩ => "no citations"
  | ⟨lines, 0⟩ => Text.count lines "line"
  | ⟨0, subproofs⟩ => Text.count subproofs "subproof"
  | ⟨lines, subproofs⟩ => Text.count lines "line" ++ " and " ++ Text.count subproofs "subproof"

/-- Why a line is no application of its rule. -/
inductive Mismatch where
  | citations (expected found : CitationCount)
  | conclusionShape (expected : Shape)
  | citedShape (citation : Citation) (expected : Shape)
  | requirement (unmet : Requirement)
  | subproofEndsNested (citation : Citation)
  | premiseInSubproof
  | premiseAfterDerivation
  | premiseNotInStatement
  | notFresh (name : Name)
  | needsPredicateCalculus (rule : Rule)
deriving DecidableEq, Repr

/-- The mismatch in words. -/
def Mismatch.message : Mismatch → String
  | citations expected found => s!"expects {expected.text}, but cites {found.text}"
  | conclusionShape expected => s!"conclusion must be {expected.text}"
  | citedShape citation expected => s!"cited line {citation.render} must be {expected.text}"
  | requirement unmet => unmet.text
  | subproofEndsNested citation =>
    s!"subproof {citation.render} must end at its own level, not inside a nested subproof"
  | premiseInSubproof => "premises may only appear outside every subproof"
  | premiseAfterDerivation => "premises must come before every derived line"
  | premiseNotInStatement => "not one of the premises of the problem"
  | notFresh name =>
    s!"`{name}` is not arbitrary: it occurs free in a premise, an open assumption or the conclusion"
  | needsPredicateCalculus rule => s!"{rule.name} needs the predicate calculus"

end NaturalDeduction
