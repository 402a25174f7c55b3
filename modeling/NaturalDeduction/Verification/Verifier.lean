import NaturalDeduction.Calculus
import NaturalDeduction.Verification.Frames
import NaturalDeduction.Verification.Step
import NaturalDeduction.Verification.Verdict

/-!
# Verifying proofs

Every line of a document is judged in turn. Its citations are resolved first: a line may cite an
earlier line that lies directly in an open scope, or a subproof that has been closed and whose
surrounding scope is still open. Then its rule is checked on what the citations stand for.

The first citation that does not resolve settles the verdict. Resolution looks at the whole
document, since only there it shows where a subproof ends; but whether a line is valid never depends
on the lines behind it.

## Main definitions

* `Statement`: the premises and the goal that a problem declares
* `resolve`: what a citation stands for at a line
* `verify`, `Verification`: the verdicts on all lines, and whether the goal is reached
-/

namespace NaturalDeduction

/-- The premises and the goal of a problem, as far as it declares them. Without declared premises
any formula may be a premise; an empty list allows none. -/
structure Statement (α : Type) where
  premises : Option (List α)
  goal : Option α
deriving DecidableEq, Repr

variable {α : Type}

/-! ### Citations -/

/-- What a citation in `line` refers to, or the verdict that it brings upon the line. -/
def resolve (document : Document α) (progress : Progress) (line : Line α) :
    Citation → Except Verdict (Cited α)
  | .line n =>
    match document.line? n with
    | none => .error (.unresolvedCitation (.line n))
    | some cited =>
      if line.number ≤ n ∨ !progress.isVisible cited.scope then
        .error (.outOfScopeCitation (.line n))
      else .ok (.line ⟨.line n, cited.formula⟩)
  | .subproof first last =>
    match document.subproof? first last, document.line? first, document.line? last with
    | some scope, some opening, some closing =>
      if line.number ≤ last ∨ !(scope.parent?.any progress.isVisible) then
        .error (.outOfScopeCitation (.subproof first last))
      else if closing.scope ≠ scope then
        .error (.mismatch (.subproofEndsNested (.subproof first last)))
      else .ok (.subproof ⟨opening.formula, closing.formula⟩)
    | _, _, _ => .error (.unresolvedCitation (.subproof first last))

/-- What all citations of a line refer to, or the verdict of the first that fails. -/
def resolveAll (document : Document α) (progress : Progress) (line : Line α) :
    List Citation → Except Verdict (List (Cited α))
  | [] => .ok []
  | citation :: others =>
    match resolve document progress line citation with
    | .error verdict => .error verdict
    | .ok cited =>
      match resolveAll document progress line others with
      | .error verdict => .error verdict
      | .ok rest => .ok (cited :: rest)

/-! ### Lines -/

/-- The verdict on a line that the reading has entered. -/
def judge (calculus : Calculus) (premises : Option (List Formula)) (document : Document Formula)
    (progress : Progress) (line : Line Formula) : Verdict :=
  match resolveAll document progress line line.citations with
  | .error verdict => verdict
  | .ok cited =>
    let step : Step Formula :=
      { rule := line.rule
        conclusion := line.formula
        cited
        depth := line.depth
        contextNames := progress.contextNames
        premises
        afterDerivation := progress.afterDerivation
        quantifiers := calculus.hasQuantifiers }
    match step.check with
    | .ok () => .valid
    | .error mismatch => .mismatch mismatch

/-- The verdicts on lines that follow the reading so far. -/
def judgeLines (calculus : Calculus) (premises : Option (List Formula))
    (document : Document Formula) : Progress → List (Line Formula) → List Verdict
  | _, [] => []
  | progress, line :: others =>
    let here := progress.enter line
    judge calculus premises document here line ::
      judgeLines calculus premises document (here.leave line) others

/-! ### Proofs -/

/-- The verdicts on the lines of a proof, in order, and what became of its goal. -/
structure Verification where
  verdicts : List Verdict
  goal : GoalStatus
deriving DecidableEq, Repr

namespace Verification

/-- The verdict on the line with a number. -/
def verdict? (verification : Verification) : Nat → Option Verdict
  | 0 => none
  | n + 1 => verification.verdicts[n]?

/-- Every line stands, and a declared goal is reached. -/
def isValid (verification : Verification) : Bool :=
  verification.goal ≠ .unreached && verification.verdicts.all Verdict.isValid

/-- The numbers of the lines that do not stand, with their verdicts. -/
def invalidLines (verification : Verification) : List (Nat × Verdict) :=
  ((verification.verdicts.zipIdx 1).filter fun (verdict, _) => !verdict.isValid).map Prod.swap

end Verification

/-- Whether a proof ends in the goal. Identity is meant here; the order of operands counts. -/
def goalStatus [DecidableEq α] (goal : Option α) (document : Document α) : GoalStatus :=
  match goal with
  | none => .undeclared
  | some goal =>
    if document.conclusion?.map (·.formula) = some goal then .reached else .unreached

/-- Judges a proof of a problem in a calculus. -/
def verify (calculus : Calculus) (statement : Statement Formula) (document : Document Formula) :
    Verification where
  verdicts :=
    judgeLines calculus statement.premises document (.start statement.premises) document.lines
  goal := goalStatus statement.goal document

end NaturalDeduction
