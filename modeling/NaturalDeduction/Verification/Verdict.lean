import NaturalDeduction.Verification.Mismatch

/-!
# Verdicts

What the verifier says about a line: that it stands, or the one thing that is wrong with it.
-/

namespace NaturalDeduction

/-- The outcome for one line. -/
inductive Verdict where
  | valid
  | mismatch (cause : Mismatch)
  /-- The citation names no line, or a range that is not exactly a subproof. -/
  | unresolvedCitation (citation : Citation)
  /-- The citation names a line or subproof that is not visible from the line. -/
  | outOfScopeCitation (citation : Citation)
deriving DecidableEq, Repr

namespace Verdict

/-- Whether the line stands. -/
def isValid : Verdict → Bool
  | valid => true
  | _ => false

/-- The verdict in words. -/
def message : Verdict → String
  | valid => "valid"
  | mismatch cause => cause.message
  | unresolvedCitation (.line n) => s!"cites line {n}, which does not exist"
  | unresolvedCitation citation => s!"cites {citation.render}, which is not a subproof"
  | outOfScopeCitation citation => s!"cites {citation.render}, which is not available here"

end Verdict

/-- Whether a proof ends in the goal that was declared for it. -/
inductive GoalStatus where
  /-- No goal was declared. -/
  | undeclared
  | reached
  | unreached
deriving DecidableEq, Repr

end NaturalDeduction
