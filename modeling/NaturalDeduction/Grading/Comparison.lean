import NaturalDeduction.Formula.Printer
import NaturalDeduction.Grading.Similarity
import NaturalDeduction.Number.Binary64

/-!
# Comparing a student's proof with the reference

A proof with a line that does not stand is rejected. Otherwise the last line outside every subproof
is what it proves, and that has to be the goal of the instructor, or the student's own goal if the
instructor sets none, up to the order of the operands of `∧` and `∨`.

The reference proof itself need not stand: that costs the student nothing, and only adds a note.

## Main definitions

* `Outcome`, `LineFault`, `Note`: what a comparison finds
* `VerifiedProof.assess`, `Comparison`
* `Report`: a comparison as it is passed on
-/

namespace NaturalDeduction

/-- A line that does not stand, and why. -/
structure LineFault where
  number : Nat
  rule : Rule
  verdict : Verdict
deriving DecidableEq, Repr

/-- The fault in words. -/
def LineFault.message (fault : LineFault) : String :=
  s!"line {fault.number} ({fault.rule.name}): {fault.verdict.message}"

/-- The result for one problem. -/
inductive Outcome where
  | correct
  | incorrectConclusion
  | invalidProof (faults : List LineFault)
  /-- One of the two proofs could not be read. -/
  | unreadable (message : String)
  /-- The problem occurs in one assignment only. -/
  | unmatched
deriving DecidableEq, Repr

/-- The outcome in words. -/
def Outcome.text : Outcome → String
  | correct => "correct"
  | incorrectConclusion => "incorrect conclusion"
  | invalidProof _ => "invalid proof"
  | unreadable _ => "parse error"
  | unmatched => "unmatched"

/-- A remark on a comparison. -/
inductive Note where
  | referenceInvalid
  | faultyLines (faults : List LineFault)
  | noGoal
  | noConclusion
  | proves (conclusion : Formula)
  | misses (conclusion goal : Formula)
  | operandOrder
deriving DecidableEq, Repr

/-- The remark in words. -/
def Note.text : Note → String
  | referenceInvalid => "warning: the reference proof does not verify"
  | faultyLines faults => String.intercalate "\n" (faults.map LineFault.message)
  | noGoal => "no goal to compare the conclusion with"
  | noConclusion => "the proof has no top-level conclusion"
  | proves conclusion => s!"proves {conclusion.render}"
  | misses conclusion goal => s!"concludes {conclusion.render}, but the goal is {goal.render}"
  | operandOrder => "the conclusion matches the goal only up to operand order"

/-- What is found when a proof is compared with the reference. -/
structure Comparison where
  outcome : Outcome
  similarity : Option Rat
  notes : List Note
deriving DecidableEq

/-- The lines of a proof that do not stand, in order. -/
def VerifiedProof.faults {α : Type} (proof : VerifiedProof α) : List LineFault :=
  proof.verification.invalidLines.filterMap fun (number, verdict) =>
    (proof.document.line? number).map fun line => ⟨number, line.rule, verdict⟩

/-- Whether a conclusion meets the goal, and a remark on it. -/
def judgeConclusion (goal conclusion : Option Formula) : Outcome × Note :=
  match goal, conclusion with
  | none, _ => (.incorrectConclusion, .noGoal)
  | some _, none => (.incorrectConclusion, .noConclusion)
  | some goal, some conclusion =>
    if goal.reorders conclusion then (.correct, .proves conclusion)
    else (.incorrectConclusion, .misses conclusion goal)

/-- The outcome for a proof and a remark on it. A proof without faults is judged by the reference's
goal or, where that declares none, by its own. -/
def judgeProof (reference proof : VerifiedProof Formula) : Outcome × Note :=
  match proof.faults with
  | [] =>
    judgeConclusion (reference.statement.goal <|> proof.statement.goal)
      (proof.document.conclusion?.map (·.formula))
  | faults => (.invalidProof faults, .faultyLines faults)

/-- The remarks on a comparison, around the one that belongs to its outcome. -/
def remarks (reference proof : Verification) (outcome : Outcome) (note : Note) : List Note :=
  (if reference.isValid then [] else [.referenceInvalid]) ++ [note] ++
    if outcome = .correct ∧ proof.goal = .unreached then [.operandOrder] else []

/-- Compares a proof with the reference, and measures their similarity if asked to. -/
def VerifiedProof.assess (withSimilarity : Bool) (reference proof : VerifiedProof Formula) :
    Comparison :=
  let (outcome, note) := judgeProof reference proof
  { outcome
    similarity := if withSimilarity then some (VerifiedProof.similarity reference proof) else none
    notes := remarks reference.verification proof.verification outcome note }

/-- The result for one problem as it is passed on. -/
structure Report where
  outcome : Outcome
  similarity : Option Binary64
  /-- What to tell about the result, in one or more lines. -/
  diagnostic : String
deriving DecidableEq, Repr

/-- A comparison as it is passed on, with the similarity rounded to a machine number. -/
def Comparison.report (comparison : Comparison) : Report where
  outcome := comparison.outcome
  similarity := comparison.similarity.map Binary64.ofRat
  diagnostic := String.intercalate "\n" (comparison.notes.map Note.text)

end NaturalDeduction
