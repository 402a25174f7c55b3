import NaturalDeduction.Verification.Verifier

/-!
# Similarity of proofs

How closely one proof follows another is the share of the lines of the reference that it reproduces.
A line is reproduced by a line with the same rule and the same formula, up to the order of operands,
that stands by the verifier's verdict.

The share is kept as an exact fraction; `Binary64` says how fractions are shown.
-/

namespace NaturalDeduction

/-- A proof of a problem, and the verdicts on it. -/
structure VerifiedProof (α : Type) where
  statement : Statement α
  document : Document α
  verification : Verification
deriving DecidableEq, Repr

namespace VerifiedProof

/-- A proof with its verdicts. -/
def of (calculus : Calculus) (statement : Statement Formula) (document : Document Formula) :
    VerifiedProof Formula :=
  ⟨statement, document, verify calculus statement document⟩

/-- The lines that stand. -/
def validLines {α : Type} (proof : VerifiedProof α) : List (Line α) :=
  proof.document.lines.filter fun line =>
    (proof.verification.verdict? line.number).any Verdict.isValid

/-- The number of lines of `reference` that `proof` reproduces. -/
def matchedLines (reference proof : VerifiedProof Formula) : Nat :=
  reference.document.lines.countP fun wanted =>
    proof.validLines.any fun line =>
      line.rule = wanted.rule && line.formula.reorders wanted.formula

/-- The share of the lines of `reference` that `proof` reproduces; 1 if there is nothing to
reproduce. -/
def similarity (reference proof : VerifiedProof Formula) : Rat :=
  if reference.document.lines.isEmpty then 1
  else mkRat (matchedLines reference proof) reference.document.lines.length

end VerifiedProof

end NaturalDeduction
