import NaturalDeduction.Forest
import NaturalDeduction.Main
import NaturalDeduction.Proofs.Formula.FreeNames
import NaturalDeduction.Proofs.Formula.Semantics
import NaturalDeduction.Proofs.Formula.Substitution
import NaturalDeduction.Proofs.Formula.Grammar
import NaturalDeduction.Proofs.Formula.Tokens
import NaturalDeduction.Proofs.Formula.Readers
import NaturalDeduction.Proofs.Formula.Openings
import NaturalDeduction.Proofs.Formula.Spacing
import NaturalDeduction.Proofs.Formula.Recognition
import NaturalDeduction.Proofs.Formula.Rendering
import NaturalDeduction.Proofs.Formula.Seams
import NaturalDeduction.Proofs.Formula.Viability
import NaturalDeduction.Proofs.Formula.Fragment
import NaturalDeduction.Proofs.Formula.Renaming
import NaturalDeduction.Proofs.Formula.Reordering
import NaturalDeduction.Proofs.Forest.Interning
import NaturalDeduction.Proofs.Document.Layout
import NaturalDeduction.Proofs.Document.Scopes
import NaturalDeduction.Proofs.Document.Laminarity
import NaturalDeduction.Proofs.Verification.Context
import NaturalDeduction.Proofs.Verification.OpenScopes
import NaturalDeduction.Proofs.Verification.Resolution
import NaturalDeduction.Proofs.Verification.Visibility
import NaturalDeduction.Proofs.Verification.Rules
import NaturalDeduction.Proofs.Verification.Inference
import NaturalDeduction.Proofs.Verification.StepSoundness
import NaturalDeduction.Proofs.Verification.Soundness
import NaturalDeduction.Proofs.Verification.StepRenaming
import NaturalDeduction.Proofs.Verification.Renaming
import NaturalDeduction.Proofs.Grading.Reading
import NaturalDeduction.Proofs.Grading.Soundness
import NaturalDeduction.Proofs.Grading.Independence
import NaturalDeduction.Proofs.Derivation.Basic
import NaturalDeduction.Proofs.Derivation.Writing
import NaturalDeduction.Proofs.Derivation.Linear
import NaturalDeduction.Proofs.Derivation.Completeness
import NaturalDeduction.Proofs.Forest.Questions
import NaturalDeduction.Proofs.Forest.FreeNames
import NaturalDeduction.Proofs.Forest.Walks
import NaturalDeduction.Proofs.Forest.Steps
import NaturalDeduction.Proofs.Verification.Continuation
import NaturalDeduction.Proofs.Verification.Replacement
import NaturalDeduction.Proofs.Verification.Relaxation
import NaturalDeduction.Proofs.Forest.Verification
import NaturalDeduction.Proofs.Forest.Renaming
import NaturalDeduction.Proofs.Verification.CitationOrder
import NaturalDeduction.Proofs.Forest.Sessions
import NaturalDeduction.Proofs.Grading.Outcome
import NaturalDeduction.Proofs.Grading.Pairing
import NaturalDeduction.Proofs.Grading.GoalOrder
import NaturalDeduction.Proofs.Grading.SelfGrading
import NaturalDeduction.Proofs.Number.Rounding
import NaturalDeduction.Proofs.Grading.Similarity
import NaturalDeduction.Proofs.Grading.OperandOrder
import NaturalDeduction.Proofs.Document.Citations
import NaturalDeduction.Proofs.Grading.FirstFault
import NaturalDeduction.Proofs.Forest.Reading
import NaturalDeduction.Proofs.Forest.Grading
import NaturalDeduction.Proofs.Text.Escapes
import NaturalDeduction.Proofs.Grading.Summary
import NaturalDeduction.Proofs.Formula.Cursor
import NaturalDeduction.Proofs.Formula.Walks
import NaturalDeduction.Proofs.Formula.Scanning
