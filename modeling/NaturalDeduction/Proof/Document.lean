import NaturalDeduction.Proof.Citation
import NaturalDeduction.Proof.Rule

/-!
# Proofs as documents

A proof is a list of lines. Every line states a formula, names the rule and the citations that
justify it, and stands at a depth: the number of subproofs that it lies in. An assumption opens a
subproof, and a line of lesser depth closes it; so does an assumption at the same depth, which
opens the next one.

## Implementation notes

Depths alone decide where every line belongs. The scope of a line is recorded as the numbers of the
assumptions whose subproofs it lies in, innermost first. Thereby a scope is its own path in the tree
of scopes: its parent is its tail, the root is the empty list, and a line lies in the subproof of an
assumption if the number of the assumption occurs in its scope. Nothing has to be updated when
further lines extend a scope.

Nothing here looks at formulas, which may be of any type.

## Main definitions

* `Draft`, `Line`, `Document`: a line before and after its scope is known; a proof
* `Document.build`: a document out of drafts, or the first line that does not nest
* `Document.subproof?`: the subproof with a given first and last line
-/

namespace NaturalDeduction

variable {α β : Type}

/-- The numbers of the assumptions that are open at a place of a proof, innermost first. -/
abbrev Scope := List Nat

namespace Scope

/-- The scope outside every subproof. -/
abbrev root : Scope := []

/-- The part of a stack that is left when only its `n` outermost members are kept. The innermost
comes first in a stack. -/
def outermost (n : Nat) (stack : List α) : List α := stack.drop (stack.length - n)

/-- The scope directly around a scope; the root has none. -/
def parent? : Scope → Option Scope
  | [] => none
  | _ :: outer => some outer

end Scope

/-- A line of a proof before its place among the subproofs is known. -/
structure Draft (α : Type) where
  formula : α
  rule : Rule
  citations : List Citation
  depth : Nat
deriving DecidableEq, Repr

/-- A line of a proof in its place. -/
structure Line (α : Type) extends Draft α where
  /-- Lines are numbered from 1. -/
  number : Nat
  scope : Scope
deriving DecidableEq, Repr

/-- A proof whose subproofs nest. -/
structure Document (α : Type) where
  lines : List (Line α)
deriving DecidableEq, Repr

/-! ### Nesting -/

/-- Why the depths of a list of lines do not describe nested subproofs. -/
inductive NestingError where
  | assumptionAtTopLevel (line : Nat)
  | depthJump (line here there : Nat)
  | subproofWithoutAssumption (line : Nat)
deriving DecidableEq, Repr

/-- The error in words. -/
def NestingError.message : NestingError → String
  | assumptionAtTopLevel line =>
    s!"line {line}: an assumption must open a subproof (depth 1 or more)"
  | depthJump line here there =>
    s!"line {line}: depth jumps from {here} to {there}; subproofs open one level at a time"
  | subproofWithoutAssumption line => s!"line {line}: only an assumption can open a subproof"

/-- The scope of line `number`, which follows a line in scope `current`. -/
def Draft.place (draft : Draft α) (number : Nat) (current : Scope) : Except NestingError Scope :=
  if draft.rule = .assumption then
    if draft.depth = 0 then .error (.assumptionAtTopLevel number)
    else if current.length + 1 < draft.depth then
      .error (.depthJump number current.length draft.depth)
    else .ok (number :: Scope.outermost (draft.depth - 1) current)
  else if current.length < draft.depth then .error (.subproofWithoutAssumption number)
  else .ok (Scope.outermost draft.depth current)

namespace Document

/-- The lines that drafts make when they continue a proof whose next number is `number` and whose
last line lies in `current`. -/
def layOut (number : Nat) (current : Scope) : List (Draft α) → Except NestingError (List (Line α))
  | [] => .ok []
  | draft :: drafts =>
    match draft.place number current with
    | .error error => .error error
    | .ok scope =>
      match layOut (number + 1) scope drafts with
      | .error error => .error error
      | .ok lines => .ok (⟨draft, number, scope⟩ :: lines)

/-- The document with the given lines, in the order given. -/
def build (drafts : List (Draft α)) : Except NestingError (Document α) :=
  (layOut 1 .root drafts).map Document.mk

/-- The same document over other formulas. -/
def map (f : α → β) (document : Document α) : Document β :=
  ⟨document.lines.map fun line => { line with formula := f line.formula }⟩

/-! ### Lines and subproofs -/

/-- The line with a number. -/
def line? (document : Document α) : Nat → Option (Line α)
  | 0 => none
  | n + 1 => document.lines[n]?

/-- The last line outside every subproof, which states what the proof establishes. -/
def conclusion? (document : Document α) : Option (Line α) :=
  document.lines.findRev? (·.depth = 0)

/-- The number of the last line in the subproof that the assumption `first` opens. -/
def lastIn? (document : Document α) (first : Nat) : Option Nat :=
  (document.lines.findRev? (first ∈ ·.scope)).map (·.number)

/-- The scope of the subproof that begins exactly at line `first` and ends exactly
at line `last`. -/
def subproof? (document : Document α) (first last : Nat) : Option Scope :=
  match document.line? first with
  | none => none
  | some line =>
    if line.rule = .assumption ∧ document.lastIn? first = some last then some line.scope else none

/-- All scopes, the root first and the others in the order of their first lines. -/
def scopes (document : Document α) : List Scope :=
  .root :: (document.lines.filter (·.rule = .assumption)).map (·.scope)

/-- All subproofs by their first and last lines, in the order of their first lines. -/
def subproofs (document : Document α) : List (Nat × Nat) :=
  document.lines.filterMap fun line =>
    if line.rule = .assumption then (document.lastIn? line.number).map (line.number, ·) else none

end Document

end NaturalDeduction
