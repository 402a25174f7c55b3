import NaturalDeduction.Calculus
import NaturalDeduction.Formula.Snippet
import NaturalDeduction.Proof.Document
import NaturalDeduction.Verification.Verifier

/-!
# Problems and how they are read

A problem as it is written consists of texts. Reading it turns its premises and its goal into a
statement and its lines into a document, in the calculus that governs it, and stops at the first
fault: premises come first, then the goal, then the lines, and in a line the formula, the rule and
the citations in this order. Only when all lines can be read does their nesting matter.

## Main definitions

* `Problem`, `Entry`: a problem and a line as written
* `ReadError`: what can be wrong with a problem, and where
* `Problem.statement`, `Problem.document`: what a problem states, and its proof
-/

namespace NaturalDeduction

/-- A line of a proof as written. -/
structure Entry where
  formula : String
  rule : String
  depth : Nat
  citations : List String
deriving DecidableEq, Repr

/-- A problem with a proof, as written by an instructor or a student. -/
structure Problem where
  id : String
  calculus : Calculus
  premises : Option (List String)
  goal : Option String
  lines : List Entry
deriving DecidableEq, Repr

/-! ### Faults -/

/-- Where in a problem a formula stands. Premises and lines are numbered from 1. -/
inductive Location where
  | premise (number : Nat)
  | goal
  | line (number : Nat)
deriving DecidableEq, Repr

/-- The location in words. -/
def Location.text : Location → String
  | premise n => s!"premise {n}"
  | goal => "the goal"
  | line n => s!"line {n}"

/-- Why a problem cannot be read. -/
inductive ReadError where
  | formula (location : Location) (text : String) (error : SyntaxError)
  | unknownRule (line : Nat) (name : String)
  | citation (line : Nat) (error : CitationError)
  | nesting (error : NestingError)
deriving DecidableEq, Repr

namespace ReadError

/-- The fault in words. -/
def message : ReadError → String
  | formula location _ error => s!"{location.text}: {error.message}"
  | unknownRule line name => s!"line {line}: unknown rule `{name}`"
  | citation line error => s!"line {line}: {error.message}"
  | nesting error => error.message

/-- The fault at length, as a report on the problem `id` shows it: a formula comes
with a snippet. -/
def report (id : String) : ReadError → String
  | formula location text error => (error.snippet s!"problem {id}, {location.text}" text).render
  | error => error.message

end ReadError

/-! ### Reading -/

/-- The results of `f` on the members of a list, which it also tells their numbers, counted from
`number`; the first failure ends the reading. -/
def readEach {α β ε : Type} (f : Nat → α → Except ε β) (number : Nat) : List α → Except ε (List β)
  | [] => .ok []
  | a :: others =>
    match f number a with
    | .error e => .error e
    | .ok b =>
      match readEach f (number + 1) others with
      | .error e => .error e
      | .ok bs => .ok (b :: bs)

/-- The formula at a location. -/
def readFormula (calculus : Calculus) (location : Location) (text : String) :
    Except ReadError Formula :=
  (Formula.parse calculus text).mapError (.formula location text)

/-- A line before it is put in its place. -/
def Entry.draft (calculus : Calculus) (number : Nat) (entry : Entry) :
    Except ReadError (Draft Formula) :=
  match readFormula calculus (.line number) entry.formula with
  | .error error => .error error
  | .ok formula =>
    match Rule.ofName? entry.rule with
    | none => .error (.unknownRule number entry.rule)
    | some rule =>
      match readEach (fun _ text => Citation.parse text) 0 entry.citations with
      | .error error => .error (.citation number error)
      | .ok citations => .ok { formula, rule, citations, depth := entry.depth }

namespace Problem

/-- The declared premises, as formulas. -/
def readPremises (calculus : Calculus) :
    Option (List String) → Except ReadError (Option (List Formula))
  | none => .ok none
  | some texts => (readEach (fun n text => readFormula calculus (.premise n) text) 1 texts).map some

/-- The declared goal, as a formula. -/
def readGoal (calculus : Calculus) : Option String → Except ReadError (Option Formula)
  | none => .ok none
  | some text => (readFormula calculus .goal text).map some

/-- The premises and the goal that a problem declares. -/
def statement (calculus : Calculus) (problem : Problem) : Except ReadError (Statement Formula) :=
  match readPremises calculus problem.premises with
  | .error error => .error error
  | .ok premises => (readGoal calculus problem.goal).map fun goal => ⟨premises, goal⟩

/-- The proof of a problem. -/
def document (calculus : Calculus) (problem : Problem) : Except ReadError (Document Formula) :=
  match readEach (fun n entry => entry.draft calculus n) 1 problem.lines with
  | .error error => .error error
  | .ok drafts => (Document.build drafts).mapError .nesting

/-- What a problem declares, and its proof. -/
def read (calculus : Calculus) (problem : Problem) :
    Except ReadError (Statement Formula × Document Formula) :=
  match problem.statement calculus with
  | .error error => .error error
  | .ok statement => (problem.document calculus).map fun document => (statement, document)

end Problem

end NaturalDeduction
