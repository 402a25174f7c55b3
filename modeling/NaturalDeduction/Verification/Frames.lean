import NaturalDeduction.Formula.Basic
import NaturalDeduction.Proof.Document

/-!
# Open scopes

While a proof is read line by line, the scopes that are open form a stack. Each comes with the names
that occur free in the premises and in the assumptions that are in force inside it: these are the
names that stand for particular individuals there.

## Main definitions

* `Frame`: an open scope with its names
* `Progress`: how far the reading has come
* `Progress.enter`, `Progress.leave`: what a line changes before and after it is judged

## Implementation notes

Scopes are opened and closed without a look at the formulas. `startWith`, `enterWith` and
`leaveWith` are told which names are free in them, and are the same whatever a formula is.
-/

namespace NaturalDeduction

/-- An open scope, and the names free in the premises and assumptions in force inside it. -/
structure Frame where
  scope : Scope
  names : List Name
deriving DecidableEq, Repr

/-- What the lines read so far leave for the next one. -/
structure Progress where
  /-- The open scopes, innermost first. -/
  frames : List Frame
  /-- Whether a line other than a premise has been read. -/
  afterDerivation : Bool
deriving DecidableEq, Repr

namespace Progress

variable {α : Type}

/-- Before the first line only the root is open, in which some names are fixed already. -/
def startWith (names : List Name) : Progress := ⟨[⟨.root, names⟩], false⟩

/-- The names that are fixed before the first line are those of the declared premises. -/
def start (premises : Option (List Formula)) : Progress :=
  startWith ((premises.getD []).flatMap Formula.freeNames)

/-- The names of the innermost open scope. -/
def contextNames (progress : Progress) : List Name :=
  match progress.frames with
  | [] => []
  | frame :: _ => frame.names

/-- Whether lines that lie directly in a scope may be cited: the scope is open. -/
def isVisible (progress : Progress) (scope : Scope) : Bool :=
  progress.frames.any (·.scope = scope)

/-- An assumption closes the scopes of its depth and deeper and opens its own, which inherits the
names of the scope around it; any other line closes the scopes that are deeper than itself. The
formula of the line has the given names. -/
def enterWith (progress : Progress) (names : List Name) (line : Line α) : Progress :=
  if line.rule = .assumption then
    let outer : Progress := { progress with frames := Scope.outermost line.depth progress.frames }
    { outer with frames := ⟨line.scope, outer.contextNames ++ names⟩ :: outer.frames }
  else { progress with frames := Scope.outermost (line.depth + 1) progress.frames }

/-- What a line opens and closes before it is judged. -/
def enter (progress : Progress) (line : Line Formula) : Progress :=
  progress.enterWith line.formula.freeNames line

/-- The frames after `names` have been added to the outermost one. -/
def addToRoot (names : List Name) : List Frame → List Frame
  | [] => []
  | [root] => [{ root with names := root.names ++ names }]
  | frame :: outer => frame :: addToRoot names outer

/-- A premise outside every subproof is in force from then on; any line but a premise begins the
derivation. The formula of the line has the given names. -/
def leaveWith (progress : Progress) (names : List Name) (line : Line α) : Progress :=
  if line.rule = .premise then
    if line.depth = 0 then { progress with frames := addToRoot names progress.frames }
    else progress
  else { progress with afterDerivation := true }

/-- What a line leaves behind after it has been judged. -/
def leave (progress : Progress) (line : Line Formula) : Progress :=
  progress.leaveWith line.formula.freeNames line

end Progress

end NaturalDeduction
