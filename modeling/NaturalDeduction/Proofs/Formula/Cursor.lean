import NaturalDeduction.Formula.Parser

/-!
# Reading formulas by byte positions

The reader of formulas with the whole text and a byte position in its hands. Whatever it looks at
it cuts off at the position anew, and the cut fails where the position is inside a character or
behind the end. Its routines call each other and loop on that position, which is no reason for
them to end; so a run is given a depth, and has no result if it needs to begin more routines one
inside the other. How it goes on with its position, and which routine begins another one where, is
written to a log.

The reader behind `Formula.parse` hands on what is left of the text instead, which gets shorter and
shorter. The two agree, and the file on scanning proves it.

## Implementation notes

A run is a computation with a state in `Option`, where `none` stands for a depth that does not
suffice. A greater depth never changes a result.

## Main definitions

* `Text.split?`: the two parts of a text at a byte position
* `Routine`, `Event`, `Cursor`, `Halt`: the routines, what the log tells of, the state, how
  a run breaks off
* `Scan`: a run, with its steps `Scan.eat`, `Scan.lookFor`, `Scan.name?`, ...
* `Scan.formula`: a formula, read by the routines that call each other
* `Formula.scan`: the formula that a text writes in a calculus
-/

namespace NaturalDeduction

/-- The text in front of a byte position and the text from there on. There is none if the position
is inside a character or behind the end. -/
def Text.split? : List Char → Nat → Option (List Char × List Char)
  | s, 0 => some ([], s)
  | [], _ + 1 => none
  | c :: s, n + 1 =>
    if c.utf8Size ≤ n + 1 then (split? s (n + 1 - c.utf8Size)).map fun (before, rest) =>
      (c :: before, rest)
    else none

/-! ### The state of the reader -/

/-- The routines of the reader, and the rounds of its loops. -/
inductive Routine where
  | formula
  /-- A formula whose connectives outside parentheses are those of the levels, the first
  one at the top. -/
  | operation (levels : List Level)
  /-- A round of the loop that reads a chain of one connective. -/
  | chain (connective : Connective)
  | unary
  | quantifier
  | primary
  /-- A round of the loop that reads arguments. -/
  | arguments
deriving DecidableEq, Repr

namespace Routine

/-- The routine for the operands of a level. -/
def ofLevels : List Level → Routine
  | [] => unary
  | level :: tighter => operation (level :: tighter)

/-- How far up in the grammar a routine is. -/
def rank : Routine → Nat
  | formula => Level.all.length + 3
  | operation levels => levels.length + 2
  | unary => 2
  | quantifier | primary => 1
  | chain _ | arguments => 0

end Routine

/-- What happens in a run. -/
inductive Event where
  /-- The text is cut off at a position. -/
  | slice (p : Nat)
  /-- The position goes on from `p` to `q`. -/
  | advance (p q : Nat)
  /-- The position is set back from `p` to `q`. -/
  | rewind (p q : Nat)
  /-- A routine that was begun at `start` begins another one at `p`. -/
  | call (caller : Routine) (start : Nat) (callee : Routine) (p : Nat)
deriving DecidableEq, Repr

/-- The position after an event. -/
def Event.position : Event → Nat
  | slice p => p
  | advance _ q => q
  | rewind _ q => q
  | call _ _ _ p => p

/-- A text, a byte position in it and what has happened so far. -/
structure Cursor where
  text : List Char
  position : Nat
  log : List Event
deriving DecidableEq, Repr

/-- In front of a text. -/
def Cursor.start (text : String) : Cursor := ⟨text.toList, 0, []⟩

/-- How a run breaks off. -/
inductive Halt where
  | syntaxError (position : Nat) (expected : String) (found : Option Char)
  /-- The text was cut off where it cannot be. -/
  | illegalSlice
deriving DecidableEq, Repr

/-- The syntax error as the reader breaks off with it. -/
def SyntaxError.halt (error : SyntaxError) : Halt :=
  .syntaxError error.position error.expected.text error.found

/-! ### Steps -/

/-- A run of the reader. It may be without a result. -/
abbrev Scan := ExceptT Halt (StateT Cursor Option)

namespace Scan

/-- The position. -/
def here : Scan Nat := do return (← get).position

/-- Write to the log. -/
def record (event : Event) : Scan Unit :=
  modify fun cursor => { cursor with log := cursor.log ++ [event] }

/-- The text from the position on. -/
def rest : Scan (List Char) := do
  let cursor ← get
  record (.slice cursor.position)
  match Text.split? cursor.text cursor.position with
  | some (_, rest) => return rest
  | none => throw .illegalSlice

/-- Go on by a number of bytes. -/
def advance (n : Nat) : Scan Unit := do
  let p ← here
  modify fun cursor => { cursor with position := p + n }
  record (.advance p (p + n))

/-- Go back to a position. -/
def rewind (start : Nat) : Scan Unit := do
  let p ← here
  modify fun cursor => { cursor with position := start }
  record (.rewind p start)

/-- Go on behind blanks. -/
def skipBlanks : Scan Unit := do
  let rest ← rest
  advance (Text.utf8Length rest - Text.utf8Length (Text.skipBlanks rest))

/-- Go on behind the first spelling of a symbol that stands here, after blanks. -/
def eat (symbol : Symbol) : Scan Bool := do
  skipBlanks
  let rest ← rest
  match symbol.spellings.find? fun spelling => (Symbol.afterSpelling? spelling rest).isSome with
  | some spelling =>
    advance (Text.utf8Length spelling)
    return true
  | none => return false

/-- Whether a symbol stands here, after blanks. -/
def lookFor (symbol : Symbol) : Scan Bool := do
  let start ← here
  let found ← eat symbol
  rewind start
  return found

/-- Go on behind the name that stands here, after blanks. -/
def name? : Scan (Option Name) := do
  skipBlanks
  let rest ← rest
  if rest.head?.any isNameStart then
    let n := Text.utf8Length (rest.takeWhile isNameChar)
    advance n
    match Text.split? rest n with
    | some (name, _) => return some (String.ofList name)
    | none => throw .illegalSlice
  else return none

/-- Break off at the next token. -/
def stuck {α : Type} (expected : String) : Scan α := do
  skipBlanks
  let p ← here
  let rest ← rest
  throw (.syntaxError p expected rest.head?)

/-- Go on behind a symbol that has to stand here. -/
def expect (symbol : Symbol) (expected : String) : Scan Unit := do
  if ← eat symbol then return ()
  else stuck expected

/-- Nothing but blanks may follow. -/
def expectEnd (expected : String) : Scan Unit := do
  skipBlanks
  let cursor ← get
  if Text.utf8Length cursor.text ≤ cursor.position then return ()
  else stuck expected

/-- Another routine begins. -/
def enter (caller : Routine) (start : Nat) (callee : Routine) : Scan Unit := do
  record (.call caller start callee (← here))

/-- No routine may begin any more. -/
def exhausted {α : Type} : Scan α := ExceptT.mk fun _ => none

/-! ### Routines

The depth bounds how many routines and rounds of loops are begun one inside the other. -/

/-- Go on behind the comma or the dot between the variable of a quantifier and its body. -/
def separator : Scan Unit := do
  if ← eat .comma then return ()
  else
    match Text.after? ['.'] (Text.skipBlanks (← rest)) with
    | some behind =>
      if Symbol.beginsDottedWord behind then return ()
      else
        let _ ← eat .dot
        return ()
    | none => return ()

/-- The names of an argument list, behind those that have been read. -/
def arguments (names : List Name) (depth : Nat) : Scan (List Name) :=
  match depth with
  | 0 => exhausted
  | depth + 1 => do
    let start ← here
    match ← name? with
    | none => stuck Expectation.name.text
    | some name =>
      if ← eat .comma then
        enter .arguments start .arguments
        arguments (names ++ [name]) depth
      else return names ++ [name]

mutual

/-- A formula. -/
def formula (calculus : Calculus) (depth : Nat) : Scan Formula :=
  match depth with
  | 0 => exhausted
  | depth + 1 => do
    let start ← here
    enter .formula start (.ofLevels Level.all)
    operation calculus Level.all depth

/-- A formula in which the connectives outside parentheses and quantifiers are those of `levels`. -/
def operation (calculus : Calculus) (levels : List Level) (depth : Nat) : Scan Formula :=
  match depth with
  | 0 => exhausted
  | depth + 1 =>
    match levels with
    | [] => unary calculus depth
    | level :: tighter => do
      let start ← here
      enter (.operation (level :: tighter)) start (.ofLevels tighter)
      let left ← operation calculus tighter depth
      match level.associativity with
      | .left =>
        enter (.operation (level :: tighter)) start (.chain level.connective)
        chain calculus level.connective tighter left depth
      | .right =>
        if ← eat (.connective level.connective) then
          enter (.operation (level :: tighter)) start (.operation (level :: tighter))
          let right ← operation calculus (level :: tighter) depth
          return .binary level.connective left right
        else return left

/-- The rest of a chain that groups to the left, whose part read so far is `left`. -/
def chain (calculus : Calculus) (connective : Connective) (tighter : List Level) (left : Formula)
    (depth : Nat) : Scan Formula :=
  match depth with
  | 0 => exhausted
  | depth + 1 => do
    let start ← here
    if ← eat (.connective connective) then
      enter (.chain connective) start (.ofLevels tighter)
      let right ← operation calculus tighter depth
      enter (.chain connective) start (.chain connective)
      chain calculus connective tighter (.binary connective left right) depth
    else return left

/-- A negation, a quantification or what is not composed, unless by parentheses. -/
def unary (calculus : Calculus) (depth : Nat) : Scan Formula :=
  match depth with
  | 0 => exhausted
  | depth + 1 => do
    let start ← here
    if ← eat .not then
      enter .unary start .unary
      let inner ← unary calculus depth
      return .not inner
    else
      match ← [Quantifier.forAll, .forSome].findM? fun q => lookFor (.quantifier q) with
      | some q =>
        enter .unary start .quantifier
        quantifier calculus q depth
      | none =>
        enter .unary start .primary
        primary calculus depth

/-- A quantification, from its sign on. -/
def quantifier (calculus : Calculus) (q : Quantifier) (depth : Nat) : Scan Formula :=
  match depth with
  | 0 => exhausted
  | depth + 1 => do
    let start ← here
    if calculus.hasQuantifiers then
      let _ ← eat (.quantifier q)
      match ← name? with
      | none => stuck Expectation.variableName.text
      | some x =>
        separator
        enter .quantifier start .formula
        let body ← formula calculus depth
        return .quantified q x body
    else stuck Expectation.formulaWithoutQuantifiers.text

/-- A formula in parentheses, a constant or an atom. -/
def primary (calculus : Calculus) (depth : Nat) : Scan Formula :=
  match depth with
  | 0 => exhausted
  | depth + 1 => do
    let start ← here
    if ← eat .openParen then
      enter .primary start .formula
      let inner ← formula calculus depth
      expect .closeParen Expectation.closeParen.text
      return inner
    else if ← eat .bottom then return .bottom
    else if ← eat .top then return .top
    else
      match ← name? with
      | none => stuck Expectation.formula.text
      | some p =>
        if (← rest).head? = some '(' then
          if calculus.hasQuantifiers then
            expect .openParen "("
            enter .primary start .arguments
            let args ← arguments [] depth
            expect .closeParen Expectation.closeParen.text
            return .atom p args
          else stuck Expectation.connective.text
        else return .atom p []

end

/-- A formula, and nothing behind it. -/
def wholeText (calculus : Calculus) (depth : Nat) : Scan Formula := do
  let φ ← formula calculus depth
  expectEnd Expectation.connectiveOrEnd.text
  return φ

end Scan

/-- The formula that a text writes in a calculus, read by byte positions; `none` if the depth
does not suffice. -/
def Formula.scan (calculus : Calculus) (text : String) (depth : Nat) :
    Option (Except Halt Formula × Cursor) :=
  (Scan.wholeText calculus depth).run.run (.start text)

end NaturalDeduction
