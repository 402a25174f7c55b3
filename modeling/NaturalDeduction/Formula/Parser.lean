import NaturalDeduction.Calculus
import NaturalDeduction.Formula.Symbol

/-!
# Reading formulas

The grammar, loosest first: `↔` and `→` associate to the right, `∨` and `∧` to the left, `¬` and the
quantifiers stand before what they govern. The body of a quantifier reaches to the closing
parenthesis or the end of the text. After the variable of a quantifier a comma or a dot may stand; a
dot that begins a dotted word such as `.not` belongs to the body instead.

The argument list of a predicate follows its name without a blank. Propositional formulas have
neither argument lists nor quantifiers.

## Implementation notes

The four binary connectives are a table, `Level.all`, and one pair of functions reads any tail of
it. The readers call each other on shorter texts, or on the same text with a shorter table, which is
the measure that they end by: (characters left, levels left).

A failed reading keeps the rest of the text from the offending token on. Positions are computed from
it at the very end, so a position is always the byte length of a part that was cut off in front: it
cannot fall inside a character. It also keeps the formulas that it had finished when it got stuck,
since a store that is filled while a text is read holds them from then on.

## Main definitions

* `Expectation`, `SyntaxError`: what a text lacks, and where
* `Formula.parse`: the formula that a text writes in a calculus
-/

namespace NaturalDeduction

/-! ### Errors -/

/-- What the reader could have gone on with at the place of an error. -/
inductive Expectation where
  | formula
  | formulaWithoutQuantifiers
  | variableName
  | name
  | closeParen
  /-- A sentence letter was followed by an argument list in the propositional calculus. -/
  | connective
  | connectiveOrEnd
deriving DecidableEq, Repr

/-- The expectation in words. -/
def Expectation.text : Expectation → String
  | formula => "a formula"
  | formulaWithoutQuantifiers => "a formula without quantifiers"
  | variableName => "a variable name"
  | name => "a name"
  | closeParen => ")"
  | connective => "a connective (predicates need the predicate calculus)"
  | connectiveOrEnd => "a connective or end of input"

/-- Why a text is not a formula. -/
structure SyntaxError where
  /-- The byte offset of the first token that the formula cannot go on with. -/
  position : Nat
  expected : Expectation
  /-- The first character of that token; `none` at the end of the text. -/
  found : Option Char
deriving DecidableEq, Repr

namespace SyntaxError

/-- The error in words. -/
def message (error : SyntaxError) : String :=
  let found :=
    match error.found with
    | none => "end of input"
    | some c => s!"`{c}`"
  s!"expected {error.expected.text}, found {found}"

/-- The byte offset behind the offending character, or the position itself at the
end of the text. -/
def stop (error : SyntaxError) : Nat :=
  error.position + (error.found.map Char.utf8Size).getD 0

end SyntaxError

/-- An error while its place is known only by what follows it. -/
structure Stuck where
  expected : Expectation
  /-- The text from the offending token on. -/
  rest : List Char
  /-- The formulas that were finished before, in the order of the text, without those that are part
  of another one among them. -/
  finished : List Formula
deriving DecidableEq, Repr

namespace Stuck

/-- The reader is stuck at the next token of `s`. -/
def before (expected : Expectation) (s : List Char) : Stuck := ⟨expected, Text.skipBlanks s, []⟩

/-- The reader got stuck behind a formula that it had finished. -/
def behind (φ : Formula) (stuck : Stuck) : Stuck := { stuck with finished := φ :: stuck.finished }

/-- The error in a text whose reading got stuck. -/
def locate (stuck : Stuck) (text : List Char) : SyntaxError where
  position := Text.utf8Length text - Text.utf8Length stuck.rest
  expected := stuck.expected
  found := stuck.rest.head?

end Stuck

/-! ### Readers -/

/-- The names of an argument list behind its opening parenthesis, at least one, up to and including
the closing parenthesis. -/
def readArguments (s : List Char) : Except Stuck (Parsed (List Name) s.length) :=
  match readName? s with
  | none => .error (.before .name s)
  | some (name, s₁) =>
    match Symbol.comma.read? s₁ with
    | some s₂ =>
      have h : s₂.val.length < s.length := Nat.lt_trans s₂.property s₁.property
      match readArguments s₂ with
      | .error stuck => .error stuck
      | .ok others => .ok ⟨name :: others.value, others.rest, Nat.lt_trans others.length_lt h⟩
    | none =>
      match Symbol.closeParen.read? s₁ with
      | none => .error (.before .closeParen s₁)
      | some s₂ => .ok ⟨[name], s₂, Nat.lt_trans s₂.property s₁.property⟩
termination_by s.length

/-- What follows an opening parenthesis that the text begins with at once, without a blank. -/
def readAdjacentParen? : (s : List Char) → Option (Shorter s)
  | '(' :: rest => some (.tail _ rest)
  | _ => none

/-- An atom: a name, and the argument list if a parenthesis follows directly. -/
def readAtom (calculus : Calculus) (s : List Char) : Except Stuck (Parsed Formula s.length) :=
  match readName? s with
  | none => .error (.before .formula s)
  | some (name, s₁) =>
    match readAdjacentParen? s₁ with
    | none => .ok ⟨.atom name [], s₁, s₁.property⟩
    | some s₂ =>
      if calculus.hasQuantifiers then
        match readArguments s₂ with
        | .error stuck => .error stuck
        | .ok args =>
          .ok ⟨.atom name args.value, args.rest,
            Nat.lt_trans args.length_lt (Nat.lt_trans s₂.property s₁.property)⟩
      else .error (.before .connective s₁)

/-- What follows the optional comma or dot between the variable of a quantifier and its body. -/
def skipSeparator (s : List Char) : List Char :=
  match Symbol.comma.read? s with
  | some rest => rest
  | none =>
    match Symbol.dot.read? s with
    | some rest => if Symbol.beginsDottedWord rest then s else rest
    | none => s

theorem length_skipSeparator_le (s : List Char) : (skipSeparator s).length ≤ s.length := by
  unfold skipSeparator
  split
  · rename_i rest _
    exact Nat.le_of_lt rest.property
  · split
    · rename_i rest _
      split
      · exact Nat.le_refl _
      · exact Nat.le_of_lt rest.property
    · exact Nat.le_refl _

/-- How a chain of one connective groups when no parentheses say so. -/
inductive Associativity where
  | left
  | right
deriving DecidableEq, Repr

/-- A level of precedence. -/
structure Level where
  connective : Connective
  associativity : Associativity
deriving DecidableEq, Repr

/-- The levels of the binary connectives, loosest first. -/
def Level.all : List Level := [⟨.iff, .right⟩, ⟨.implies, .right⟩, ⟨.or, .left⟩, ⟨.and, .left⟩]

@[simp]
theorem Level.length_all : Level.all.length = 4 := rfl

/-- The quantifier that the text begins with, and what follows its sign. -/
def readQuantifier? (s : List Char) : Option (Quantifier × Shorter s) :=
  [Quantifier.forAll, .forSome].findSome? fun q => ((Symbol.quantifier q).read? s).map (q, ·)

-- A call for the same text has fewer levels. A call behind a sign may start again with all four, so
-- each character counts for six. With one number as the measure a given text is read by evaluation.
mutual

/-- A formula in which the connectives outside parentheses and quantifiers are those of `levels`. -/
def readOperation (calculus : Calculus) (levels : List Level) (s : List Char) :
    Except Stuck (Parsed Formula s.length) :=
  match levels with
  | [] => readPrefixed calculus s
  | level :: tighter =>
    match readOperation calculus tighter s with
    | .error stuck => .error stuck
    | .ok left =>
      match level.associativity with
      | .left =>
        have : left.rest.length < s.length := left.length_lt
        match readChain calculus level.connective tighter left.value left.rest with
        | .error stuck => .error stuck
        | .ok chain => .ok (chain.widen left.length_lt)
      | .right =>
        match (Symbol.connective level.connective).read? left.rest with
        | none => .ok left
        | some s₁ =>
          have h : s₁.val.length < s.length := Nat.lt_trans s₁.property left.length_lt
          match readOperation calculus (level :: tighter) s₁ with
          | .error stuck => .error (stuck.behind left.value)
          | .ok right =>
            .ok ⟨.binary level.connective left.value right.value, right.rest,
              Nat.lt_trans right.length_lt h⟩
termination_by 6 * s.length + levels.length + 1

/-- The rest of a chain that groups to the left, whose part read so far is `left`. -/
def readChain (calculus : Calculus) (connective : Connective) (tighter : List Level)
    (left : Formula) (s : List Char) : Except Stuck (Parsed Formula (s.length + 1)) :=
  match (Symbol.connective connective).read? s with
  | none => .ok ⟨left, s, Nat.lt_succ_self _⟩
  | some s₁ =>
    match readOperation calculus tighter s₁ with
    | .error stuck => .error (stuck.behind left)
    | .ok right =>
      have h : right.rest.length < s.length := Nat.lt_trans right.length_lt s₁.property
      match readChain calculus connective tighter
        (.binary connective left right.value) right.rest with
      | .error stuck => .error stuck
      | .ok chain => .ok (chain.widen (Nat.le_succ_of_le h))
termination_by 6 * s.length + tighter.length

/-- A negation, a quantification, a formula in parentheses, a constant or an atom. -/
def readPrefixed (calculus : Calculus) (s : List Char) : Except Stuck (Parsed Formula s.length) :=
  match Symbol.not.read? s with
  | some s₁ =>
    match readPrefixed calculus s₁ with
    | .error stuck => .error stuck
    | .ok inner => .ok ⟨.not inner.value, inner.rest, Nat.lt_trans inner.length_lt s₁.property⟩
  | none =>
  match readQuantifier? s with
  | some (quantifier, s₁) =>
    if calculus.hasQuantifiers then
      match readName? s₁ with
      | none => .error (.before .variableName s₁)
      | some (x, s₂) =>
        have h : (skipSeparator s₂).length < s.length :=
          Nat.lt_of_le_of_lt (length_skipSeparator_le _) (Nat.lt_trans s₂.property s₁.property)
        match readOperation calculus Level.all (skipSeparator s₂) with
        | .error stuck => .error stuck
        | .ok body =>
          .ok ⟨.quantified quantifier x body.value, body.rest, Nat.lt_trans body.length_lt h⟩
    else .error (.before .formulaWithoutQuantifiers s)
  | none =>
  match Symbol.openParen.read? s with
  | some s₁ =>
    match readOperation calculus Level.all s₁ with
    | .error stuck => .error stuck
    | .ok inner =>
      match Symbol.closeParen.read? inner.rest with
      | none => .error ((Stuck.before .closeParen inner.rest).behind inner.value)
      | some s₂ =>
        .ok ⟨inner.value, s₂, Nat.lt_trans s₂.property (Nat.lt_trans inner.length_lt s₁.property)⟩
  | none =>
  match Symbol.bottom.read? s with
  | some s₁ => .ok ⟨.bottom, s₁, s₁.property⟩
  | none =>
  match Symbol.top.read? s with
  | some s₁ => .ok ⟨.top, s₁, s₁.property⟩
  | none => readAtom calculus s
termination_by 6 * s.length
decreasing_by all_goals have := Level.length_all; omega

end

/-- The formula that the whole of a text writes. -/
def Formula.read (calculus : Calculus) (s : List Char) : Except Stuck Formula :=
  match readOperation calculus Level.all s with
  | .error stuck => .error stuck
  | .ok parsed =>
    match Text.skipBlanks parsed.rest with
    | [] => .ok parsed.value
    | rest => .error ⟨.connectiveOrEnd, rest, [parsed.value]⟩

/-- The formula that a text writes in a calculus, or the first place where it stops being one. -/
def Formula.parse (calculus : Calculus) (text : String) : Except SyntaxError Formula :=
  (Formula.read calculus text.toList).mapError fun stuck => stuck.locate text.toList

end NaturalDeduction
