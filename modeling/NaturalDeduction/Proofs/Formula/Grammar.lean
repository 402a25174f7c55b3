import NaturalDeduction.Calculus
import NaturalDeduction.Formula.Symbol

/-!
# The grammar of formulas

What it means for a text to write a formula, said without a reader. Loosest first:

```
biconditional := implication ( ↔ biconditional )?
implication   := disjunction ( → implication )?
disjunction   := ( disjunction ∨ )? conjunction
conjunction   := ( conjunction ∧ )? prefixed
prefixed      := ¬ prefixed | quantifier name separator? biconditional
               | ( biconditional ) | ⊥ | ⊤ | name | name( name , … , name )
```

## Why every phrase knows what follows it

The tokens of a text cannot be found before its phrases: `forall` is a name behind a quantifier and
a quantifier where a formula may begin, and `_|_` is a contradiction there but, behind a formula,
the end of a name that a bar follows. So the grammar speaks of characters. A phrase is a relation
between a text and the text behind the phrase, and the second is looked at in four places: a name
goes on as far as it can, a spelling that ends like a word is no symbol where the word goes on, a
name is not a formula where a quantifier or a constant is written, and the body of a quantifier has
to reach as far as it can.

Blanks may stand in front of every token except the parenthesis that opens an argument list.

## Main definitions

* `Symbol.Token`, `NameToken`: the next token is a symbol, or a name
* `Rank`: how tightly a phrase holds together
* `Phrase`: the phrases; one constructor for each production of the grammar
* `Formula.WrittenAs`: a text writes a formula
-/

namespace NaturalDeduction

/-! ### Tokens -/

/-- Nothing but blanks stands in `s` before `rest`. -/
def Text.Blanks (s rest : List Char) : Prop :=
  ∃ blanks, (∀ c ∈ blanks, Text.isBlank c = true) ∧ s = blanks ++ rest

namespace Symbol

/-- A spelling of the symbol begins the text, and `rest` follows. Where the spelling ends like a
word, the word ends there. -/
def At (symbol : Symbol) (s rest : List Char) : Prop :=
  ∃ spelling ∈ symbol.spellings, s = spelling ++ rest ∧
    ¬(spelling.getLast?.any isNameChar = true ∧ continuesName rest = true)

/-- The next token is the symbol. -/
def Token (symbol : Symbol) (s rest : List Char) : Prop := ∃ t, Text.Blanks s t ∧ symbol.At t rest

/-- The symbols that go before a name where a formula may begin. -/
def isReserved : Symbol → Bool
  | quantifier _ | bottom | top => true
  | _ => false

end Symbol

/-- Names that can be written: a letter or an underscore, then letters, digits and underscores. -/
def IsIdentifier (name : Name) : Prop :=
  ∃ c tail, name.toList = c :: tail ∧ isNameStart c = true ∧ ∀ d ∈ tail, isNameChar d = true

/-- The next token is the name `x`, which ends where `rest` begins. -/
def NameToken (x : Name) (s rest : List Char) : Prop :=
  IsIdentifier x ∧ Text.Blanks s (x.toList ++ rest) ∧ continuesName rest = false

/-- The next token can be read as a quantifier, a contradiction or a tautology. -/
def BeginsReserved (s : List Char) : Prop :=
  ∃ (symbol : Symbol) (rest : List Char), symbol.isReserved = true ∧ symbol.Token s rest

/-- A dot in front of the text would begin a symbol such as `.not`. -/
def CompletesDotted (s : List Char) : Prop :=
  ∃ (symbol : Symbol) (rest : List Char), symbol ≠ .dot ∧ symbol.At ('.' :: s) rest

/-- The next token is a closing parenthesis, or there is none. -/
def EndsPhrase (s : List Char) : Prop :=
  Text.Blanks s [] ∨ ∃ rest, Symbol.closeParen.Token s rest

/-! ### Parts of phrases -/

/-- The names of an argument list and the parenthesis that closes it. -/
inductive Arguments : (s : List Char) → List Name → (rest : List Char) → Prop
  | last {x : Name} {s s₁ rest : List Char} (name : NameToken x s s₁)
      (close : Symbol.closeParen.Token s₁ rest) : Arguments s [x] rest
  | more {x : Name} {xs : List Name} {s s₁ s₂ rest : List Char} (name : NameToken x s s₁)
      (comma : Symbol.comma.Token s₁ s₂) (others : Arguments s₂ xs rest) :
      Arguments s (x :: xs) rest

/-- What may stand between the variable of a quantifier and the body. A dot that begins a symbol is
part of the body. -/
inductive Separator : (s rest : List Char) → Prop
  | none {s : List Char} : Separator s s
  | comma {s rest : List Char} (comma : Symbol.comma.Token s rest) : Separator s rest
  | dot {s rest : List Char} (dot : Symbol.dot.Token s rest) (single : ¬CompletesDotted rest) :
      Separator s rest

/-- How tightly a phrase holds together, loosest first. -/
inductive Rank where
  | biconditional
  | implication
  | disjunction
  | conjunction
  | prefixed
deriving DecidableEq, Repr

/-! ### Phrases -/

/-- The text `s` begins with a phrase of the given rank that writes a formula, and
`rest` follows. -/
inductive Phrase (calculus : Calculus) :
    Rank → (s : List Char) → Formula → (rest : List Char) → Prop
  /-- `↔` groups to the right. -/
  | iff {φ ψ : Formula} {s s₁ s₂ rest : List Char} (left : Phrase calculus .implication s φ s₁)
      (sign : (Symbol.connective .iff).Token s₁ s₂)
      (right : Phrase calculus .biconditional s₂ ψ rest) :
      Phrase calculus .biconditional s (.iff φ ψ) rest
  | ofImplication {φ : Formula} {s rest : List Char} (h : Phrase calculus .implication s φ rest) :
      Phrase calculus .biconditional s φ rest
  /-- `→` groups to the right. -/
  | implies {φ ψ : Formula} {s s₁ s₂ rest : List Char} (left : Phrase calculus .disjunction s φ s₁)
      (sign : (Symbol.connective .implies).Token s₁ s₂)
      (right : Phrase calculus .implication s₂ ψ rest) :
      Phrase calculus .implication s (.implies φ ψ) rest
  | ofDisjunction {φ : Formula} {s rest : List Char} (h : Phrase calculus .disjunction s φ rest) :
      Phrase calculus .implication s φ rest
  /-- `∨` groups to the left. -/
  | or {φ ψ : Formula} {s s₁ s₂ rest : List Char} (left : Phrase calculus .disjunction s φ s₁)
      (sign : (Symbol.connective .or).Token s₁ s₂)
      (right : Phrase calculus .conjunction s₂ ψ rest) :
      Phrase calculus .disjunction s (.or φ ψ) rest
  | ofConjunction {φ : Formula} {s rest : List Char} (h : Phrase calculus .conjunction s φ rest) :
      Phrase calculus .disjunction s φ rest
  /-- `∧` groups to the left. -/
  | and {φ ψ : Formula} {s s₁ s₂ rest : List Char} (left : Phrase calculus .conjunction s φ s₁)
      (sign : (Symbol.connective .and).Token s₁ s₂)
      (right : Phrase calculus .prefixed s₂ ψ rest) :
      Phrase calculus .conjunction s (.and φ ψ) rest
  | ofPrefixed {φ : Formula} {s rest : List Char} (h : Phrase calculus .prefixed s φ rest) :
      Phrase calculus .conjunction s φ rest
  | not {φ : Formula} {s s₁ rest : List Char} (sign : Symbol.not.Token s s₁)
      (inner : Phrase calculus .prefixed s₁ φ rest) : Phrase calculus .prefixed s (.not φ) rest
  /-- The body reaches to the closing parenthesis or to the end of the text. -/
  | quantified {q : Quantifier} {x : Name} {φ : Formula} {s s₁ s₂ s₃ rest : List Char}
      (predicate : calculus = .predicate) (sign : (Symbol.quantifier q).Token s s₁)
      (bound : NameToken x s₁ s₂) (separator : Separator s₂ s₃)
      (body : Phrase calculus .biconditional s₃ φ rest) (greedy : EndsPhrase rest) :
      Phrase calculus .prefixed s (.quantified q x φ) rest
  | parentheses {φ : Formula} {s s₁ s₂ rest : List Char} (opening : Symbol.openParen.Token s s₁)
      (inner : Phrase calculus .biconditional s₁ φ s₂) (close : Symbol.closeParen.Token s₂ rest) :
      Phrase calculus .prefixed s φ rest
  | bottom {s rest : List Char} (sign : Symbol.bottom.Token s rest) :
      Phrase calculus .prefixed s .bottom rest
  | top {s rest : List Char} (sign : Symbol.top.Token s rest) :
      Phrase calculus .prefixed s .top rest
  | letter {p : Name} {s rest : List Char} (name : NameToken p s rest) (free : ¬BeginsReserved s) :
      Phrase calculus .prefixed s (.atom p []) rest
  /-- No blank stands between the name and the parenthesis. -/
  | application {p : Name} {args : List Name} {s s₁ rest : List Char}
      (predicate : calculus = .predicate) (name : NameToken p s ('(' :: s₁))
      (free : ¬BeginsReserved s) (arguments : Arguments s₁ args rest) :
      Phrase calculus .prefixed s (.atom p args) rest

/-- The whole of the text writes the formula. -/
def Formula.WrittenAs (calculus : Calculus) (φ : Formula) (s : List Char) : Prop :=
  ∃ rest, Phrase calculus .biconditional s φ rest ∧ Text.Blanks rest []

end NaturalDeduction
