import NaturalDeduction.Formula.Basic
import NaturalDeduction.Text.Blank
import NaturalDeduction.Text.Parsed

/-!
# Symbols and names in the text of a formula

Every symbol of the language has one or more spellings: its mathematical sign, signs that can be
typed on any keyboard, and words or dotted words. A reader of formulas asks for the next symbol or
the next name; blanks before either are skipped.

A spelling that ends like a word may not run on into a longer word: `forallx` is a name, and `.notP`
is no negation.

## Main definitions

* `Symbol.spellings`: the table
* `Symbol.read?`: the text after a symbol, if the text begins with one
* `readName?`: the text after a name, and the name
-/

namespace NaturalDeduction

/-- The symbols of the language of formulas. -/
inductive Symbol where
  | not
  | connective (c : Connective)
  | quantifier (q : Quantifier)
  | bottom
  | top
  | openParen
  | closeParen
  | comma
  | dot
deriving DecidableEq, Repr

namespace Symbol

/-- The ways to write a symbol. The order matters only where one spelling begins another. -/
def spellings : Symbol → List (List Char)
  | not => [['¬'], ['~'], ['.', 'n', 'o', 't']]
  | connective .and => [['∧'], ['&'], ['/', '\\'], ['.', 'a', 'n', 'd']]
  | connective .or => [['∨'], ['\\', '/'], ['|'], ['.', 'o', 'r']]
  | connective .implies => [['→'], ['-', '>'], ['.', 'i', 'm', 'p', 'l']]
  | connective .iff =>
    [['↔'], ['≡'], ['<', '-', '>'], ['=', '=', '='], ['.', 'b', 'i', 'c', 'o', 'n'],
     ['.', 'e', 'q', 'u', 'i', 'v']]
  | quantifier .forAll => [['∀'], ['f', 'o', 'r', 'a', 'l', 'l']]
  | quantifier .forSome => [['∃'], ['e', 'x', 'i', 's', 't', 's']]
  | bottom => [['⊥'], ['_', '|', '_'], ['.', 'c', 'o', 'n']]
  | top => [['⊤'], ['^', '|', '^'], ['.', 't', 'a', 'u', 't']]
  | openParen => [['(']]
  | closeParen => [[')']]
  | comma => [[',']]
  | dot => [['.']]

end Symbol

/-! ### Names -/

/-- A character that a name can begin with: an ASCII letter or an underscore. -/
def isNameStart (c : Char) : Bool := c.isAlpha || c = '_'

/-- A character that a name can go on with: an ASCII letter or digit, or an underscore. -/
def isNameChar (c : Char) : Bool := c.isAlphanum || c = '_'

/-- Whether a text goes on with a character of a name. -/
def continuesName (s : List Char) : Bool := s.head?.any isNameChar

/-- The name that the text begins with, after blanks, and what follows it. A name is read as
far as it goes. -/
def readName? (s : List Char) : Option (Name × Shorter s) :=
  match h : Text.skipBlanks s with
  | [] => none
  | c :: rest =>
    if isNameStart c then
      some (String.ofList (c :: rest.takeWhile isNameChar), ⟨rest.dropWhile isNameChar, by
        have := Text.length_skipBlanks_le s
        have := (List.dropWhile_suffix isNameChar (l := rest)).length_le
        simp_all only [List.length_cons]
        omega⟩)
    else none

/-! ### Symbols -/

namespace Symbol

/-- What follows a spelling, unless the spelling ends like a word and the text runs on with it. -/
def afterSpelling? (spelling s : List Char) : Option (List Char) :=
  (Text.after? spelling s).filter fun rest =>
    !(spelling.getLast?.any isNameChar && continuesName rest)

/-- What follows the first spelling of the symbol that the text begins with. -/
def after? (symbol : Symbol) (s : List Char) : Option (List Char) :=
  symbol.spellings.findSome? fun spelling => afterSpelling? spelling s

theorem spellings_ne_nil {symbol : Symbol} {spelling : List Char}
    (h : spelling ∈ symbol.spellings) : spelling ≠ [] := by
  rintro rfl
  cases symbol with
  | connective c => cases c <;> simp [spellings] at h
  | quantifier q => cases q <;> simp [spellings] at h
  | _ => simp [spellings] at h

theorem eq_append_of_after? {symbol : Symbol} {s rest : List Char}
    (h : symbol.after? s = some rest) :
    ∃ spelling ∈ symbol.spellings, s = spelling ++ rest := by
  obtain ⟨spelling, hmem, hspell⟩ := List.exists_of_findSome?_eq_some h
  refine ⟨spelling, hmem, ?_⟩
  simp only [afterSpelling?, Option.filter_eq_some_iff] at hspell
  exact Text.after?_eq_some_iff.1 hspell.1

theorem length_lt_of_after? {symbol : Symbol} {s rest : List Char}
    (h : symbol.after? s = some rest) : rest.length < s.length := by
  obtain ⟨spelling, hmem, rfl⟩ := eq_append_of_after? h
  have := List.length_pos_iff.2 (spellings_ne_nil hmem)
  simp only [List.length_append]
  omega

/-- What follows the symbol, if the text begins with it after blanks. -/
def read? (symbol : Symbol) (s : List Char) : Option (Shorter s) :=
  match h : symbol.after? (Text.skipBlanks s) with
  | none => none
  | some rest =>
    some ⟨rest, Nat.lt_of_lt_of_le (length_lt_of_after? h) (Text.length_skipBlanks_le s)⟩

/-- The words that mean a symbol when a dot stands before them. -/
def dottedWords : List (List Char) :=
  [not, connective .and, connective .or, connective .implies, connective .iff, bottom, top].flatMap
    fun symbol => symbol.spellings.filterMap (Text.after? ['.'])

/-- Whether a text, which stands behind a dot, makes that dot the beginning of a dotted word. -/
def beginsDottedWord (s : List Char) : Bool :=
  dottedWords.any fun word => (Text.after? word s).any fun rest => !continuesName rest

end Symbol

end NaturalDeduction
