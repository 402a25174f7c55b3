import NaturalDeduction.Toml.Lexeme
import NaturalDeduction.Toml.Value

/-!
# Reading TOML texts

A TOML text is a list of directives: `key = value`, `[table]` and `[[series]]`, at most one on a
line. Reading has two halves. The text alone decides which directives it consists of; the directives
in their order then build the tables, where each may conflict with what earlier ones have defined.

Tables in braces stand on one line and have no comma behind their last entry. Arrays may take
several lines, with comments, and may have that comma. Both may stand in each other, up to a limit.

## Main definitions

* `Directive`, `readDirectives`: what a text consists of
* `Outline.follow`, `Directive.build`: the table that directives define
* `Toml.parse`: the table that a text defines
-/

namespace NaturalDeduction.Toml

/-! ### Values -/

/-- `true` or `false`. -/
def readBoolean? (s : List Char) : Option (Parsed Bool s.length) :=
  match h : Text.after? ['t', 'r', 'u', 'e'] s with
  | some rest => some ⟨true, rest, Text.length_lt_of_after?_eq_some h⟩
  | none =>
    match h : Text.after? ['f', 'a', 'l', 's', 'e'] s with
    | some rest => some ⟨false, rest, Text.length_lt_of_after?_eq_some h⟩
    | none => none

/-- A number, or a date or a time, which begin like numbers. -/
def readNumber (s : List Char) : Except Halt (Parsed Value s.length) :=
  match readMoment? s with
  | some m => .ok (m.map .moment)
  | none =>
  match readFloat? s with
  | some x => .ok (x.map .float)
  | none =>
  match readInteger? s with
  | none => .error ⟨.value, s⟩
  | some n => if fits n.value then .ok (n.map .integer) else .error ⟨.integerSize, s⟩

/-- A value that holds no other value. -/
def readScalar (s : List Char) : Except Halt (Parsed Value s.length) :=
  match Quotation.open? s with
  | some (q, rest) =>
    match q.readText rest with
    | .error halt => .error halt
    | .ok text =>
      .ok ((text.map fun cs => .string (String.ofList cs)).widen (Nat.le_of_lt rest.property))
  | none =>
  match readBoolean? s with
  | some b => .ok (b.map .boolean)
  | none => readNumber s

/-- How deep arrays and tables in braces may stand in each other. -/
def nestingLimit : Nat := 79

mutual

/-- A value in which arrays and tables in braces may be nested `room` deep. -/
def readValue (room : Nat) (s : List Char) : Except Halt (Parsed Value s.length) :=
  match s, room with
  | '[' :: rest, room + 1 =>
    match readElements room rest with
    | .error halt => .error halt
    | .ok elements => .ok ((elements.map .array).widen (Nat.le_succ _))
  | '\x7b' :: rest, room + 1 =>
    match readInline room [] rest with
    | .error halt => .error halt
    | .ok entries => .ok ((entries.map fun e => .table (closeEntries e)).widen (Nat.le_succ _))
  | '[' :: rest, 0 => .error ⟨.nesting, '[' :: rest⟩
  | '\x7b' :: rest, 0 => .error ⟨.nesting, '\x7b' :: rest⟩
  | s, _ => readScalar s
termination_by 2 * s.length

/-- The elements of an array from behind its opening bracket or a comma. -/
def readElements (room : Nat) (s : List Char) : Except Halt (Parsed (List Value) s.length) :=
  have h₀ : (skipLines true s).length ≤ s.length := length_skipLines_le true s
  match hs : skipLines true s with
  | ']' :: rest => .ok ⟨[], rest, Nat.lt_of_succ_le (by simpa [hs] using h₀)⟩
  | c :: more =>
    match readValue room (c :: more) with
    | .error halt => .error halt
    | .ok first =>
      have h₁ : (skipLines true first.rest).length < s.length :=
        Nat.lt_of_le_of_lt (length_skipLines_le true first.rest)
          (Nat.lt_of_lt_of_le first.length_lt (by simpa [hs] using h₀))
      match hr : skipLines true first.rest with
      | ']' :: rest =>
        .ok ⟨[first.value], rest, Nat.lt_of_succ_lt (by simpa [hr] using h₁)⟩
      | ',' :: rest =>
        have h₂ : rest.length < s.length := Nat.lt_of_succ_lt (by simpa [hr] using h₁)
        match readElements room rest with
        | .error halt => .error halt
        | .ok others =>
          .ok ⟨first.value :: others.value, others.rest, Nat.lt_trans others.length_lt h₂⟩
      | rest => .error ⟨.closingBracket, rest⟩
  | [] => .error ⟨.closingBracket, []⟩
termination_by 2 * s.length + 1
decreasing_by
  · have : (c :: more).length ≤ s.length := by simpa [hs] using h₀
    omega
  · omega

/-- A key and the value behind its equals sign. -/
def readPair (room : Nat) (s : List Char) : Except Halt (Parsed (DottedKey × Value) s.length) :=
  match readDottedKey s with
  | .error halt => .error halt
  | .ok key =>
    match hk : key.rest with
    | '=' :: rest =>
      have h : (skipSpaces rest).length < s.length :=
        Nat.lt_of_le_of_lt (length_skipSpaces_le rest)
          (Nat.lt_of_succ_lt (by simpa [hk] using key.length_lt))
      match readValue room (skipSpaces rest) with
      | .error halt => .error halt
      | .ok value => .ok ⟨(key.value, value.value), value.rest, Nat.lt_trans value.length_lt h⟩
    | rest => .error ⟨.equalsSign, rest⟩
termination_by 2 * s.length
decreasing_by omega

/-- The entries of a table in braces from behind its opening brace, after the
`entries` read so far. -/
def readInline (room : Nat) (entries : Entries) (s : List Char) :
    Except Halt (Parsed Entries s.length) :=
  have h₀ : (skipSpaces s).length ≤ s.length := length_skipSpaces_le s
  match hs : skipSpaces s, entries with
  | '\x7d' :: rest, [] => .ok ⟨[], rest, Nat.lt_of_succ_le (by simpa [hs] using h₀)⟩
  | _, _ =>
    match readPair room s with
    | .error halt => .error halt
    | .ok pair =>
      match entries.assign pair.value.1.key pair.value.2 pair.value.1.path with
      | none => .error ⟨.conflict, s⟩
      | some entries =>
        have h₁ : (skipSpaces pair.rest).length < s.length :=
          Nat.lt_of_le_of_lt (length_skipSpaces_le pair.rest) pair.length_lt
        match hr : skipSpaces pair.rest with
        | '\x7d' :: rest => .ok ⟨entries, rest, Nat.lt_of_succ_lt (by simpa [hr] using h₁)⟩
        | ',' :: rest =>
          have h₂ : rest.length < s.length := Nat.lt_of_succ_lt (by simpa [hr] using h₁)
          match readInline room entries rest with
          | .error halt => .error halt
          | .ok all => .ok ⟨all.value, all.rest, Nat.lt_trans all.length_lt h₂⟩
        | rest => .error ⟨.closingBrace, rest⟩
termination_by 2 * s.length + 1
decreasing_by all_goals omega

end

/-! ### Directives -/

/-- What a line of a TOML text asks for. -/
inductive Directive where
  /-- The line `key = value`. -/
  | assign (key : DottedKey) (value : Value)
  /-- The header `[key]`. -/
  | openTable (key : DottedKey)
  /-- The header `[[key]]`. -/
  | openSeries (key : DottedKey)
deriving Repr

/-- A dotted key up to and including the brackets that close a header. -/
def readHeader (closing : List Char) (s : List Char) : Except Halt (Parsed DottedKey s.length) :=
  match readDottedKey s with
  | .error halt => .error halt
  | .ok key =>
    match h : Text.after? closing key.rest with
    | none => .error ⟨.closingBracket, key.rest⟩
    | some rest =>
      have : rest.length ≤ key.rest.length := by simp [Text.after?_eq_some_iff.1 h]
      .ok ⟨key.value, rest, Nat.lt_of_le_of_lt this key.length_lt⟩

/-- A directive that the text begins with. -/
def readDirective : (s : List Char) → Except Halt (Parsed Directive s.length)
  | '[' :: '[' :: rest =>
    match readHeader [']', ']'] rest with
    | .error halt => .error halt
    | .ok key => .ok ((key.map .openSeries).widen (by simp only [List.length_cons]; omega))
  | '[' :: rest =>
    match readHeader [']'] rest with
    | .error halt => .error halt
    | .ok key => .ok ((key.map .openTable).widen (Nat.le_succ _))
  | s =>
    match readPair nestingLimit s with
    | .error halt => .error halt
    | .ok pair => .ok (pair.map fun p => .assign p.1 p.2)

/-- The directives of a text. -/
def readDirectives (s : List Char) : Except Halt (List Directive) :=
  have h₀ : (skipTail true s).length ≤ s.length := length_skipTail_le true s
  match lineEnd? (skipTail true s) with
  | some rest =>
    have : rest.val.length < s.length := Nat.lt_of_lt_of_le rest.property h₀
    readDirectives rest
  | none =>
    match hs : skipTail true s with
    | [] => .ok []
    | c :: more =>
      match readDirective (c :: more) with
      | .error halt => .error halt
      | .ok first =>
        have h₁ : (skipTail true first.rest).length < s.length :=
          Nat.lt_of_le_of_lt (length_skipTail_le true first.rest)
            (Nat.lt_of_lt_of_le first.length_lt (by simpa [hs] using h₀))
        match lineEnd? (skipTail true first.rest) with
        | some rest =>
          have : rest.val.length < s.length := Nat.lt_trans rest.property h₁
          match readDirectives rest with
          | .error halt => .error halt
          | .ok others => .ok (first.value :: others)
        | none =>
          match skipTail true first.rest with
          | [] => .ok [first.value]
          | rest => .error ⟨.lineEnd, rest⟩
termination_by s.length

/-! ### What directives define -/

/-- What has been defined so far, and the table to which the next lines add. -/
structure Outline where
  entries : Entries
  /-- The keys of the last header, none in front of the first one. -/
  header : List String

namespace Outline

/-- Before the first directive nothing is defined, and lines add to the whole. -/
def empty : Outline := ⟨[], []⟩

/-- What is defined after a directive; `none` if it conflicts with what is defined already. -/
def follow (outline : Outline) : Directive → Option Outline
  | .assign key value =>
    (Entries.within (Entries.assign key.key value key.path) outline.header outline.entries).map
      fun entries =>
      { outline with entries }
  | .openTable key =>
    (Entries.openTable key.path key.key outline.entries).map fun entries =>
      ⟨entries, key.path ++ [key.key]⟩
  | .openSeries key =>
    (Entries.openSeries key.path key.key outline.entries).map fun entries =>
      ⟨entries, key.path ++ [key.key]⟩

end Outline

/-- The table that directives define, in their order. -/
def Directive.build (directives : List Directive) : Option Value :=
  (directives.foldlM Outline.follow Outline.empty).map fun outline =>
    .table (closeEntries outline.entries)

/-! ### Texts -/

/-- Why a text is not TOML. -/
inductive Fault where
  /-- A row of the text, counted from 1, cannot be read. -/
  | unreadable (row : Nat) (cause : Cause)
  /-- Two directives define the same key. -/
  | conflict
deriving DecidableEq, Repr

/-- The fault in words. -/
def Fault.message : Fault → String
  | unreadable row cause => s!"row {row}: {cause.text}"
  | conflict => "a key or a table is defined twice"

/-- The place of a halt in the text whose reading came to it. -/
def Halt.locate (halt : Halt) (text : List Char) : Fault :=
  .unreadable ((text.take (text.length - halt.rest.length)).count '\n' + 1) halt.cause

/-- The text behind the mark that says how its bytes are ordered, if it begins with one. -/
def skipByteOrderMark : List Char → List Char
  | '\ufeff' :: rest => rest
  | s => s

/-- The table that a text defines. -/
def parse (text : String) : Except Fault Value :=
  match readDirectives (skipByteOrderMark text.toList) with
  | .error halt => .error (halt.locate text.toList)
  | .ok directives =>
    match Directive.build directives with
    | none => .error .conflict
    | some table => .ok table

end NaturalDeduction.Toml
