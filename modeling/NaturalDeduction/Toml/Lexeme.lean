import NaturalDeduction.Toml.Number

/-!
# The small parts of a TOML text

Spaces, comments and line ends, texts in quotes, and keys. Every reader takes its part from the
front of a text and hands back a shorter rest.

A line ends with a line feed, which a carriage return may precede; a carriage return that stands
alone is refused everywhere. The only control character in a comment or in quotes is the tab.

## Main definitions

* `skipSpaces`, `skipComment`, `skipLines`: what may stand between the parts
* `Quotation.readText`: a text in one of the four kinds of quotes
* `readDottedKey`: keys with dots between them
-/

namespace NaturalDeduction.Toml

/-! ### Faults -/

/-- Why a text cannot be read on. -/
inductive Cause where
  | key
  | equalsSign
  | value
  | lineEnd
  | closingBracket
  | closingBrace
  /-- The text in quotes does not end, or holds a character that it may not hold. -/
  | quotedText
  | escape
  | integerSize
  /-- The key of a table in braces has been defined before. -/
  | conflict
  /-- Too many arrays and tables in braces stand in each other. -/
  | nesting
  | keyLength
deriving DecidableEq, Repr

/-- The cause in words. -/
def Cause.text : Cause → String
  | key => "a key was expected"
  | equalsSign => "an equals sign was expected"
  | value => "a value was expected"
  | lineEnd => "the end of the line was expected"
  | closingBracket => "a closing bracket was expected"
  | closingBrace => "a closing brace was expected"
  | quotedText => "the quoted text goes on with a character that it cannot hold, or does not end"
  | escape => "the escape has no meaning"
  | integerSize => "the integer does not fit into 64 bits"
  | conflict => "the key is defined already"
  | nesting => "the brackets and braces are nested too deeply"
  | keyLength => "the key has too many parts"

/-- A reading that came to nothing, and the text from the place where it did. -/
structure Halt where
  cause : Cause
  rest : List Char
deriving DecidableEq, Repr

/-! ### Spaces, comments and line ends -/

/-- The white space within a line. -/
def isSpace (c : Char) : Bool := c = ' ' || c = '\t'

/-- A character that may stand in a comment or in quotes. -/
def isPrintable (c : Char) : Bool := c = '\t' || (' ' ≤ c && c ≠ '\x7f')

/-- The text from its first character that is not a space. -/
def skipSpaces (s : List Char) : List Char := s.dropWhile isSpace

theorem length_skipSpaces_le (s : List Char) : (skipSpaces s).length ≤ s.length :=
  (List.dropWhile_suffix _).length_le

/-- The text without the comment that it begins with. -/
def skipComment : List Char → List Char
  | '#' :: rest => rest.dropWhile isPrintable
  | s => s

theorem length_skipComment_le (s : List Char) : (skipComment s).length ≤ s.length := by
  unfold skipComment
  split
  · exact Nat.le_succ_of_le (List.dropWhile_suffix _).length_le
  · exact Nat.le_refl _

/-- What follows the line end that the text begins with. -/
def lineEnd? : (s : List Char) → Option (Shorter s)
  | '\n' :: rest => some (.tail _ rest)
  | '\r' :: '\n' :: rest => some ⟨rest, Nat.lt_succ_of_lt (Nat.lt_succ_self _)⟩
  | _ => none

/-- What is left of a line after its last part: spaces and, if `comments`, a comment. -/
def skipTail (comments : Bool) (s : List Char) : List Char :=
  if comments then skipComment (skipSpaces s) else skipSpaces s

theorem length_skipTail_le (comments : Bool) (s : List Char) :
    (skipTail comments s).length ≤ s.length := by
  unfold skipTail
  split
  · exact Nat.le_trans (length_skipComment_le _) (length_skipSpaces_le s)
  · exact length_skipSpaces_le s

/-- The text without the spaces, line ends and, if `comments`, comments that it begins with. -/
def skipLines (comments : Bool) (s : List Char) : List Char :=
  match lineEnd? (skipTail comments s) with
  | none => skipTail comments s
  | some rest =>
    have : rest.val.length < s.length :=
      Nat.lt_of_lt_of_le rest.property (length_skipTail_le comments s)
    skipLines comments rest
termination_by s.length

theorem length_skipLines_le (comments : Bool) (s : List Char) :
    (skipLines comments s).length ≤ s.length := by
  fun_induction skipLines comments s with
  | case1 s _ => exact length_skipTail_le comments s
  | case2 s rest _ h ih => exact Nat.le_of_lt (Nat.lt_of_le_of_lt ih h)

/-! ### Texts in quotes -/

theorem length_drop_lt (n : Nat) (c : Char) (s : List Char) :
    (s.drop n).length < (c :: s).length := by
  simp only [List.length_drop, List.length_cons]
  omega

/-- A way of quoting: with which character, whether a backslash escapes, and whether the text may
take several lines. -/
structure Quotation where
  quote : Char
  escapes : Bool
  multiline : Bool
deriving DecidableEq, Repr

/-- The quotation on one line that a character opens. -/
def Quotation.ofChar? (c : Char) : Option Quotation :=
  if c = '"' then some ⟨c, true, false⟩
  else if c = '\'' then some ⟨c, false, false⟩
  else none

/-- The characters that stand for another one behind a backslash. -/
def escapeTable : List (Char × Char) :=
  [('b', '\x08'), ('t', '\t'), ('n', '\n'), ('f', '\x0c'), ('r', '\r'), ('"', '"'), ('\\', '\\')]

/-- The character with a code point that is written in exactly `n` hexadecimal digits. -/
def readCodePoint? (n : Nat) (s : List Char) : Option Char :=
  let digits := s.take n
  if digits.length = n then
    match digits.mapM (digit? 16) with
    | none => none
    | some values =>
      let c := Char.ofNat (ofDigits 16 values)
      if c.toNat = ofDigits 16 values then some c else none
  else none

namespace Quotation

/-- What the text behind a backslash stands for. A line end and all that is blank behind it
stand for nothing. -/
def readEscape? (q : Quotation) (s : List Char) : Option (Parsed (List Char) s.length) :=
  match s with
  | [] => none
  | c :: rest =>
    match escapeTable.lookup c with
    | some d => some ⟨[d], rest, length_lt_cons c rest⟩
    | none =>
      if c = 'u' then (readCodePoint? 4 rest).map fun d =>
        ⟨[d], rest.drop 4, length_drop_lt 4 c rest⟩
      else if c = 'U' then (readCodePoint? 8 rest).map fun d =>
        ⟨[d], rest.drop 8, length_drop_lt 8 c rest⟩
      else if q.multiline then
        (lineEnd? (skipSpaces (c :: rest))).map fun more =>
          ⟨[], skipLines false more.val,
            Nat.lt_of_le_of_lt (length_skipLines_le false more.val)
              (Nat.lt_of_lt_of_le more.property (length_skipSpaces_le _))⟩
      else none

/-- The number of quotes at the front of a text that belong together: a closing mark of three and up
to two that are part of the quoted text. -/
def closingRun (q : Quotation) (s : List Char) : Nat := ((s.take 5).takeWhile (· = q.quote)).length

/-- The quoted text up to and including its closing mark. -/
def readText (q : Quotation) (s : List Char) : Except Halt (Parsed (List Char) s.length) :=
  match s with
  | [] => .error ⟨.quotedText, []⟩
  | c :: rest =>
    if c = q.quote ∧ q.multiline = false then .ok ⟨[], rest, length_lt_cons c rest⟩
    else if c = q.quote ∧ 3 ≤ q.closingRun (c :: rest) then
      .ok
        ⟨List.replicate (q.closingRun (c :: rest) - 3) c, rest.drop (q.closingRun (c :: rest) - 1),
          length_drop_lt _ c rest⟩
    else if c = '\\' ∧ q.escapes then
      match q.readEscape? rest with
      | none => .error ⟨.escape, c :: rest⟩
      | some start =>
        have h : start.rest.length < (c :: rest).length := Nat.lt_succ_of_lt start.length_lt
        match q.readText start.rest with
        | .error halt => .error halt
        | .ok more =>
          .ok ⟨start.value ++ more.value, more.rest, Nat.lt_trans more.length_lt h⟩
    else
      match if q.multiline then lineEnd? (c :: rest) else none with
      | some next =>
        match q.readText next with
        | .error halt => .error halt
        | .ok more => .ok ⟨'\n' :: more.value, more.rest, Nat.lt_trans more.length_lt next.property⟩
      | none =>
        if isPrintable c then
          match q.readText rest with
          | .error halt => .error halt
          | .ok more =>
            .ok ⟨c :: more.value, more.rest, Nat.lt_succ_of_lt more.length_lt⟩
        else .error ⟨.quotedText, c :: rest⟩
termination_by s.length
decreasing_by
  · exact h
  · exact next.property
  · exact Nat.lt_succ_self _

/-- The quotation that a text opens with, and what follows the opening mark. A line end directly
behind a mark of three quotes belongs to the mark. -/
def open? : (s : List Char) → Option (Quotation × Shorter s)
  | [] => none
  | c :: rest =>
    (Quotation.ofChar? c).map fun q =>
      match rest with
      | d :: e :: more =>
        if d = c ∧ e = c then
          match lineEnd? more with
          | none => ({ q with multiline := true }, ⟨more, by simp only [List.length_cons]; omega⟩)
          | some next =>
            ({ q with multiline := true },
              ⟨next, by have := next.property; simp only [List.length_cons]; omega⟩)
        else (q, .tail c (d :: e :: more))
      | rest => (q, .tail c rest)

end Quotation

/-! ### Keys -/

/-- Keys with dots between them: the last one is the key in the table that the others lead to. -/
structure DottedKey where
  path : List String
  key : String
deriving DecidableEq, Repr

/-- A character of a key without quotes. -/
def isBare (c : Char) : Bool := c.isAlphanum || c = '_' || c = '-'

/-- A single key, bare or in quotes on one line. -/
def readKey : (s : List Char) → Except Halt (Parsed String s.length)
  | [] => .error ⟨.key, []⟩
  | c :: rest =>
    match Quotation.ofChar? c with
    | some q =>
      match q.readText rest with
      | .error halt => .error halt
      | .ok text => .ok ((text.map String.ofList).widen (Nat.le_succ _))
    | none =>
      if isBare c then
        .ok ⟨String.ofList (c :: rest.takeWhile isBare), rest.dropWhile isBare,
          Nat.lt_succ_of_le (List.dropWhile_suffix _).length_le⟩
      else .error ⟨.key, c :: rest⟩

/-- Keys with dots between them. Spaces may stand around each key. -/
def readKeys (s : List Char) : Except Halt (Parsed DottedKey s.length) :=
  match readKey (skipSpaces s) with
  | .error halt => .error halt
  | .ok first =>
    have h : (skipSpaces first.rest).length < s.length :=
      Nat.lt_of_le_of_lt (length_skipSpaces_le _)
        (Nat.lt_of_lt_of_le first.length_lt (length_skipSpaces_le s))
    match hr : skipSpaces first.rest with
    | '.' :: rest =>
      have h : rest.length < s.length := Nat.lt_of_succ_lt (by simpa [hr] using h)
      match readKeys rest with
      | .error halt => .error halt
      | .ok others =>
        .ok ⟨⟨first.value :: others.value.path, others.value.key⟩, others.rest,
          Nat.lt_trans others.length_lt h⟩
    | rest => .ok ⟨⟨[], first.value⟩, rest, hr ▸ h⟩
termination_by s.length

/-- The largest number of keys that dots may join. -/
def dottedKeyLimit : Nat := 79

/-- Keys with dots between them, not more than are allowed. -/
def readDottedKey (s : List Char) : Except Halt (Parsed DottedKey s.length) :=
  match readKeys s with
  | .error halt => .error halt
  | .ok key => if key.value.path.length < dottedKeyLimit then .ok key else .error ⟨.keyLength, s⟩

end NaturalDeduction.Toml
