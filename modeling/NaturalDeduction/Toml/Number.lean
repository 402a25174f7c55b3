import NaturalDeduction.Number.Binary64
import NaturalDeduction.Text.Blank
import NaturalDeduction.Text.Parsed

/-!
# Numbers in TOML

Integers are decimal, with an optional sign, or have a mark in front that selects another base.
Floats are decimal, with a fraction or an exponent or both, or one of the words `inf` and `nan`, and
have an optional sign. A decimal integer, also one in front of a fraction, begins with the digit
zero only if it is zero.

A single underscore may stand between two digits.

## Main definitions

* `readDigits?`: digits in a base
* `readInteger?`: an integer in one of four bases, of any size
* `readFloat?`: a float
-/

namespace NaturalDeduction.Toml

/-! ### Digits -/

/-- The value of a digit in a base up to 16. -/
def digit? (base : Nat) (c : Char) : Option Nat :=
  let value :=
    if c.isDigit then c.toNat - '0'.toNat
    else if 'a' ≤ c ∧ c ≤ 'f' then c.toNat - 'a'.toNat + 10
    else if 'A' ≤ c ∧ c ≤ 'F' then c.toNat - 'A'.toNat + 10
    else base
  if value < base then some value else none

/-- The number that digits write, the most significant one first. -/
def ofDigits (base : Nat) (digits : List Nat) : Nat :=
  digits.foldl (fun value d => base * value + d) 0

/-- The digits that follow a digit, and the rest. A single underscore may stand before each. -/
def moreDigits (base : Nat) : List Char → List Nat × List Char
  | [] => ([], [])
  | '_' :: c :: rest =>
    match digit? base c with
    | none => ([], '_' :: c :: rest)
    | some d => (d :: (moreDigits base rest).1, (moreDigits base rest).2)
  | c :: rest =>
    match digit? base c with
    | none => ([], c :: rest)
    | some d => (d :: (moreDigits base rest).1, (moreDigits base rest).2)

theorem length_moreDigits_le (base : Nat) (s : List Char) :
    (moreDigits base s).2.length ≤ s.length := by
  fun_induction moreDigits base s <;> simp_all <;> omega

/-- The digits that a text begins with, at least one. -/
def readDigits? (base : Nat) : (s : List Char) → Option (Parsed (List Nat) s.length)
  | [] => none
  | c :: rest =>
    (digit? base c).map fun d =>
      ⟨d :: (moreDigits base rest).1, (moreDigits base rest).2,
        Nat.lt_succ_of_le (length_moreDigits_le base rest)⟩

/-! ### Signs and decimal integers -/

/-- Whether a number is negative by the sign in front of it, and the number without the sign. -/
def readSign : List Char → Bool × List Char
  | '-' :: rest => (true, rest)
  | '+' :: rest => (false, rest)
  | s => (false, s)

theorem length_readSign_le (s : List Char) : (readSign s).2.length ≤ s.length := by
  unfold readSign
  split <;> simp

/-- What follows an optional sign, with whether the sign is a minus. -/
def readSigned? {α : Type} (read : (s : List Char) → Option (Parsed α s.length)) (s : List Char) :
    Option (Parsed (Bool × α) s.length) :=
  (read (readSign s).2).map fun p => (p.map ((readSign s).1, ·)).widen (length_readSign_le s)

/-- The digits of a decimal integer without a sign. -/
def readDecimal? (s : List Char) : Option (Parsed (List Nat) s.length) :=
  (readDigits? 10 s).filter fun digits => digits.value.head? ≠ some 0 || digits.value.length = 1

/-! ### Integers -/

/-- The bases that a mark in front of the digits selects. -/
def markedBases : List (List Char × Nat) := [(['0', 'x'], 16), (['0', 'o'], 8), (['0', 'b'], 2)]

/-- The base of the digits, and the digits. -/
def markedBase (s : List Char) : Option (Nat × List Char) :=
  markedBases.findSome? fun mark => (Text.after? mark.1 s).map (mark.2, ·)

theorem length_le_of_markedBase {s rest : List Char} {base : Nat}
    (h : markedBase s = some (base, rest)) : rest.length ≤ s.length := by
  obtain ⟨mark, _, h⟩ := List.exists_of_findSome?_eq_some h
  obtain ⟨after, h, heq⟩ := Option.map_eq_some_iff.1 h
  cases heq
  simp [Text.after?_eq_some_iff.1 h]

/-- The integer with a sign and a size. -/
def signed (negative : Bool) (size : Nat) : Int := if negative then -size else size

/-- An integer in any of the bases. -/
def readInteger? (s : List Char) : Option (Parsed Int s.length) :=
  match h : markedBase s with
  | none => (readSigned? readDecimal? s).map (·.map fun p => signed p.1 (ofDigits 10 p.2))
  | some (base, rest) =>
    (readDigits? base rest).map fun digits =>
      (digits.map fun values => (ofDigits base values : Int)).widen (length_le_of_markedBase h)

/-- The integers that fit into 64 bits. -/
def fits (n : Int) : Bool := Int64.minValue.toInt ≤ n && n ≤ Int64.maxValue.toInt

/-! ### Floats -/

/-- The digits behind a decimal point. -/
def readFraction? (s : List Char) : Option (Parsed (List Nat) s.length) :=
  (readOneOf? ['.'] s).bind (·.andThen fun _ => readDigits? 10)

/-- The power of ten behind its mark. Its digits may begin with zeros. -/
def readExponent? (s : List Char) : Option (Parsed Int s.length) :=
  (readOneOf? ['e', 'E'] s).bind (·.andThen fun _ s =>
    (readSigned? (readDigits? 10) s).map (·.map fun p => signed p.1 (ofDigits 10 p.2)))

/-- What a float is written with, its sign apart. -/
structure FloatParts where
  whole : List Nat
  fraction : Option (List Nat)
  exponent : Option Int
deriving DecidableEq, Repr

/-- A float in digits. A decimal integer with neither a fraction nor an exponent is none. -/
def readFloatParts? (s : List Char) : Option (Parsed FloatParts s.length) :=
  ((readDecimal? s).map fun whole => (whole.andMaybe readFraction?).andMaybe readExponent?).bind
    fun p =>
      match p.value with
      | ((_, none), none) => none
      | ((whole, fraction), exponent) => some (p.map fun _ => ⟨whole, fraction, exponent⟩)

/-- The number of the format `binary64` nearest to a float. -/
def FloatParts.round (parts : FloatParts) (negative : Bool) : Binary64 :=
  let fraction := parts.fraction.getD []
  Binary64.ofDecimal negative (ofDigits 10 (parts.whole ++ fraction))
    (parts.exponent.getD 0 - fraction.length)

/-- One of the words for numbers that cannot be written in digits; not-a-number is `none`. -/
def readFloatWord? (s : List Char) : Option (Parsed (Bool → Option Binary64) s.length) :=
  match h : Text.after? ['i', 'n', 'f'] s with
  | some rest =>
    some ⟨fun negative => some (.infinite negative), rest, Text.length_lt_of_after?_eq_some h⟩
  | none =>
    match h : Text.after? ['n', 'a', 'n'] s with
    | some rest => some ⟨fun _ => none, rest, Text.length_lt_of_after?_eq_some h⟩
    | none => none

/-- A float; not-a-number is `none`. Digits whose value is beyond the format write a float only with
a minus sign in front. -/
def readFloat? (s : List Char) : Option (Parsed (Option Binary64) s.length) :=
  match readSigned? readFloatParts? s with
  | some p =>
    let x := p.value.2.round p.value.1
    if x = .infinite false then none else some (p.map fun _ => some x)
  | none => (readSigned? readFloatWord? s).map (·.map fun p => p.2 p.1)

end NaturalDeduction.Toml
