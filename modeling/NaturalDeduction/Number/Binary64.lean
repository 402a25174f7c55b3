/-!
# Double-precision numbers

Numbers in the IEEE 754 format `binary64`: a sign, 53 significant bits and an exponent. A similarity
is an exact fraction, but it is passed on and printed as such a number, and a float in a TOML text
stands for one. All arithmetic here is exact, on natural numbers; the one place where anything is
lost is `Binary64.ofFraction`.

## Main definitions

* `roundDiv`: a quotient to the nearest natural number, a half to the even one
* `Binary64.ofRat`, `Binary64.ofDecimal`: the number of the format nearest to a fraction, and to
  digits with a power of ten
* `Binary64.value?`: the fraction that a number stands for
* `Binary64.bits`: its encoding in 64 bits
* `percentText`: a share in percent, without decimals
-/

namespace NaturalDeduction

/-- The natural number nearest to `numerator / denominator`; of two equally near, the even one. -/
def roundDiv (numerator denominator : Nat) : Nat :=
  let quotient := numerator / denominator
  let twice := 2 * (numerator % denominator)
  if denominator < twice then quotient + 1
  else if twice < denominator then quotient
  else quotient + quotient % 2

/-- A number of the format `binary64`, not-a-number apart. -/
inductive Binary64 where
  /-- The number `significand · 2 ^ exponent`, negated if so marked. -/
  | finite (negative : Bool) (significand : Nat) (exponent : Int)
  | infinite (negative : Bool)
deriving DecidableEq, Repr

namespace Binary64

-- Powers are those of the core library, also where an algebra library brings its own.
local instance (priority := high) powNat : Pow Nat Nat := ⟨Nat.pow⟩

/-- The number of significant bits. -/
def precision : Nat := 53

/-- The exponent of the smallest positive number. -/
def minExponent : Int := -1074

/-- The largest exponent of a significand with all its bits. -/
def maxExponent : Int := 971

/-- The fraction `numerator / denominator` divided by `2 ^ exponent`, to the nearest
natural number. -/
def scaled (numerator denominator : Nat) (exponent : Int) : Nat :=
  if exponent < 0 then roundDiv (numerator * 2 ^ exponent.natAbs) denominator
  else roundDiv numerator (denominator * 2 ^ exponent.natAbs)

/-- Whether `numerator / denominator` is less than `2 ^ exponent`. -/
def lessThanPower (numerator denominator : Nat) (exponent : Int) : Bool :=
  if exponent < 0 then numerator * 2 ^ exponent.natAbs < denominator
  else numerator < denominator * 2 ^ exponent.natAbs

/-- The exponent that leaves `numerator / denominator` exactly `precision` bits before the point, or
the least exponent that there is. The logarithms give it up to one. -/
def exponentOf (numerator denominator : Nat) : Int :=
  let estimate : Int := numerator.log2 - denominator.log2 + 1 - precision
  let exponent :=
    if lessThanPower numerator denominator (estimate + precision - 1) then estimate - 1
    else estimate
  max exponent minExponent

/-- The number nearest to a positive or vanishing fraction; of two equally near, the one with an
even significand. -/
def ofFraction (negative : Bool) (numerator denominator : Nat) : Binary64 :=
  let exponent := exponentOf numerator denominator
  let significand := scaled numerator denominator exponent
  let (significand, exponent) :=
    if significand = 2 ^ precision then (2 ^ (precision - 1), exponent + 1)
    else (significand, exponent)
  if numerator = 0 then .finite negative 0 minExponent
  else if maxExponent < exponent then .infinite negative
  else .finite negative significand exponent

/-- The number nearest to a fraction. -/
def ofRat (q : Rat) : Binary64 := ofFraction (decide (q.num < 0)) q.num.natAbs q.den

/-- The number nearest to `digits · 10 ^ exponent`. An exponent that alone makes the number
infinite, or too small to be told from zero, is not raised to. -/
def ofDecimal (negative : Bool) (digits : Nat) (exponent : Int) : Binary64 :=
  if digits = 0 then .finite negative 0 minExponent
  else if 400 < exponent then .infinite negative
  else if 0 ≤ exponent then ofFraction negative (digits * 10 ^ exponent.natAbs) 1
  else if digits.log2 + 400 < exponent.natAbs then .finite negative 0 minExponent
  else ofFraction negative digits (10 ^ exponent.natAbs)

/-- The fraction that a number stands for; `none` if it is infinite. -/
def value? : Binary64 → Option Rat
  | infinite _ => none
  | finite negative significand exponent =>
    let magnitude : Rat :=
      if exponent < 0 then mkRat significand (2 ^ exponent.natAbs)
      else (significand * 2 ^ exponent.natAbs : Nat)
    some (if negative then -magnitude else magnitude)

/-- The encoding in 64 bits: sign, exponent, and significand without the leading bit, which the
exponent implies. -/
def bits : Binary64 → Nat
  | infinite negative => (if negative then 1 <<< 63 else 0) + 0x7FF <<< 52
  | finite negative significand exponent =>
    (if negative then 1 <<< 63 else 0) +
      if significand < 1 <<< 52 then significand
      else (exponent - minExponent + 1).toNat <<< 52 + (significand - 1 <<< 52)

/-- A number times a hundred, rounded to the format again. -/
def timesHundred : Binary64 → Binary64
  | infinite negative => infinite negative
  | finite negative significand exponent =>
    if exponent < 0 then ofFraction negative (100 * significand) (2 ^ exponent.natAbs)
    else ofFraction negative (100 * significand * 2 ^ exponent.natAbs) 1

/-- The text of a number without decimals; a half goes to the even neighbour. -/
def wholeText : Binary64 → String
  | infinite negative => (if negative then "-" else "") ++ "inf"
  | finite negative significand exponent =>
    (if negative then "-" else "") ++
      toString (if exponent < 0 then roundDiv significand (2 ^ exponent.natAbs)
        else significand * 2 ^ exponent.natAbs)

end Binary64

/-- The sixteen hexadecimal digits of a number of 64 bits. -/
def hexText (bits : Nat) : String :=
  let digits := Nat.toDigits 16 bits
  String.ofList (List.replicate (16 - digits.length) '0' ++ digits)

/-- A share in percent, without decimals. The product of the share with a hundred is a `binary64`
number as well, and only that is rounded to a whole number. -/
def percentText (share : Binary64) : String := share.timesHundred.wholeText ++ "%"

end NaturalDeduction
