import NaturalDeduction.Toml.Number

/-!
# Dates and times in TOML

A date, a time of day, or both, and with both an offset from universal time. Every part is written
in digits of a fixed number, in the ranges of the Gregorian calendar, which is taken to hold also
before it was introduced. A minute may have a second 60.

Fractions of a second are kept to nine digits, and further ones are cut off.

## Main definitions

* `Date`, `TimeOfDay`, `Moment`
* `readMoment?`: a date, a time or both
-/

namespace NaturalDeduction.Toml

/-- A day of the calendar. -/
structure Date where
  year : Nat
  month : Nat
  day : Nat
deriving DecidableEq, Repr

/-- A time of day. -/
structure TimeOfDay where
  hour : Nat
  minute : Nat
  second : Nat
  nanosecond : Nat
deriving DecidableEq, Repr

/-- A date, a time of day, or both. -/
inductive Moment where
  | date (date : Date)
  | time (time : TimeOfDay)
  /-- A date and a time, and the minutes by which local time is ahead of universal time, if they are
  known. -/
  | dateTime (date : Date) (time : TimeOfDay) (offset : Option Int)
deriving DecidableEq, Repr

/-! ### The calendar -/

/-- Every fourth year is a leap year, of those that end a century only every fourth. -/
def isLeapYear (year : Nat) : Bool := year % 4 = 0 && (year % 100 ≠ 0 || year % 400 = 0)

/-- The number of days of a month. -/
def daysInMonth (year month : Nat) : Nat :=
  if month = 2 then if isLeapYear year then 29 else 28
  else if month ∈ [4, 6, 9, 11] then 30
  else 31

/-! ### Readers -/

/-- The number that decimal digits write. -/
def decimalValue (digits : List Char) : Nat := ofDigits 10 (digits.filterMap (digit? 10))

/-- A number of exactly `width` digits that lies between `low` and `high`. -/
def readField? (width low high : Nat) (s : List Char) : Option (Parsed Nat s.length) :=
  let digits := s.take width
  if h : 0 < width ∧ width ≤ s.length ∧ digits.all Char.isDigit then
    let value := decimalValue digits
    if low ≤ value ∧ value ≤ high then
      some ⟨value, s.drop width, by rw [List.length_drop]; omega⟩
    else none
  else none

/-- A date, as in `1979-05-27`. -/
def readDate? (s : List Char) : Option (Parsed Date s.length) :=
  (readField? 4 0 9999 s).bind (·.andThen fun year s =>
  (readOneOf? ['-'] s).bind (·.andThen fun _ s =>
  (readField? 2 1 12 s).bind (·.andThen fun month s =>
  (readOneOf? ['-'] s).bind (·.andThen fun _ s =>
  (readField? 2 1 (daysInMonth year month) s).map (·.map fun day => ⟨year, month, day⟩)))))

/-- The digits behind the point of a second, as nanoseconds. -/
def readNanoseconds? (s : List Char) : Option (Parsed Nat s.length) :=
  match s with
  | '.' :: c :: rest =>
    if c.isDigit then
      let digits := ((c :: rest.takeWhile Char.isDigit) ++ List.replicate 9 '0').take 9
      some ⟨decimalValue digits, rest.dropWhile Char.isDigit, by
        have := (List.dropWhile_suffix Char.isDigit (l := rest)).length_le
        simp only [List.length_cons]
        omega⟩
    else none
  | _ => none

/-- A time of day, as in `07:32:00` or `07:32:00.25`. -/
def readTime? (s : List Char) : Option (Parsed TimeOfDay s.length) :=
  (readField? 2 0 23 s).bind (·.andThen fun hour s =>
  (readOneOf? [':'] s).bind (·.andThen fun _ s =>
  (readField? 2 0 59 s).bind (·.andThen fun minute s =>
  (readOneOf? [':'] s).bind (·.andThen fun _ s =>
  (readField? 2 0 60 s).map fun second =>
    (second.andMaybe readNanoseconds?).map fun p => ⟨hour, minute, p.1, p.2.getD 0⟩))))

/-- The minutes of an offset, as in `Z` or `-07:00`. -/
def readOffset? (s : List Char) : Option (Parsed Int s.length) :=
  (readOneOf? ['Z', 'z', '+', '-'] s).bind fun mark =>
    if mark.value ∈ ['Z', 'z'] then some (mark.map fun _ => 0)
    else
      mark.andThen fun sign s =>
      (readField? 2 0 23 s).bind (·.andThen fun hours s =>
      (readOneOf? [':'] s).bind (·.andThen fun _ s =>
      (readField? 2 0 59 s).map (·.map fun minutes =>
        let size : Int := (60 * hours + minutes : Nat)
        if sign = '-' then -size else size)))

/-- A time of day behind the mark that parts it from a date, and its offset. -/
def readTimeOfDate? (s : List Char) : Option (Parsed (TimeOfDay × Option Int) s.length) :=
  (readOneOf? ['T', 't', ' '] s).bind (·.andThen fun _ s =>
    (readTime? s).map (·.andMaybe readOffset?))

/-- A date, a time or both. A date that no time follows stands alone. -/
def readMoment? (s : List Char) : Option (Parsed Moment s.length) :=
  match readDate? s with
  | some date =>
    some ((date.andMaybe readTimeOfDate?).map fun
      | (date, none) => .date date
      | (date, some (time, offset)) => .dateTime date time offset)
  | none => (readTime? s).map (·.map .time)

end NaturalDeduction.Toml
