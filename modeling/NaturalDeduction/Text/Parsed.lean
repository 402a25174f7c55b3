/-!
# What reading leaves over

A reader takes something from the front of a text and hands back the rest. Readers that call each
other come to an end because the rest is always shorter than what they were given; so the rest
carries the proof of that.

## Main definitions

* `Shorter`: a rest; `Shorter.tail` is the one behind a single character
* `Parsed`: a rest together with what was read
* `Parsed.andThen`, `Parsed.andMaybe`: one reader behind another
-/

namespace NaturalDeduction

/-- A text that is shorter than `s`: what is left of `s` when something has been read from it. -/
abbrev Shorter (s : List Char) := { rest : List Char // rest.length < s.length }

theorem length_lt_cons (c : Char) (rest : List Char) : rest.length < (c :: rest).length :=
  Nat.lt_succ_self _

/-- What is left of a text behind its first character. -/
def Shorter.tail (c : Char) (rest : List Char) : Shorter (c :: rest) :=
  ⟨rest, length_lt_cons c rest⟩

/-- Something read from a text, with the rest of the text, which is shorter than `bound`. -/
structure Parsed (α : Type) (bound : Nat) where
  value : α
  rest : List Char
  length_lt : rest.length < bound

namespace Parsed

/-- A larger bound holds as well. -/
def widen {α : Type} {m n : Nat} (p : Parsed α m) (h : m ≤ n) : Parsed α n :=
  ⟨p.value, p.rest, Nat.lt_of_lt_of_le p.length_lt h⟩

/-- The same rest, with another value. -/
def map {α β : Type} {n : Nat} (f : α → β) (p : Parsed α n) : Parsed β n :=
  ⟨f p.value, p.rest, p.length_lt⟩

/-- What another reader takes from the rest, if it takes anything. -/
def andThen {α β : Type} {n : Nat} (p : Parsed α n)
    (next : α → (s : List Char) → Option (Parsed β s.length)) : Option (Parsed β n) :=
  (next p.value p.rest).map fun q => q.widen (Nat.le_of_lt p.length_lt)

/-- What another reader takes from the rest, with what was read before it; the rest stays as it is
if that reader takes nothing. -/
def andMaybe {α β : Type} {n : Nat} (p : Parsed α n)
    (next : (s : List Char) → Option (Parsed β s.length)) : Parsed (α × Option β) n :=
  match next p.rest with
  | none => p.map (·, none)
  | some q => (q.map (p.value, some ·)).widen (Nat.le_of_lt p.length_lt)

end Parsed

/-- A single character out of a list, at the front of a text. -/
def readOneOf? (marks : List Char) : (s : List Char) → Option (Parsed Char s.length)
  | [] => none
  | c :: rest => if c ∈ marks then some ⟨c, rest, length_lt_cons c rest⟩ else none

end NaturalDeduction
