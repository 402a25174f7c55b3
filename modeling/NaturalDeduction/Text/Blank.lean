/-!
# Blanks

What counts as white space in a formula, a citation or a rule name: the characters with the Unicode
property `White_Space`, which is a fixed list of ten ranges. `Char.isWhitespace` knows only four of
its members.

## Main definitions

* `Text.isBlank`: membership in the ranges
* `Text.skipBlanks`, `Text.trim`: a text without its leading, or surrounding, blanks
-/

namespace NaturalDeduction.Text

/-- The ranges of code points with the Unicode property `White_Space`, both ends included. -/
def blankRanges : List (Nat × Nat) :=
  [(0x09, 0x0D), (0x20, 0x20), (0x85, 0x85), (0xA0, 0xA0), (0x1680, 0x1680), (0x2000, 0x200A),
   (0x2028, 0x2029), (0x202F, 0x202F), (0x205F, 0x205F), (0x3000, 0x3000)]

/-- Membership of a code point in a list of ranges, both ends included. -/
def inRanges (ranges : List (Nat × Nat)) (c : Char) : Bool :=
  ranges.any fun range => range.1 ≤ c.toNat && c.toNat ≤ range.2

/-- A white space character. -/
def isBlank (c : Char) : Bool := inRanges blankRanges c

/-- The text from its first character that is not blank. -/
def skipBlanks (s : List Char) : List Char := s.dropWhile isBlank

/-- The text without the blanks at its two ends. -/
def trim (s : List Char) : List Char := (skipBlanks (skipBlanks s).reverse).reverse

theorem skipBlanks_suffix (s : List Char) : skipBlanks s <:+ s := List.dropWhile_suffix _

theorem length_skipBlanks_le (s : List Char) : (skipBlanks s).length ≤ s.length :=
  (skipBlanks_suffix s).length_le

/-- What is left of a text after its blanks does not begin with one. -/
theorem isBlank_of_skipBlanks_eq_cons {s r : List Char} {c : Char} (h : skipBlanks s = c :: r) :
    isBlank c = false := by
  induction s with
  | nil => simp [skipBlanks] at h
  | cons d t ih =>
    by_cases hd : isBlank d = true
    · exact ih (by simpa [skipBlanks, List.dropWhile_cons, hd] using h)
    · simp only [skipBlanks, List.dropWhile_cons, hd, Bool.false_eq_true, ite_false] at h
      simp_all

@[simp] theorem skipBlanks_skipBlanks (s : List Char) :
    skipBlanks (skipBlanks s) = skipBlanks s := by
  cases h : skipBlanks s with
  | nil => rfl
  | cons c r =>
    simp [skipBlanks, isBlank_of_skipBlanks_eq_cons h]

/-! ### Sizes and prefixes -/

/-- The sizes of a text's characters, added up. -/
def total (size : Char → Nat) (s : List Char) : Nat := s.foldr (fun c rest => size c + rest) 0

/-- The number of bytes that a text takes in UTF-8, the unit of every position in a formula. -/
def utf8Length (s : List Char) : Nat := total Char.utf8Size s

/-- What follows `start` in a text that begins with it. -/
def after? : (start text : List Char) → Option (List Char)
  | [], text => some text
  | _ :: _, [] => none
  | c :: start, d :: text => if c = d then after? start text else none

theorem after?_eq_some_iff {start text rest : List Char} :
    after? start text = some rest ↔ text = start ++ rest := by
  induction start generalizing text with
  | nil => simp [after?, eq_comm]
  | cons c start ih =>
    cases text with
    | nil => simp [after?]
    | cons d text =>
      by_cases h : c = d
      · simp [after?, h, ih]
      · simp [after?, h, Ne.symm h]

/-- What follows a start that is not empty is shorter than the whole text. -/
theorem length_lt_of_after?_eq_some {c : Char} {start text rest : List Char}
    (h : after? (c :: start) text = some rest) : rest.length < text.length := by
  rw [after?_eq_some_iff.mp h, List.length_append, List.length_cons]
  omega

end NaturalDeduction.Text
