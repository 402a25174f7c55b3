import Mathlib.Data.List.Basic
import Mathlib.Data.List.TakeWhile
import Mathlib.Data.Nat.Digits.Defs
import NaturalDeduction.Proof.Citation

/-!
# What a citation in a text means

A citation is read from its text without loss and without invention: which texts are citations,
and of what, is said here with numerals alone, and the reader finds exactly those. In
particular a number that no machine word holds is refused, wherever it stands; it is not cut to
what a word does hold.

## Numerals and words

A numeral has a value however long it is, and the bound of a machine word is a condition on that
value (`readNumber?_eq_some_iff`). Leading zeros therefore never matter, and a numeral beyond the
bound has a value as well, by which the refusal of such a numeral can be stated.

No dash stands in a numeral (`Numeral.dash_notMem`). So the dash of a range is the only one in its
text, and the reader, which cuts at the first dash, cuts there.

## Main definitions

* `Numeral`: a text is a number, of any size

## Main results

* `Text.exists_trim`, `Text.trim_append`: what trimming takes away
* `readNumber?_eq_some_iff`: the numbers that are read are the numerals of machine words
* `Citation.parse_decodes`: which texts are citations, and the round trip
-/

namespace NaturalDeduction

/-! ### Trimming -/

namespace Text

variable {s before core after : List Char}

/-- Nothing but blanks is trimmed away. -/
theorem exists_trim (s : List Char) : ∃ before after, s = before ++ trim s ++ after ∧
    (∀ c ∈ before, isBlank c = true) ∧ ∀ c ∈ after, isBlank c = true := by
  have hfront : s.takeWhile isBlank ++ skipBlanks s = s := List.takeWhile_append_dropWhile
  have hback : trim s ++ ((skipBlanks s).reverse.takeWhile isBlank).reverse = skipBlanks s := by
    rw [trim, ← List.reverse_append]
    exact List.reverse_eq_iff.mpr List.takeWhile_append_dropWhile
  refine ⟨s.takeWhile isBlank, ((skipBlanks s).reverse.takeWhile isBlank).reverse, ?_, ?_, ?_⟩
  · rw [List.append_assoc, hback, hfront]
  · exact List.all_eq_true.mp List.all_takeWhile
  · intro c hc
    exact List.all_eq_true.mp List.all_takeWhile c (List.mem_reverse.mp hc)

theorem skipBlanks_append (hbefore : ∀ c ∈ before, isBlank c = true) (hne : core ≠ [])
    (hcore : ∀ c ∈ core, isBlank c = false) :
    skipBlanks (before ++ (core ++ after)) = core ++ after := by
  obtain ⟨c, rest, rfl⟩ := List.exists_cons_of_ne_nil hne
  rw [skipBlanks, List.dropWhile_append_of_pos hbefore, List.cons_append]
  exact List.dropWhile_cons_of_neg (by simp [hcore c List.mem_cons_self])

/-- Of a text without blanks nothing is trimmed away, and all blanks around it are. -/
theorem trim_append (hbefore : ∀ c ∈ before, isBlank c = true)
    (hafter : ∀ c ∈ after, isBlank c = true) (hne : core ≠ [])
    (hcore : ∀ c ∈ core, isBlank c = false) : trim (before ++ core ++ after) = core := by
  have hback : skipBlanks (after.reverse ++ (core.reverse ++ [])) = core.reverse ++ [] :=
    skipBlanks_append (fun c hc => hafter c (List.mem_reverse.mp hc)) (by simpa using hne)
      fun c hc => hcore c (List.mem_reverse.mp hc)
  rw [List.append_nil] at hback
  rw [trim, List.append_assoc, skipBlanks_append hbefore hne hcore, List.reverse_append, hback,
    List.reverse_reverse]

end Text

/-! ### Numerals -/

/-- The value of decimal digits, of which the first counts most. -/
def decimalValue (digits : List Char) : Nat :=
  Nat.ofDigits 10 (digits.map fun d => d.toNat - '0'.toNat).reverse

/-- The text is a number of value `n`, of any size: one or more decimal digits, which a plus sign
may precede and blanks may surround. -/
def Numeral (text : List Char) (n : Nat) : Prop :=
  ∃ before sign digits after, text = before ++ (sign ++ digits) ++ after ∧
    (∀ c ∈ before, Text.isBlank c = true) ∧ (∀ c ∈ after, Text.isBlank c = true) ∧
    (sign = [] ∨ sign = ['+']) ∧ digits ≠ [] ∧ (∀ d ∈ digits, '0' ≤ d ∧ d ≤ '9') ∧
    n = decimalValue digits

variable {text digits left right : List Char} {a b m n : Nat} {c : Citation}

theorem isDigit_iff {c : Char} : c.isDigit = true ↔ '0' ≤ c ∧ c ≤ '9' := by
  rw [Char.isDigit, Bool.and_eq_true, decide_eq_true_eq, decide_eq_true_eq]
  rfl

/-- A digit is neither a blank nor a sign. -/
theorem isBlank_of_isDigit {c : Char} (h : '0' ≤ c ∧ c ≤ '9') : Text.isBlank c = false := by
  have hbound : 48 ≤ c.toNat ∧ c.toNat ≤ 57 := h
  simp only [Text.isBlank, Text.inRanges, Text.blankRanges, List.any_eq_false, List.mem_cons]
  simp
  omega

/-- Reading digits from the front multiplies what has been read, and so comes to the sum
over all places. -/
theorem foldl_digits_eq (digits : List Char) :
    digits.foldl (fun value d => 10 * value + (d.toNat - '0'.toNat)) 0 = decimalValue digits := by
  rw [decimalValue, Nat.ofDigits_eq_foldr, List.foldr_reverse, List.foldl_map]
  simp [Nat.add_comm]

theorem digitsValue?_eq_some_iff :
    digitsValue? digits = some n ↔
      digits ≠ [] ∧ (∀ d ∈ digits, '0' ≤ d ∧ d ≤ '9') ∧ n = decimalValue digits := by
  simp only [digitsValue?, foldl_digits_eq, List.all_eq_true, isDigit_iff]
  by_cases h : digits ≠ [] ∧ ∀ d ∈ digits, '0' ≤ d ∧ d ≤ '9'
  · rw [if_pos h, Option.some_inj, eq_comm, ← and_assoc, and_iff_right h]
  · rw [if_neg h, ← and_assoc]
    exact iff_of_false nofun fun hn => h hn.1

/-- A number without the plus sign that it may begin with. -/
def withoutPlus : List Char → List Char
  | '+' :: digits => digits
  | digits => digits

theorem withoutPlus_append {sign : List Char} (hsign : sign = [] ∨ sign = ['+'])
    (hdigits : ∀ d ∈ digits, '0' ≤ d ∧ d ≤ '9') : withoutPlus (sign ++ digits) = digits := by
  rcases hsign with rfl | rfl
  · cases digits with
    | nil => rfl
    | cons d digits =>
      have hd : d ≠ '+' := by
        rintro rfl
        exact absurd (hdigits '+' List.mem_cons_self) (by decide)
      simp [withoutPlus, hd]
  · rfl

theorem exists_sign_append_withoutPlus (text : List Char) :
    ∃ sign, (sign = [] ∨ sign = ['+']) ∧ text = sign ++ withoutPlus text := by
  unfold withoutPlus
  split
  · exact ⟨['+'], .inr rfl, rfl⟩
  · exact ⟨[], .inl rfl, rfl⟩

/-- A numeral is what has a value once the blanks around it and its sign are taken away. -/
theorem numeral_iff : Numeral text n ↔ digitsValue? (withoutPlus (Text.trim text)) = some n := by
  rw [digitsValue?_eq_some_iff]
  constructor
  · rintro ⟨before, sign, digits, after, rfl, hbefore, hafter, hsign, hne, hdigits, hn⟩
    have hcore : ∀ c ∈ sign ++ digits, Text.isBlank c = false := by
      intro c hc
      rcases List.mem_append.mp hc with hc | hc
      · rcases hsign with rfl | rfl
        · cases hc
        · obtain rfl := List.mem_singleton.mp hc
          decide
      · exact isBlank_of_isDigit (hdigits c hc)
    rw [Text.trim_append hbefore hafter (List.append_ne_nil_of_right_ne_nil sign hne) hcore,
      withoutPlus_append hsign hdigits]
    exact ⟨hne, hdigits, hn⟩
  · intro h
    obtain ⟨before, after, htext, hbefore, hafter⟩ := Text.exists_trim text
    obtain ⟨sign, hsign, hcore⟩ := exists_sign_append_withoutPlus (Text.trim text)
    exact ⟨before, sign, _, after, hcore ▸ htext, hbefore, hafter, hsign, h⟩

/-- A text has one value at most. -/
theorem Numeral.unique (hm : Numeral text m) (hn : Numeral text n) : m = n :=
  Option.some.inj ((numeral_iff.mp hm).symm.trans (numeral_iff.mp hn))

theorem Numeral.dash_notMem (h : Numeral text n) : '-' ∉ text := by
  obtain ⟨before, sign, digits, after, rfl, hbefore, hafter, hsign, -, hdigits, -⟩ := h
  simp only [List.mem_append, not_or]
  refine ⟨⟨fun hc => ?_, fun hc => ?_, fun hc => ?_⟩, fun hc => ?_⟩
  · exact absurd (hbefore _ hc) (by decide)
  · rcases hsign with rfl | rfl <;> simp at hc
  · exact absurd (hdigits _ hc) (by decide)
  · exact absurd (hafter _ hc) (by decide)

/-- The numbers that are read are the numerals of machine words. -/
theorem readNumber?_eq_some_iff : readNumber? text = some n ↔ Numeral text n ∧ n < 2 ^ 64 := by
  have hread : readNumber? text =
      (digitsValue? (withoutPlus (Text.trim text))).filter (· < numberBound) := rfl
  have hbound : numberBound = 2 ^ 64 := rfl
  rw [hread, Option.filter_eq_some_iff, numeral_iff, decide_eq_true_eq, hbound]

/-- The canonical text of a number is a numeral of it. -/
theorem numeral_toString (n : Nat) : Numeral (toString n).toList n := by
  have hdigits : ∀ d ∈ Nat.toDigits 10 n, '0' ≤ d ∧ d ≤ '9' := fun d hd =>
    isDigit_iff.mp (Nat.isDigit_of_mem_toDigits (by decide) (by decide) hd)
  refine ⟨[], [], Nat.toDigits 10 n, [], by simp, nofun, nofun, .inl rfl, Nat.toDigits_ne_nil,
    hdigits, ?_⟩
  rw [← foldl_digits_eq, ← Nat.ofDigitChars_eq_foldl, Nat.ofDigitChars_ten_toDigits]

/-! ### Citations -/

namespace Citation

theorem read?_of_notMem (hdash : '-' ∉ text) : read? text = (readNumber? text).map line := by
  have hnone : text.dropWhile (· ≠ '-') = [] := by
    rw [List.dropWhile_eq_nil_iff]
    intro c hc
    simpa using ne_of_mem_of_not_mem hc hdash
  rw [read?, hnone]

/-- A range is cut at its first dash. -/
theorem read?_append (hdash : '-' ∉ left) : read? (left ++ '-' :: right) = some c ↔
    ∃ a b, readNumber? left = some a ∧ readNumber? right = some b ∧ a ≤ b ∧ c = .subproof a b := by
  have hleft : ∀ d ∈ left, decide (d ≠ '-') = true := by
    intro d hd
    simpa using ne_of_mem_of_not_mem hd hdash
  have hdrop : (left ++ '-' :: right).dropWhile (· ≠ '-') = '-' :: right := by
    rw [List.dropWhile_append_of_pos hleft, List.dropWhile_cons_of_neg (by decide)]
  have htake : (left ++ '-' :: right).takeWhile (· ≠ '-') = left := by
    rw [List.takeWhile_append_of_pos hleft, List.takeWhile_cons_of_neg (by decide), List.append_nil]
  rw [read?, hdrop, htake]
  cases hfirst : readNumber? left with
  | none => simp
  | some a =>
    cases hlast : readNumber? right with
    | none => simp [hlast]
    | some b =>
      by_cases hle : a ≤ b
      · simp [hlast, hle, eq_comm]
      · simp [hlast, hle]

theorem read?_eq_line_iff :
    read? text = some (.line n) ↔ '-' ∉ text ∧ Numeral text n ∧ n < 2 ^ 64 := by
  by_cases hdash : '-' ∈ text
  · obtain ⟨left, right, rfl, hleft⟩ := List.eq_append_cons_of_mem hdash
    simp [read?_append hleft]
  · rw [read?_of_notMem hdash, and_iff_right hdash, ← readNumber?_eq_some_iff]
    simp

theorem read?_eq_subproof_iff : read? text = some (.subproof a b) ↔
    ∃ left right, text = left ++ '-' :: right ∧ (Numeral left a ∧ a < 2 ^ 64) ∧
      (Numeral right b ∧ b < 2 ^ 64) ∧ a ≤ b := by
  constructor
  · intro h
    by_cases hdash : '-' ∈ text
    · obtain ⟨left, right, rfl, hleft⟩ := List.eq_append_cons_of_mem hdash
      obtain ⟨_, _, ha, hb, hle, heq⟩ := (read?_append hleft).mp h
      obtain ⟨rfl, rfl⟩ := Citation.subproof.inj heq
      exact ⟨left, right, rfl, readNumber?_eq_some_iff.mp ha, readNumber?_eq_some_iff.mp hb, hle⟩
    · simp [read?_of_notMem hdash] at h
  · rintro ⟨left, right, rfl, ha, hb, hle⟩
    exact (read?_append ha.1.dash_notMem).mpr
      ⟨a, b, readNumber?_eq_some_iff.mpr ha, readNumber?_eq_some_iff.mpr hb, hle, rfl⟩

theorem parse_eq_ok_iff {text : String} {c : Citation} :
    parse text = .ok c ↔ read? text.toList = some c := by
  rw [parse]
  cases read? text.toList <;> simp

theorem parse_eq_error_iff {text : String} {error : CitationError} :
    parse text = .error error ↔ error = ⟨text⟩ ∧ ∀ c, parse text ≠ .ok c := by
  rw [parse]
  cases read? text.toList <;> simp [eq_comm]

/-- **Citations are decoded exactly.** A text without a dash is a line if it is a number, two
numbers that a dash joins are a subproof if they do not decrease, and every other text is refused.
Numbers are numerals of machine words: where a number of a larger value stands, the text is refused.
And the canonical text of a citation that was read is read as the same citation. -/
theorem parse_decodes (text : String) :
    let s := text.toList
    let Number := fun s n => Numeral s n ∧ n < 2 ^ 64
    let Range := fun a b => ∃ left right, s = left ++ '-' :: right ∧ Number left a ∧
        Number right b ∧ a ≤ b
    (∀ n, parse text = .ok (.line n) ↔ '-' ∉ s ∧ Number s n) ∧
      (∀ a b, parse text = .ok (.subproof a b) ↔ Range a b) ∧
      (∀ error, parse text = .error error ↔
        error = ⟨text⟩ ∧ (¬∃ n, '-' ∉ s ∧ Number s n) ∧ ¬∃ a b, Range a b) ∧
      (∀ n, 2 ^ 64 ≤ n →
        (Numeral s n ∨ ∃ left right, s = left ++ '-' :: right ∧
          (Numeral left n ∨ Numeral right n)) →
        parse text = .error ⟨text⟩) ∧
      ∀ c, parse text = .ok c → parse c.render = .ok c := by
  intro s Number Range
  have hline (n : Nat) : parse text = .ok (.line n) ↔ '-' ∉ s ∧ Number s n :=
    parse_eq_ok_iff.trans read?_eq_line_iff
  have hsubproof (a b : Nat) : parse text = .ok (.subproof a b) ↔ Range a b :=
    parse_eq_ok_iff.trans read?_eq_subproof_iff
  have herror (error : CitationError) : parse text = .error error ↔
      error = ⟨text⟩ ∧ (¬∃ n, '-' ∉ s ∧ Number s n) ∧ ¬∃ a b, Range a b := by
    simp only [parse_eq_error_iff, not_exists, ← hline, ← hsubproof]
    refine and_congr_right fun _ => ⟨fun h => ⟨fun n => h _, fun a b => h _⟩, ?_⟩
    rintro ⟨hl, hs⟩ (n | ⟨a, b⟩)
    · exact hl n
    · exact hs a b
  refine ⟨hline, hsubproof, herror, fun n hlarge hn => (herror _).mpr ⟨rfl, ?_, ?_⟩, fun c hc => ?_⟩
  · rintro ⟨m, hdash, hm, hbound⟩
    rcases hn with hn | ⟨left, right, hs, -⟩
    · exact absurd (hm.unique hn ▸ hbound) (Nat.not_lt.mpr hlarge)
    · exact hdash (by simp [hs])
  · rintro ⟨a, b, left, right, hs, ⟨ha, habound⟩, ⟨hb, hbbound⟩, -⟩
    rcases hn with hn | ⟨left', right', hs', hn⟩
    · exact hn.dash_notMem (by simp [hs])
    · -- the dash of the range is the only one in its text
      obtain ⟨rfl, -, rfl⟩ := (List.append_cons_inj_of_notMem ha.dash_notMem hb.dash_notMem).mp
        (hs.symm.trans hs')
      rcases hn with hn | hn
      · exact absurd (ha.unique hn ▸ habound) (Nat.not_lt.mpr hlarge)
      · exact absurd (hb.unique hn ▸ hbbound) (Nat.not_lt.mpr hlarge)
  · cases c with
    | line n =>
      have hbound := ((hline n).mp hc).2.2
      have hnumeral := numeral_toString n
      exact parse_eq_ok_iff.mpr (read?_eq_line_iff.mpr ⟨hnumeral.dash_notMem, hnumeral, hbound⟩)
    | subproof a b =>
      obtain ⟨-, -, -, ⟨-, ha⟩, ⟨-, hb⟩, hle⟩ := (hsubproof a b).mp hc
      have htext : (render (.subproof a b)).toList =
          (toString a).toList ++ '-' :: (toString b).toList := by
        have hdash : (toString "-").toList = ['-'] := rfl
        simp only [render, String.toList_append, hdash, List.append_assoc, List.singleton_append]
      exact parse_eq_ok_iff.mpr (read?_eq_subproof_iff.mpr
        ⟨_, _, htext, ⟨numeral_toString a, ha⟩, ⟨numeral_toString b, hb⟩, hle⟩)

/-- Leading zeros, signs and blanks do not matter, and the first number that no machine word holds
is refused on either side of a dash. -/
theorem padded_decodes :
    parse "\u3000+0007 - 12 " = .ok (.subproof 7 12) ∧ parse "7-12" = .ok (.subproof 7 12) ∧
      parse "1-18446744073709551616" = .error ⟨"1-18446744073709551616"⟩ := by
  have hpadded : parse "\u3000+0007 - 12 " = .ok (.subproof 7 12) := by decide +kernel
  obtain ⟨-, -, -, -, hrender⟩ := parse_decodes "\u3000+0007 - 12 "
  obtain ⟨-, -, -, hlarge, -⟩ := parse_decodes "1-18446744073709551616"
  have hnumeral : Numeral "18446744073709551616".toList (2 ^ 64) :=
    numeral_iff.mpr (by decide +kernel)
  exact ⟨hpadded, hrender _ hpadded,
    hlarge (2 ^ 64) (Nat.le_refl _) (.inr ⟨['1'], _, by decide +kernel, .inr hnumeral⟩)⟩

end Citation

end NaturalDeduction
