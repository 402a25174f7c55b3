import Mathlib.Data.List.Basic
import NaturalDeduction.Text.Rows

/-!
# Deleting escape sequences

A terminal takes its orders from escape sequences: an escape character and an opening bracket,
parameters, and a letter at the end. Deleting all of them leaves the text that is seen.

Deletion does not commute with joining texts, since a sequence may be begun in one text and end in
the next. `Strips` is the relation that does: a text strips to another if deletion turns the first
into the second in front of any continuation. Texts without an escape character strip to themselves,
whole sequences to nothing, and joined texts strip to what is joined of their parts.

## Main definitions

* `Text.withoutEscapes`: what is left of a text without its escape sequences
* `Text.Strips`: one text is another with escape sequences in it

## Main results

* `Text.Strips.append`, `Text.Strips.joinLines`: escape sequences can be deleted part by part
-/

namespace NaturalDeduction.Text

/-- The character that begins an escape sequence. -/
def escape : Char := '\x1b'

/-- A character that may stand between the bracket of an escape sequence and the
letter at its end. -/
def isParameter (c : Char) : Bool := ' ' ≤ c && c ≤ '?'

/-- What is left of a text when its escape sequences are deleted. -/
def withoutEscapes : List Char → List Char
  | '\x1b' :: '[' :: rest => withoutEscapes ((rest.dropWhile isParameter).drop 1)
  | c :: rest => c :: withoutEscapes rest
  | [] => []
termination_by s => s.length
decreasing_by
  · have hsuffix := ((List.drop_suffix 1 (rest.dropWhile isParameter)).trans
      (List.dropWhile_suffix isParameter)).length_le
    simp only [List.length_cons]
    omega
  · simp

theorem withoutEscapes_cons {c : Char} (hc : c ≠ escape) (rest : List Char) :
    withoutEscapes (c :: rest) = c :: withoutEscapes rest := by
  rw [withoutEscapes]
  rintro rest' rfl -
  exact hc rfl

/-- Deletion turns the first text into the second, whatever follows. -/
def Strips (text plain : String) : Prop :=
  ∀ rest, withoutEscapes (text.toList ++ rest) = plain.toList ++ withoutEscapes rest

variable {text plain text' plain' : String}

theorem Strips.append (h : Strips text plain) (h' : Strips text' plain') :
    Strips (text ++ text') (plain ++ plain') := by
  intro rest
  rw [String.toList_append, String.toList_append, List.append_assoc, h, h', List.append_assoc]

theorem strips_self (h : escape ∉ text.toList) : Strips text text := by
  intro rest
  revert h
  induction text.toList with
  | nil => exact fun _ => rfl
  | cons c s ih =>
    intro h
    rw [List.mem_cons, not_or] at h
    rw [List.cons_append, withoutEscapes_cons (Ne.symm h.1), ih h.2, List.cons_append]

/-- A whole escape sequence strips to nothing. -/
theorem strips_sequence (parameters : List Char) (final : Char)
    (htext : text.toList = escape :: '[' :: (parameters ++ [final]))
    (hparameters : parameters.all isParameter = true) (hfinal : isParameter final = false) :
    Strips text "" := by
  intro rest
  have hdrop : (parameters ++ [final] ++ rest).dropWhile isParameter = final :: rest := by
    rw [List.append_assoc, List.dropWhile_append_of_pos (List.all_eq_true.mp hparameters)]
    exact List.dropWhile_cons_of_neg (by simp [hfinal])
  rw [htext, List.cons_append, List.cons_append, escape, withoutEscapes, hdrop]
  rfl

theorem Strips.withoutEscapes_eq (h : Strips text plain) :
    withoutEscapes text.toList = plain.toList := by
  have hall := h []
  rwa [List.append_nil, withoutEscapes, List.append_nil] at hall

/-! ### Texts of many rows -/

/-- A text of rows is stripped row by row. -/
theorem Strips.joinLines {rows plains : List String} (h : List.Forall₂ Strips rows plains) :
    Strips (String.join (rows.map (· ++ "\n"))) (String.join (plains.map (· ++ "\n"))) := by
  intro rest
  rw [String.toList_join, String.toList_join]
  induction h with
  | nil => rfl
  | cons hrow _ ih =>
    have hend : Strips "\n" "\n" := strips_self (by decide)
    simp only [List.map_cons, List.flatMap_cons, List.append_assoc]
    rw [hrow.append hend, ih]

/-- The characters of a row are characters of the text. -/
theorem mem_of_mem_rowTexts {row : String} (hrow : row ∈ rowTexts text) {c : Char}
    (hc : c ∈ row.toList) :
    c ∈ text.toList := by
  obtain ⟨r, hr, rfl⟩ := List.mem_map.mp hrow
  rw [String.toList_ofList] at hc
  rw [← flatMap_rows text.toList]
  exact List.mem_flatMap.mpr ⟨r, hr, List.mem_append_left _ hc⟩

end NaturalDeduction.Text
