import NaturalDeduction.Proofs.Formula.Rendering

/-!
# Propositional formulas within predicate logic

Propositional texts are the texts of predicate logic in which neither a quantifier nor an argument
list is written, and they are read as the same formulas. The reader refuses these two where it meets
them, in the middle of a text; so whatever it accepts in one calculus has to be compared with a
whole reading in the other.

## Why the formula tells how it was read

The two calculi have one grammar with two productions that only predicate logic may use. Either
leaves a trace in the formula: a quantification, or an atom whose list of arguments is not empty,
since an argument list cannot be written without a name (`Arguments.ne_nil`). A phrase that writes
a formula without such a trace has therefore used neither of them, at any depth, and is a phrase
of both calculi.

## Main results

* `Phrase.of_calculus`: a phrase of one calculus is a phrase of the other, as far as
  its formula allows
* `Formula.parse_propositional_eq_ok_iff`: the propositional readings among all readings
-/

namespace NaturalDeduction

section Fragment

variable {calculus calculus' : Calculus} {rank : Rank} {φ : Formula} {args : List Name}
  {s rest : List Char}

/-- An argument list names something. -/
theorem Arguments.ne_nil (h : Arguments s args rest) : args ≠ [] := by
  cases h with
  | last => exact List.cons_ne_nil _ _
  | more => exact List.cons_ne_nil _ _

/-- A calculus that is not the propositional one is predicate logic. -/
theorem Calculus.eq_predicate_of_ne {calculus : Calculus} (h : calculus ≠ .propositional) :
    calculus = .predicate := by
  cases calculus with
  | propositional => exact absurd rfl h
  | predicate => rfl

/-- **The step between the calculi.** A phrase of one calculus is a phrase of the other, unless that
is propositional and the formula is not. -/
theorem Phrase.of_calculus (h : Phrase calculus rank s φ rest)
    (hφ : calculus' = .propositional → φ.IsPropositional) : Phrase calculus' rank s φ rest := by
  induction h with
  | iff _ sign _ left right => exact .iff (left fun h => (hφ h).1) sign (right fun h => (hφ h).2)
  | ofImplication _ ih => exact .ofImplication (ih hφ)
  | implies _ sign _ left right =>
    exact .implies (left fun h => (hφ h).1) sign (right fun h => (hφ h).2)
  | ofDisjunction _ ih => exact .ofDisjunction (ih hφ)
  | or _ sign _ left right => exact .or (left fun h => (hφ h).1) sign (right fun h => (hφ h).2)
  | ofConjunction _ ih => exact .ofConjunction (ih hφ)
  | and _ sign _ left right => exact .and (left fun h => (hφ h).1) sign (right fun h => (hφ h).2)
  | ofPrefixed _ ih => exact .ofPrefixed (ih hφ)
  | not sign _ ih => exact .not sign (ih hφ)
  | quantified _ sign bound separator _ greedy ih =>
    -- no quantification is propositional
    have hcalculus : calculus' = .predicate := Calculus.eq_predicate_of_ne hφ
    exact .quantified hcalculus sign bound separator (ih fun h => absurd h hφ) greedy
  | parentheses opening _ close ih => exact .parentheses opening (ih hφ) close
  | bottom sign => exact .bottom sign
  | top sign => exact .top sign
  | letter name free => exact .letter name free
  | application _ name free arguments =>
    have hcalculus : calculus' = .predicate :=
      Calculus.eq_predicate_of_ne fun h => arguments.ne_nil (hφ h)
    exact .application hcalculus name free arguments

end Fragment

namespace Formula

variable {φ : Formula} {s : List Char}

/-- What is written in propositional logic is written in predicate logic, and what is written there
is written in propositional logic if it is a propositional formula. -/
theorem writtenAs_propositional_iff :
    φ.WrittenAs .propositional s ↔ φ.WrittenAs .predicate s ∧ φ.IsPropositional := by
  constructor
  · rintro ⟨rest, hphrase, hend⟩
    exact ⟨⟨rest, hphrase.of_calculus nofun, hend⟩, hphrase.isPropositional⟩
  · rintro ⟨⟨rest, hphrase, hend⟩, hφ⟩
    exact ⟨rest, hphrase.of_calculus fun _ => hφ, hend⟩

/-- **The propositional grammar is a fragment of the grammar of predicate logic.** A text is read in
propositional logic exactly if it is read in predicate logic as a formula without quantifiers and
without argument lists, and it is read as that formula. -/
theorem parse_propositional_eq_ok_iff (text : String) (φ : Formula) :
    Formula.parse .propositional text = .ok φ ↔
      Formula.parse .predicate text = .ok φ ∧ φ.IsPropositional := by
  rw [parse_eq_ok_iff, parse_eq_ok_iff]
  exact writtenAs_propositional_iff

end Formula

end NaturalDeduction
