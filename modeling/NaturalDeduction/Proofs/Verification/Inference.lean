import Mathlib.Data.List.Permutation
import NaturalDeduction.Proofs.Document.Layout
import NaturalDeduction.Proofs.Verification.Rules

/-!
# The table of rules

Here the rules stand as a textbook prints them, one row for each way of using a rule: from these
lines and these subproofs, this conclusion. A rule yields a formula if what is cited makes up a row,
in any order. `Step.check`, with its early answers, its two attempts to find a major premise and its
shortcut for `φ ∧ φ`, decides exactly that.

## Implementation notes

The rows name everything in one fixed order, and only `Cited.AmountTo` forgets the order. So no row
has to be repeated with its lines exchanged, and nothing special has to be said about two lines that
are both implications, or about two subproofs that coincide.

That an assumption opens a subproof is no condition on a single step. Documents do not have any
other assumptions, and the last part of the main result says so.

## Main definitions

* `Cited.AmountTo`: what is cited, up to its order
* `Step.Row`: the table
* `Step.Yields`: a rule applied to what is cited

## Main results

* `Step.check_decides_rule`: a step passes if and only if its rule yields its conclusion
-/

namespace NaturalDeduction

/-! ### What is cited, up to its order -/

namespace Cited

variable {cited : List (Cited Formula)} {φ ψ : Formula} {s : CitedSubproof Formula}

/-- The formulas on the cited lines. -/
def formulas (cited : List (Cited Formula)) : List Formula := (lines cited).map (·.formula)

/-- The cited lines state the given formulas and the cited subproofs are the given ones, each as
often as it is given and in any order. -/
def AmountTo (cited : List (Cited Formula)) (given : List Formula)
    (under : List (CitedSubproof Formula)) : Prop :=
  (formulas cited).Perm given ∧ (subproofs cited).Perm under

theorem formulas_perm_nil_iff : (formulas cited).Perm [] ↔ lines cited = [] := by
  rw [List.perm_nil, formulas, List.map_eq_nil_iff]

theorem formulas_perm_singleton_iff :
    (formulas cited).Perm [φ] ↔ ∃ a, lines cited = [a] ∧ a.formula = φ := by
  rw [List.perm_singleton, formulas, List.map_eq_singleton_iff]

theorem formulas_eq_pair_iff :
    formulas cited = [φ, ψ] ↔ ∃ a b, lines cited = [a, b] ∧ a.formula = φ ∧ b.formula = ψ := by
  constructor
  · intro h
    obtain ⟨a, rest, hlines, ha, hrest⟩ := List.map_eq_cons_iff.mp h
    obtain ⟨b, rfl, hb⟩ := List.map_eq_singleton_iff.mp hrest
    exact ⟨a, b, hlines, ha, hb⟩
  · rintro ⟨a, b, hlines, rfl, rfl⟩
    rw [formulas, hlines, List.map_cons, List.map_singleton]

theorem amountTo_nothing_iff : AmountTo cited [] [] ↔ lines cited = [] ∧ subproofs cited = [] := by
  rw [AmountTo, formulas_perm_nil_iff, List.perm_nil]

theorem amountTo_line_iff : AmountTo cited [φ] [] ↔
    ∃ a, lines cited = [a] ∧ subproofs cited = [] ∧ a.formula = φ := by
  rw [AmountTo, formulas_perm_singleton_iff, List.perm_nil]
  exact ⟨fun ⟨⟨a, hl, ha⟩, hs⟩ => ⟨a, hl, hs, ha⟩, fun ⟨a, hl, hs, ha⟩ => ⟨⟨a, hl, ha⟩, hs⟩⟩

theorem amountTo_lines_iff : AmountTo cited [φ, ψ] [] ↔
    ∃ a b, lines cited = [a, b] ∧ subproofs cited = [] ∧
      (a.formula = φ ∧ b.formula = ψ ∨ a.formula = ψ ∧ b.formula = φ) := by
  rw [AmountTo, List.perm_pair, formulas_eq_pair_iff, formulas_eq_pair_iff, List.perm_nil]
  constructor
  · rintro ⟨⟨a, b, hl, ha, hb⟩ | ⟨a, b, hl, ha, hb⟩, hs⟩
    · exact ⟨a, b, hl, hs, .inl ⟨ha, hb⟩⟩
    · exact ⟨a, b, hl, hs, .inr ⟨ha, hb⟩⟩
  · rintro ⟨a, b, hl, hs, ⟨ha, hb⟩ | ⟨ha, hb⟩⟩
    · exact ⟨.inl ⟨a, b, hl, ha, hb⟩, hs⟩
    · exact ⟨.inr ⟨a, b, hl, ha, hb⟩, hs⟩

theorem amountTo_subproof_iff :
    AmountTo cited [] [s] ↔ lines cited = [] ∧ subproofs cited = [s] := by
  rw [AmountTo, formulas_perm_nil_iff, List.perm_singleton]

end Cited

namespace Step

open Cited

/-! ### The table -/

/-- The rows of the table: from which lines and which subproofs a rule concludes what, at the
place of `step`. -/
inductive Row (step : Step Formula) :
    Rule → List Formula → List (CitedSubproof Formula) → Formula → Prop
  | premise {φ : Formula} (outside : step.depth = 0) (first : step.afterDerivation = false)
      (declared : ∀ premises ∈ step.premises, φ ∈ premises) : Row step .premise [] [] φ
  | assumption {φ : Formula} : Row step .assumption [] [] φ
  | reiteration {φ : Formula} : Row step .reiteration [φ] [] φ
  | andIntro {φ ψ : Formula} : Row step .andIntro [φ, ψ] [] (.and φ ψ)
  /-- One line is enough for a conjunction with itself. -/
  | andIntroOnce {φ : Formula} : Row step .andIntro [φ] [] (.and φ φ)
  | andElimLeft {φ ψ : Formula} : Row step .andElim [.and φ ψ] [] φ
  | andElimRight {φ ψ : Formula} : Row step .andElim [.and φ ψ] [] ψ
  | orIntroLeft {φ ψ : Formula} : Row step .orIntro [φ] [] (.or φ ψ)
  | orIntroRight {φ ψ : Formula} : Row step .orIntro [ψ] [] (.or φ ψ)
  | orElim {φ ψ χ : Formula} : Row step .orElim [.or φ ψ] [⟨φ, χ⟩, ⟨ψ, χ⟩] χ
  | impliesIntro {φ ψ : Formula} : Row step .impliesIntro [] [⟨φ, ψ⟩] (.implies φ ψ)
  | impliesElim {φ ψ : Formula} : Row step .impliesElim [.implies φ ψ, φ] [] ψ
  | notIntro {φ : Formula} : Row step .notIntro [] [⟨φ, .bottom⟩] (.not φ)
  | notElim {φ : Formula} : Row step .notElim [.not (.not φ)] [] φ
  | contradictionIntro {φ : Formula} : Row step .contradictionIntro [φ, .not φ] [] .bottom
  | contradictionElim {φ : Formula} : Row step .contradictionElim [.bottom] [] φ
  | tautologyIntro : Row step .tautologyIntro [] [] .top
  | iffIntro {φ ψ : Formula} : Row step .iffIntro [] [⟨φ, ψ⟩, ⟨ψ, φ⟩] (.iff φ ψ)
  | iffElimLeft {φ ψ : Formula} : Row step .iffElim [.iff φ ψ, φ] [] ψ
  | iffElimRight {φ ψ : Formula} : Row step .iffElim [.iff φ ψ, ψ] [] φ
  | forAllIntro {x : Name} {φ ψ : Formula} (enabled : step.quantifiers = true)
      (arbitrary : φ.IsArbitrary x ψ step.contextNames [.forAll x φ]) :
      Row step .forAllIntro [ψ] [] (.forAll x φ)
  | forAllElim {x : Name} {φ ψ : Formula} (enabled : step.quantifiers = true)
      (isInstance : φ.IsInstance x ψ) : Row step .forAllElim [.forAll x φ] [] ψ
  | forSomeIntro {x : Name} {φ ψ : Formula} (enabled : step.quantifiers = true)
      (isInstance : φ.IsInstance x ψ) : Row step .forSomeIntro [ψ] [] (.forSome x φ)
  | forSomeElim {x : Name} {φ ψ χ : Formula} (enabled : step.quantifiers = true)
      (arbitrary : φ.IsArbitrary x ψ step.contextNames [.forSome x φ, χ]) :
      Row step .forSomeElim [.forSome x φ] [⟨ψ, χ⟩] χ

/-- At the place of `step`, `rule` yields `c` from what is cited: that makes up a row
of the table. -/
def Yields (step : Step Formula) (rule : Rule) (cited : List (Cited Formula))
    (c : Formula) : Prop :=
  ∃ given under, Cited.AmountTo cited given under ∧ Row step rule given under c

variable {step : Step Formula} {cited : List (Cited Formula)} {c : Formula}

/-! ### Premises, assumptions and repetition -/

theorem yields_premise_iff :
    step.Yields .premise step.cited step.conclusion ↔ checkPremise step = .ok () := by
  rw [checkPremise_eq_ok_iff]
  constructor
  · rintro ⟨_, _, hcited, outside, first, declared⟩
    obtain ⟨hl, hs⟩ := amountTo_nothing_iff.mp hcited
    exact ⟨hl, hs, outside, first, declared⟩
  · rintro ⟨hl, hs, outside, first, declared⟩
    exact ⟨_, _, amountTo_nothing_iff.mpr ⟨hl, hs⟩, .premise outside first declared⟩

theorem yields_assumption_iff :
    step.Yields .assumption cited c ↔ checkAssumption cited = .ok () := by
  rw [checkAssumption_eq_ok_iff]
  constructor
  · rintro ⟨_, _, hcited, ⟨⟩⟩
    exact amountTo_nothing_iff.mp hcited
  · intro h
    exact ⟨_, _, amountTo_nothing_iff.mpr h, .assumption⟩

theorem yields_reiteration_iff :
    step.Yields .reiteration cited c ↔ checkReiteration c cited = .ok () := by
  rw [checkReiteration_eq_ok_iff]
  constructor
  · rintro ⟨_, _, hcited, ⟨⟩⟩
    exact amountTo_line_iff.mp hcited
  · intro h
    exact ⟨_, _, amountTo_line_iff.mpr h, .reiteration⟩

/-! ### Conjunction and disjunction -/

theorem yields_andIntro_iff :
    step.Yields .andIntro cited c ↔ checkAndIntro c cited = .ok () := by
  rw [checkAndIntro_eq_ok_iff]
  constructor
  · rintro ⟨_, _, hcited, hrow⟩
    cases hrow with
    | andIntro =>
      obtain ⟨a, b, hl, hs, ⟨rfl, rfl⟩ | ⟨rfl, rfl⟩⟩ := amountTo_lines_iff.mp hcited
      · exact .inr ⟨a, b, hl, hs, .inl rfl⟩
      · exact .inr ⟨a, b, hl, hs, .inr rfl⟩
    | andIntroOnce =>
      obtain ⟨a, hl, hs, rfl⟩ := amountTo_line_iff.mp hcited
      exact .inl ⟨a, hl, hs, rfl⟩
  · rintro (⟨a, hl, hs, rfl⟩ | ⟨a, b, hl, hs, rfl | rfl⟩)
    · exact ⟨_, _, amountTo_line_iff.mpr ⟨a, hl, hs, rfl⟩, .andIntroOnce⟩
    · exact ⟨_, _, amountTo_lines_iff.mpr ⟨a, b, hl, hs, .inl ⟨rfl, rfl⟩⟩, .andIntro⟩
    · exact ⟨_, _, amountTo_lines_iff.mpr ⟨a, b, hl, hs, .inr ⟨rfl, rfl⟩⟩, .andIntro⟩

theorem yields_andElim_iff :
    step.Yields .andElim cited c ↔ checkAndElim c cited = .ok () := by
  rw [checkAndElim_eq_ok_iff]
  constructor
  · rintro ⟨_, _, hcited, hrow⟩
    cases hrow with
    | andElimLeft =>
      obtain ⟨a, hl, hs, ha⟩ := amountTo_line_iff.mp hcited
      exact ⟨a, hl, hs, _, .inl ha⟩
    | andElimRight =>
      obtain ⟨a, hl, hs, ha⟩ := amountTo_line_iff.mp hcited
      exact ⟨a, hl, hs, _, .inr ha⟩
  · rintro ⟨a, hl, hs, φ, ha | ha⟩
    · exact ⟨_, _, amountTo_line_iff.mpr ⟨a, hl, hs, ha⟩, .andElimLeft⟩
    · exact ⟨_, _, amountTo_line_iff.mpr ⟨a, hl, hs, ha⟩, .andElimRight⟩

theorem yields_orIntro_iff :
    step.Yields .orIntro cited c ↔ checkOrIntro c cited = .ok () := by
  rw [checkOrIntro_eq_ok_iff]
  constructor
  · rintro ⟨_, _, hcited, hrow⟩
    cases hrow with
    | orIntroLeft =>
      obtain ⟨a, hl, hs, rfl⟩ := amountTo_line_iff.mp hcited
      exact ⟨a, hl, hs, _, .inl rfl⟩
    | orIntroRight =>
      obtain ⟨a, hl, hs, rfl⟩ := amountTo_line_iff.mp hcited
      exact ⟨a, hl, hs, _, .inr rfl⟩
  · rintro ⟨a, hl, hs, φ, rfl | rfl⟩
    · exact ⟨_, _, amountTo_line_iff.mpr ⟨a, hl, hs, rfl⟩, .orIntroLeft⟩
    · exact ⟨_, _, amountTo_line_iff.mpr ⟨a, hl, hs, rfl⟩, .orIntroRight⟩

theorem yields_orElim_iff : step.Yields .orElim cited c ↔ checkOrElim c cited = .ok () := by
  rw [checkOrElim_eq_ok_iff]
  constructor
  · rintro ⟨_, _, ⟨hlines, hsubproofs⟩, ⟨⟩⟩
    obtain ⟨a, hl, ha⟩ := formulas_perm_singleton_iff.mp hlines
    rcases List.perm_pair.mp hsubproofs with hs | hs
    · exact ⟨a, _, _, hl, hs, .inl ha, rfl, rfl⟩
    · exact ⟨a, _, _, hl, hs, .inr ha, rfl, rfl⟩
  · rintro ⟨a, ⟨φ, _⟩, ⟨ψ, _⟩, hl, hs, ha, rfl, rfl⟩
    rcases ha with ha | ha
    · exact ⟨_, _, ⟨formulas_perm_singleton_iff.mpr ⟨a, hl, ha⟩, List.perm_pair.mpr (.inl hs)⟩,
        .orElim⟩
    · exact ⟨_, _, ⟨formulas_perm_singleton_iff.mpr ⟨a, hl, ha⟩, List.perm_pair.mpr (.inr hs)⟩,
        .orElim⟩

/-! ### Implication and negation -/

theorem yields_impliesIntro_iff :
    step.Yields .impliesIntro cited c ↔ checkImpliesIntro c cited = .ok () := by
  rw [checkImpliesIntro_eq_ok_iff]
  constructor
  · rintro ⟨_, _, hcited, ⟨⟩⟩
    obtain ⟨hl, hs⟩ := amountTo_subproof_iff.mp hcited
    exact ⟨_, hl, hs, rfl⟩
  · rintro ⟨s, hl, hs, rfl⟩
    exact ⟨_, _, amountTo_subproof_iff.mpr ⟨hl, hs⟩, .impliesIntro⟩

theorem yields_impliesElim_iff :
    step.Yields .impliesElim cited c ↔ checkImpliesElim c cited = .ok () := by
  rw [checkImpliesElim_eq_ok_iff]
  constructor
  · rintro ⟨_, _, hcited, ⟨⟩⟩
    obtain ⟨a, b, hl, hs, ⟨ha, rfl⟩ | ⟨rfl, hb⟩⟩ := amountTo_lines_iff.mp hcited
    · exact ⟨a, b, hl, hs, .inl ha⟩
    · exact ⟨a, b, hl, hs, .inr hb⟩
  · rintro ⟨a, b, hl, hs, ha | hb⟩
    · exact ⟨_, _, amountTo_lines_iff.mpr ⟨a, b, hl, hs, .inl ⟨ha, rfl⟩⟩, .impliesElim⟩
    · exact ⟨_, _, amountTo_lines_iff.mpr ⟨a, b, hl, hs, .inr ⟨rfl, hb⟩⟩, .impliesElim⟩

theorem yields_notIntro_iff :
    step.Yields .notIntro cited c ↔ checkNotIntro c cited = .ok () := by
  rw [checkNotIntro_eq_ok_iff]
  constructor
  · rintro ⟨_, _, hcited, ⟨⟩⟩
    obtain ⟨hl, hs⟩ := amountTo_subproof_iff.mp hcited
    exact ⟨_, hl, hs, rfl, rfl⟩
  · rintro ⟨⟨φ, _⟩, hl, hs, rfl, rfl⟩
    exact ⟨_, _, amountTo_subproof_iff.mpr ⟨hl, hs⟩, .notIntro⟩

theorem yields_notElim_iff : step.Yields .notElim cited c ↔ checkNotElim c cited = .ok () := by
  rw [checkNotElim_eq_ok_iff]
  constructor
  · rintro ⟨_, _, hcited, ⟨⟩⟩
    exact amountTo_line_iff.mp hcited
  · intro h
    exact ⟨_, _, amountTo_line_iff.mpr h, .notElim⟩

/-! ### Contradiction and tautology -/

theorem yields_contradictionIntro_iff :
    step.Yields .contradictionIntro cited c ↔ checkContradictionIntro c cited = .ok () := by
  rw [checkContradictionIntro_eq_ok_iff]
  constructor
  · rintro ⟨_, _, hcited, ⟨⟩⟩
    obtain ⟨a, b, hl, hs, ⟨rfl, hb⟩ | ⟨ha, rfl⟩⟩ := amountTo_lines_iff.mp hcited
    · exact ⟨a, b, hl, hs, rfl, .inr hb⟩
    · exact ⟨a, b, hl, hs, rfl, .inl ha⟩
  · rintro ⟨a, b, hl, hs, rfl, ha | hb⟩
    · exact ⟨_, _, amountTo_lines_iff.mpr ⟨a, b, hl, hs, .inr ⟨ha, rfl⟩⟩, .contradictionIntro⟩
    · exact ⟨_, _, amountTo_lines_iff.mpr ⟨a, b, hl, hs, .inl ⟨rfl, hb⟩⟩, .contradictionIntro⟩

theorem yields_contradictionElim_iff :
    step.Yields .contradictionElim cited c ↔ checkContradictionElim cited = .ok () := by
  rw [checkContradictionElim_eq_ok_iff]
  constructor
  · rintro ⟨_, _, hcited, ⟨⟩⟩
    exact amountTo_line_iff.mp hcited
  · intro h
    exact ⟨_, _, amountTo_line_iff.mpr h, .contradictionElim⟩

theorem yields_tautologyIntro_iff :
    step.Yields .tautologyIntro cited c ↔ checkTautologyIntro c cited = .ok () := by
  rw [checkTautologyIntro_eq_ok_iff]
  constructor
  · rintro ⟨_, _, hcited, ⟨⟩⟩
    obtain ⟨hl, hs⟩ := amountTo_nothing_iff.mp hcited
    exact ⟨hl, hs, rfl⟩
  · rintro ⟨hl, hs, rfl⟩
    exact ⟨_, _, amountTo_nothing_iff.mpr ⟨hl, hs⟩, .tautologyIntro⟩

/-! ### Biconditional -/

theorem yields_iffIntro_iff :
    step.Yields .iffIntro cited c ↔ checkIffIntro c cited = .ok () := by
  rw [checkIffIntro_eq_ok_iff]
  constructor
  · rintro ⟨_, _, ⟨hlines, hsubproofs⟩, ⟨⟩⟩
    have hl := formulas_perm_nil_iff.mp hlines
    rcases List.perm_pair.mp hsubproofs with hs | hs
    · exact ⟨_, _, hl, hs, rfl, .inl rfl⟩
    · exact ⟨_, _, hl, hs, rfl, .inr rfl⟩
  · rintro ⟨⟨φ, ψ⟩, _, hl, hs, rfl, rfl | rfl⟩
    · exact ⟨_, _, ⟨formulas_perm_nil_iff.mpr hl, List.perm_pair.mpr (.inl hs)⟩, .iffIntro⟩
    · exact ⟨_, _, ⟨formulas_perm_nil_iff.mpr hl, List.perm_pair.mpr (.inr hs)⟩, .iffIntro⟩

theorem yields_iffElim_iff : step.Yields .iffElim cited c ↔ checkIffElim c cited = .ok () := by
  rw [checkIffElim_eq_ok_iff]
  constructor
  · rintro ⟨_, _, hcited, hrow⟩
    cases hrow with
    | iffElimLeft =>
      obtain ⟨a, b, hl, hs, ⟨ha, rfl⟩ | ⟨rfl, hb⟩⟩ := amountTo_lines_iff.mp hcited
      · exact ⟨a, b, hl, hs, .inl (.inl ha)⟩
      · exact ⟨a, b, hl, hs, .inr (.inl hb)⟩
    | iffElimRight =>
      obtain ⟨a, b, hl, hs, ⟨ha, rfl⟩ | ⟨rfl, hb⟩⟩ := amountTo_lines_iff.mp hcited
      · exact ⟨a, b, hl, hs, .inl (.inr ha)⟩
      · exact ⟨a, b, hl, hs, .inr (.inr hb)⟩
  · rintro ⟨a, b, hl, hs, (ha | ha) | hb | hb⟩
    · exact ⟨_, _, amountTo_lines_iff.mpr ⟨a, b, hl, hs, .inl ⟨ha, rfl⟩⟩, .iffElimLeft⟩
    · exact ⟨_, _, amountTo_lines_iff.mpr ⟨a, b, hl, hs, .inl ⟨ha, rfl⟩⟩, .iffElimRight⟩
    · exact ⟨_, _, amountTo_lines_iff.mpr ⟨a, b, hl, hs, .inr ⟨rfl, hb⟩⟩, .iffElimLeft⟩
    · exact ⟨_, _, amountTo_lines_iff.mpr ⟨a, b, hl, hs, .inr ⟨rfl, hb⟩⟩, .iffElimRight⟩

/-! ### Quantifiers -/

theorem yields_forAllIntro_iff : step.Yields .forAllIntro cited c ↔
    step.quantifiers = true ∧ checkForAllIntro c step.contextNames cited = .ok () := by
  rw [checkForAllIntro_eq_ok_iff]
  constructor
  · rintro ⟨_, _, hcited, hrow⟩
    cases hrow with
    | forAllIntro enabled arbitrary =>
      obtain ⟨a, hl, hs, rfl⟩ := amountTo_line_iff.mp hcited
      exact ⟨enabled, a, hl, hs, _, _, rfl, arbitrary⟩
  · rintro ⟨enabled, a, hl, hs, x, φ, rfl, arbitrary⟩
    exact ⟨_, _, amountTo_line_iff.mpr ⟨a, hl, hs, rfl⟩, .forAllIntro enabled arbitrary⟩

theorem yields_forAllElim_iff : step.Yields .forAllElim cited c ↔
    step.quantifiers = true ∧ checkForAllElim c cited = .ok () := by
  rw [checkForAllElim_eq_ok_iff]
  constructor
  · rintro ⟨_, _, hcited, hrow⟩
    cases hrow with
    | forAllElim enabled isInstance =>
      obtain ⟨a, hl, hs, ha⟩ := amountTo_line_iff.mp hcited
      exact ⟨enabled, a, hl, hs, _, _, ha, isInstance⟩
  · rintro ⟨enabled, a, hl, hs, x, φ, ha, isInstance⟩
    exact ⟨_, _, amountTo_line_iff.mpr ⟨a, hl, hs, ha⟩, .forAllElim enabled isInstance⟩

theorem yields_forSomeIntro_iff : step.Yields .forSomeIntro cited c ↔
    step.quantifiers = true ∧ checkForSomeIntro c cited = .ok () := by
  rw [checkForSomeIntro_eq_ok_iff]
  constructor
  · rintro ⟨_, _, hcited, hrow⟩
    cases hrow with
    | forSomeIntro enabled isInstance =>
      obtain ⟨a, hl, hs, rfl⟩ := amountTo_line_iff.mp hcited
      exact ⟨enabled, a, hl, hs, _, _, rfl, isInstance⟩
  · rintro ⟨enabled, a, hl, hs, x, φ, rfl, isInstance⟩
    exact ⟨_, _, amountTo_line_iff.mpr ⟨a, hl, hs, rfl⟩, .forSomeIntro enabled isInstance⟩

theorem yields_forSomeElim_iff : step.Yields .forSomeElim cited c ↔
    step.quantifiers = true ∧ checkForSomeElim c step.contextNames cited = .ok () := by
  rw [checkForSomeElim_eq_ok_iff]
  constructor
  · rintro ⟨_, _, ⟨hlines, hsubproofs⟩, hrow⟩
    cases hrow with
    | forSomeElim enabled arbitrary =>
      obtain ⟨a, hl, ha⟩ := formulas_perm_singleton_iff.mp hlines
      exact ⟨enabled, a, _, hl, List.perm_singleton.mp hsubproofs, _, _, ha, ha ▸ arbitrary, rfl⟩
  · rintro ⟨enabled, a, ⟨ψ, _⟩, hl, hs, x, φ, ha, arbitrary, rfl⟩
    exact ⟨_, _, ⟨formulas_perm_singleton_iff.mpr ⟨a, hl, ha⟩, List.perm_singleton.mpr hs⟩,
      .forSomeElim enabled (ha ▸ arbitrary)⟩

/-! ### All rules -/

/-- What is refused unless quantifiers are enabled. -/
theorem onlyWith_eq_ok_iff {enabled : Bool} {mismatch : Mismatch} {outcome : Except Mismatch Unit} :
    (if !enabled then .error mismatch else outcome) = .ok () ↔
      enabled = true ∧ outcome = .ok () := by
  cases enabled <;> simp

theorem check_eq_ok_iff_yields :
    step.check = .ok () ↔ step.Yields step.rule step.cited step.conclusion := by
  rw [check]
  cases step.rule with
  | premise => exact yields_premise_iff.symm
  | assumption => exact yields_assumption_iff.symm
  | reiteration => exact yields_reiteration_iff.symm
  | andIntro => exact yields_andIntro_iff.symm
  | andElim => exact yields_andElim_iff.symm
  | orIntro => exact yields_orIntro_iff.symm
  | orElim => exact yields_orElim_iff.symm
  | impliesIntro => exact yields_impliesIntro_iff.symm
  | impliesElim => exact yields_impliesElim_iff.symm
  | notIntro => exact yields_notIntro_iff.symm
  | notElim => exact yields_notElim_iff.symm
  | contradictionIntro => exact yields_contradictionIntro_iff.symm
  | contradictionElim => exact yields_contradictionElim_iff.symm
  | tautologyIntro => exact yields_tautologyIntro_iff.symm
  | iffIntro => exact yields_iffIntro_iff.symm
  | iffElim => exact yields_iffElim_iff.symm
  | forAllIntro => exact onlyWith_eq_ok_iff.trans yields_forAllIntro_iff.symm
  | forAllElim => exact onlyWith_eq_ok_iff.trans yields_forAllElim_iff.symm
  | forSomeIntro => exact onlyWith_eq_ok_iff.trans yields_forSomeIntro_iff.symm
  | forSomeElim => exact onlyWith_eq_ok_iff.trans yields_forSomeElim_iff.symm

/-- **The checks decide the table of rules.** Any step whatever passes if and only if its rule
yields its conclusion from what it cites; and all assumptions in documents open subproofs. -/
theorem check_decides_rule :
    (∀ step : Step Formula, step.check = .ok () ↔
      step.Yields step.rule step.cited step.conclusion) ∧
      ∀ (drafts : List (Draft Formula)) (document : Document Formula),
        Document.build drafts = .ok document → ∀ line ∈ document.lines, line.rule = .assumption →
          1 ≤ line.depth ∧ ∃ outer, line.scope = line.number :: outer := by
  refine ⟨fun _ => check_eq_ok_iff_yields, fun drafts document hbuild line hline hrule => ?_⟩
  have hlaid := (Document.build_eq_ok_iff.mp hbuild).1
  obtain ⟨outer, hscope⟩ := hlaid.exists_scope_eq_cons hline hrule
  refine ⟨?_, outer, hscope⟩
  rw [← hlaid.length_scope hline, hscope, List.length_cons]
  omega

/-- `R` by modus ponens from `P → Q` and `(P → Q) → R`, in this order. -/
def detachment : Step Formula where
  rule := .impliesElim
  conclusion := .atom "R" []
  cited :=
    let minor : Formula := .implies (.atom "P" []) (.atom "Q" [])
    [.line ⟨.line 1, minor⟩, .line ⟨.line 2, .implies minor (.atom "R" [])⟩]
  depth := 1
  contextNames := []
  premises := none
  afterDerivation := true
  quantifiers := false

/-- Both cited lines are implications, and only one of them is the major premise. The assumption,
alone in a proof, opens a subproof. -/
theorem detachment_decided :
    let draft : Draft Formula := ⟨.atom "P" [], .assumption, [], 1⟩
    let line : Line Formula := ⟨draft, 1, [1]⟩
    detachment.check = .ok () ∧ Document.build [draft] = .ok ⟨[line]⟩ ∧ 1 ≤ line.depth := by
  intro draft line
  have hbuild : Document.build [draft] = .ok ⟨[line]⟩ := by decide
  refine ⟨(check_decides_rule.1 detachment).mpr ?_, hbuild, ?_⟩
  · exact ⟨_, _, ⟨.swap _ _ _, .nil⟩, .impliesElim⟩
  · exact (check_decides_rule.2 [draft] ⟨[line]⟩ hbuild line (List.mem_singleton_self line) rfl).1

end Step

end NaturalDeduction
