import NaturalDeduction.Proofs.Formula.Renaming
import NaturalDeduction.Verification.Step

/-!
# Steps under renaming

A rule treats names as tokens. When all formulas of a step are renamed alike, the step passes if
it did before, and else fails for the same reason; a complaint that a name is not arbitrary
mentions the new name.

The rules share most of their proof. Each looks at how much is cited, then at the shape of one
formula, and then compares: the first two are untouched by a renaming, and the comparisons are those
of `Proofs.Formula.Renaming`.

## Main definitions

* `Mismatch.rename`, `Step.rename`: a renamed answer, a renamed question

## Main results

* `Step.check_rename`: a renamed step fails for the same reason
-/

namespace NaturalDeduction

/-! ### Renamed questions and answers -/

/-- The only cause that mentions a name is that the name is not arbitrary. -/
def Mismatch.rename (r : Renaming) : Mismatch → Mismatch
  | notFresh n => notFresh (r.name n)
  | cause => cause

/-- The step with all its formulas and names renamed. -/
def Step.rename (r : Renaming) (step : Step Formula) : Step Formula :=
  { step with
    conclusion := step.conclusion.rename r
    cited := step.cited.map (Cited.map (Formula.rename r))
    contextNames := step.contextNames.map r.name
    premises := step.premises.map (List.map (Formula.rename r)) }

variable {r : Renaming}

/-! ### The rules -/

namespace Step

open Cited

variable {c : Formula} {cited : List (Cited Formula)} {contextNames : List Name}

/-- A test that is passed after renaming exactly if it is passed before. -/
theorem ensure_rename {p p' : Prop} [Decidable p] [Decidable p'] {requirement : Requirement}
    (h : p' ↔ p) : ensure p' requirement = (ensure p requirement).mapError (Mismatch.rename r) := by
  by_cases hp : p
  · rw [ensure, ensure, if_pos (h.mpr hp), if_pos hp]
    rfl
  · rw [ensure, ensure, if_neg fun hp' => hp (h.mp hp'), if_neg hp]
    rfl

theorem mapError_ok {ε ε' α : Type} (f : ε → ε') (a : α) : (Except.ok a).mapError f = .ok a := rfl

theorem mapError_error {ε ε' α : Type} (f : ε → ε') (e : ε) :
    (Except.error e : Except ε α).mapError f = .error (f e) := rfl

theorem wants_rename (n m : Nat) :
    wants n m (cited.map (Cited.map (Formula.rename r))) =
      (wants n m cited).mapError (Mismatch.rename r) := by
  rw [wants, wants, count_map]
  rfl

/-- Of two tests in a row the second is only made if the first is passed. -/
theorem bind_rename {x x' y y' : Except Mismatch Unit} (hx : x' = x.mapError (Mismatch.rename r))
    (hy : y' = y.mapError (Mismatch.rename r)) :
    (do x'; y') = (do x; y : Except Mismatch Unit).mapError (Mismatch.rename r) := by
  subst hx hy
  cases x <;> rfl

theorem ensureFresh_rename {n : Name} {formulas : List Formula} :
    ensureFresh (r.name n) (contextNames.map r.name) (formulas.map (Formula.rename r)) =
      (ensureFresh n contextNames formulas).mapError (Mismatch.rename r) := by
  have h : (∃ φ ∈ formulas.map (Formula.rename r), r.name n ∈ φ.freeNames) ↔
      ∃ φ ∈ formulas, n ∈ φ.freeNames := by
    simp [Formula.freeNames_rename, Renaming.name_inj]
  simp only [ensureFresh, Renaming.name_mem_map, h]
  split <;> rfl

theorem ensureArbitrary_rename {found : Option Instance} {requirement : Requirement}
    (formulas : List Formula) :
    ensureArbitrary (found.map (Instance.rename r)) requirement (contextNames.map r.name)
        (formulas.map (Formula.rename r)) =
      (ensureArbitrary found requirement contextNames formulas).mapError (Mismatch.rename r) := by
  rcases found with _ | _ | n
  · rfl
  · rfl
  · exact ensureFresh_rename

/-! ### Premises, assumptions and repetition -/

theorem checkPremise_rename {step : Step Formula} :
    checkPremise (step.rename r) = (checkPremise step).mapError (Mismatch.rename r) := by
  rw [checkPremise, checkPremise,
    show (step.rename r).cited = step.cited.map (Cited.map (Formula.rename r)) from rfl, lines_map,
      subproofs_map]
  rcases lines step.cited with _ | ⟨a, as⟩ <;> rcases subproofs step.cited with _ | ⟨s, ss⟩
  any_goals exact wants_rename 0 0
  by_cases hdepth : step.depth = 0
  · by_cases hafter : step.afterDerivation = true
    · simp [Step.rename, hdepth, hafter, mapError_error, Mismatch.rename]
    · cases hpremises : step.premises with
      | none => simp [Step.rename, hdepth, hafter, hpremises, mapError_ok]
      | some premises =>
        have hmem : step.conclusion.rename r ∈ premises.map (Formula.rename r) ↔
            step.conclusion ∈ premises := by simp [Formula.rename_inj]
        simp only [Step.rename, List.map_nil, hdepth, hafter, hpremises, Option.map_some, hmem]
        by_cases hdeclared : step.conclusion ∈ premises
        · simp [hdeclared, mapError_ok]
        · simp [hdeclared, mapError_error, Mismatch.rename]
  · simp [Step.rename, hdepth, mapError_error, Mismatch.rename]

theorem checkAssumption_rename :
    checkAssumption (cited.map (Cited.map (Formula.rename r))) =
      (checkAssumption cited).mapError (Mismatch.rename r) := by
  rw [checkAssumption, checkAssumption, lines_map, subproofs_map]
  rcases lines cited with _ | ⟨a, as⟩ <;> rcases subproofs cited with _ | ⟨s, ss⟩
  any_goals exact wants_rename 0 0
  rfl

theorem checkReiteration_rename :
    checkReiteration (c.rename r) (cited.map (Cited.map (Formula.rename r))) =
      (checkReiteration c cited).mapError (Mismatch.rename r) := by
  rw [checkReiteration, checkReiteration, lines_map, subproofs_map]
  rcases lines cited with _ | ⟨a, _ | ⟨b, as⟩⟩ <;> rcases subproofs cited with _ | ⟨s, ss⟩
  -- every other number of citations is refused alike
  any_goals exact wants_rename 1 0
  exact ensure_rename Formula.rename_inj

/-! ### Conjunction and disjunction -/

theorem checkAndIntro_rename :
    checkAndIntro (c.rename r) (cited.map (Cited.map (Formula.rename r))) =
      (checkAndIntro c cited).mapError (Mismatch.rename r) := by
  rcases c with _ | _ | ⟨_ | _ | _ | _, left, right⟩ | _ | _ | _
  -- every other shape is refused alike, whatever is cited
  any_goals rfl
  simp only [Formula.rename, checkAndIntro, lines_map, subproofs_map]
  rcases lines cited with _ | ⟨a, _ | ⟨b, _ | ⟨_, as⟩⟩⟩ <;> rcases subproofs cited with _ | ⟨s, ss⟩
  any_goals exact wants_rename 2 0
  · exact ensure_rename (and_congr Formula.rename_inj Formula.rename_inj)
  · exact ensure_rename (or_congr (and_congr Formula.rename_inj Formula.rename_inj)
      (and_congr Formula.rename_inj Formula.rename_inj))

theorem checkAndElim_rename :
    checkAndElim (c.rename r) (cited.map (Cited.map (Formula.rename r))) =
      (checkAndElim c cited).mapError (Mismatch.rename r) := by
  rw [checkAndElim, checkAndElim, lines_map, subproofs_map]
  rcases lines cited with _ | ⟨⟨citation, φ⟩, _ | ⟨b, as⟩⟩ <;>
    rcases subproofs cited with _ | ⟨s, ss⟩
  any_goals exact wants_rename 1 0
  rcases φ with _ | _ | ⟨_ | _ | _ | _, left, right⟩ | _ | _ | _
  -- a complaint about a cited formula names the citation, which has no names in it
  any_goals rfl
  exact ensure_rename (or_congr Formula.rename_inj Formula.rename_inj)

theorem checkOrIntro_rename :
    checkOrIntro (c.rename r) (cited.map (Cited.map (Formula.rename r))) =
      (checkOrIntro c cited).mapError (Mismatch.rename r) := by
  rw [checkOrIntro, checkOrIntro, lines_map, subproofs_map]
  rcases lines cited with _ | ⟨a, _ | ⟨b, as⟩⟩ <;> rcases subproofs cited with _ | ⟨s, ss⟩
  any_goals exact wants_rename 1 0
  rcases c with _ | _ | ⟨_ | _ | _ | _, left, right⟩ | _ | _ | _
  any_goals rfl
  exact ensure_rename (or_congr Formula.rename_inj Formula.rename_inj)

theorem checkOrElim_rename :
    checkOrElim (c.rename r) (cited.map (Cited.map (Formula.rename r))) =
      (checkOrElim c cited).mapError (Mismatch.rename r) := by
  rw [checkOrElim, checkOrElim, lines_map, subproofs_map]
  rcases lines cited with _ | ⟨⟨citation, φ⟩, _ | ⟨b, as⟩⟩ <;>
    rcases subproofs cited with _ | ⟨s, _ | ⟨t, _ | ⟨_, ss⟩⟩⟩
  any_goals exact wants_rename 1 2
  rcases φ with _ | _ | ⟨_ | _ | _ | _, left, right⟩ | _ | _ | _
  any_goals rfl
  refine bind_rename (ensure_rename (or_congr ?_ ?_)) (ensure_rename ?_)
  · exact and_congr Formula.rename_inj Formula.rename_inj
  · exact and_congr Formula.rename_inj Formula.rename_inj
  · exact and_congr Formula.rename_inj Formula.rename_inj

/-! ### Implication and negation -/

theorem checkImpliesIntro_rename :
    checkImpliesIntro (c.rename r) (cited.map (Cited.map (Formula.rename r))) =
      (checkImpliesIntro c cited).mapError (Mismatch.rename r) := by
  rw [checkImpliesIntro, checkImpliesIntro, lines_map, subproofs_map]
  rcases lines cited with _ | ⟨a, as⟩ <;> rcases subproofs cited with _ | ⟨s, _ | ⟨t, ss⟩⟩
  any_goals exact wants_rename 0 1
  rcases c with _ | _ | ⟨_ | _ | _ | _, antecedent, consequent⟩ | _ | _ | _
  any_goals rfl
  exact bind_rename (ensure_rename Formula.rename_inj) (ensure_rename Formula.rename_inj)

theorem detach_rename {major minor : Formula} :
    detach (c.rename r) (major.rename r) (minor.rename r) =
      (detach c major minor).map (Except.mapError (Mismatch.rename r)) := by
  rcases major with _ | _ | ⟨_ | _ | _ | _, antecedent, consequent⟩ | _ | _ | _
  any_goals rfl
  exact congrArg some
    (bind_rename (ensure_rename Formula.rename_inj) (ensure_rename Formula.rename_inj))

theorem exchange_rename {major minor : Formula} :
    exchange (c.rename r) (major.rename r) (minor.rename r) =
      (exchange c major minor).map (Except.mapError (Mismatch.rename r)) := by
  rcases major with _ | _ | ⟨_ | _ | _ | _, left, right⟩ | _ | _ | _
  any_goals rfl
  refine congrArg some (ensure_rename (or_congr ?_ ?_))
  · exact and_congr Formula.rename_inj Formula.rename_inj
  · exact and_congr Formula.rename_inj Formula.rename_inj

theorem eitherOrder_rename {requirement : Requirement}
    {first second : Option (Except Mismatch Unit)} :
    eitherOrder requirement (first.map (Except.mapError (Mismatch.rename r)))
        (second.map (Except.mapError (Mismatch.rename r))) =
      (eitherOrder requirement first second).mapError (Mismatch.rename r) := by
  rcases first with _ | _ | _ <;> rcases second with _ | _ <;> rfl

theorem checkImpliesElim_rename :
    checkImpliesElim (c.rename r) (cited.map (Cited.map (Formula.rename r))) =
      (checkImpliesElim c cited).mapError (Mismatch.rename r) := by
  rw [checkImpliesElim, checkImpliesElim, lines_map, subproofs_map]
  rcases lines cited with _ | ⟨a, _ | ⟨b, _ | ⟨_, as⟩⟩⟩ <;> rcases subproofs cited with _ | ⟨s, ss⟩
  any_goals exact wants_rename 2 0
  simp only [List.map_cons, List.map_nil, CitedLine.map, detach_rename]
  exact eitherOrder_rename

theorem checkNotIntro_rename :
    checkNotIntro (c.rename r) (cited.map (Cited.map (Formula.rename r))) =
      (checkNotIntro c cited).mapError (Mismatch.rename r) := by
  rw [checkNotIntro, checkNotIntro, lines_map, subproofs_map]
  rcases lines cited with _ | ⟨a, as⟩ <;> rcases subproofs cited with _ | ⟨s, _ | ⟨t, ss⟩⟩
  any_goals exact wants_rename 0 1
  rcases c with _ | negated | _ | _ | _ | _
  any_goals rfl
  exact bind_rename (ensure_rename Formula.rename_inj)
    (ensure_rename (Formula.rename_inj (ψ := .bottom)))

theorem checkNotElim_rename :
    checkNotElim (c.rename r) (cited.map (Cited.map (Formula.rename r))) =
      (checkNotElim c cited).mapError (Mismatch.rename r) := by
  rw [checkNotElim, checkNotElim, lines_map, subproofs_map]
  rcases lines cited with _ | ⟨⟨citation, φ⟩, _ | ⟨b, as⟩⟩ <;>
    rcases subproofs cited with _ | ⟨s, ss⟩
  any_goals exact wants_rename 1 0
  rcases φ with _ | (_ | inner | _ | _ | _ | _) | _ | _ | _ | _
  any_goals rfl
  exact ensure_rename Formula.rename_inj

/-! ### Contradiction and tautology -/

theorem checkContradictionIntro_rename :
    checkContradictionIntro (c.rename r) (cited.map (Cited.map (Formula.rename r))) =
      (checkContradictionIntro c cited).mapError (Mismatch.rename r) := by
  rw [checkContradictionIntro, checkContradictionIntro, lines_map, subproofs_map]
  rcases lines cited with _ | ⟨a, _ | ⟨b, _ | ⟨_, as⟩⟩⟩ <;> rcases subproofs cited with _ | ⟨s, ss⟩
  any_goals exact wants_rename 2 0
  cases c with
  | bottom =>
    exact ensure_rename (or_congr (Formula.rename_inj (ψ := .not b.formula))
      (Formula.rename_inj (ψ := .not a.formula)))
  | _ => rfl

theorem checkContradictionElim_rename :
    checkContradictionElim (cited.map (Cited.map (Formula.rename r))) =
      (checkContradictionElim cited).mapError (Mismatch.rename r) := by
  rw [checkContradictionElim, checkContradictionElim, lines_map, subproofs_map]
  rcases lines cited with _ | ⟨⟨citation, φ⟩, _ | ⟨b, as⟩⟩ <;>
    rcases subproofs cited with _ | ⟨s, ss⟩
  any_goals exact wants_rename 1 0
  cases φ <;> rfl

theorem checkTautologyIntro_rename :
    checkTautologyIntro (c.rename r) (cited.map (Cited.map (Formula.rename r))) =
      (checkTautologyIntro c cited).mapError (Mismatch.rename r) := by
  unfold checkTautologyIntro
  rw [lines_map, subproofs_map]
  rcases lines cited with _ | ⟨a, as⟩ <;> rcases subproofs cited with _ | ⟨s, ss⟩
  any_goals exact wants_rename 0 0
  cases c <;> rfl

/-! ### Biconditional -/

theorem checkIffIntro_rename :
    checkIffIntro (c.rename r) (cited.map (Cited.map (Formula.rename r))) =
      (checkIffIntro c cited).mapError (Mismatch.rename r) := by
  rw [checkIffIntro, checkIffIntro, lines_map, subproofs_map]
  rcases lines cited with _ | ⟨a, as⟩ <;>
    rcases subproofs cited with _ | ⟨s, _ | ⟨t, _ | ⟨_, ss⟩⟩⟩
  any_goals exact wants_rename 0 2
  rcases c with _ | _ | ⟨_ | _ | _ | _, left, right⟩ | _ | _ | _
  any_goals rfl
  have derives (u : CitedSubproof Formula) (φ ψ : Formula) :
      u.map (Formula.rename r) = ⟨φ.rename r, ψ.rename r⟩ ↔ u = ⟨φ, ψ⟩ := by
    obtain ⟨assumption, conclusion⟩ := u
    simp [CitedSubproof.map, Formula.rename_inj]
  exact ensure_rename (or_congr (and_congr (derives s left right) (derives t right left))
    (and_congr (derives s right left) (derives t left right)))

theorem checkIffElim_rename :
    checkIffElim (c.rename r) (cited.map (Cited.map (Formula.rename r))) =
      (checkIffElim c cited).mapError (Mismatch.rename r) := by
  rw [checkIffElim, checkIffElim, lines_map, subproofs_map]
  rcases lines cited with _ | ⟨a, _ | ⟨b, _ | ⟨_, as⟩⟩⟩ <;> rcases subproofs cited with _ | ⟨s, ss⟩
  any_goals exact wants_rename 2 0
  simp only [List.map_cons, List.map_nil, CitedLine.map, exchange_rename]
  exact eitherOrder_rename

/-! ### Quantifiers -/

theorem checkForAllIntro_rename :
    checkForAllIntro (c.rename r) (contextNames.map r.name)
      (cited.map (Cited.map (Formula.rename r))) =
      (checkForAllIntro c contextNames cited).mapError (Mismatch.rename r) := by
  rw [checkForAllIntro, checkForAllIntro, lines_map, subproofs_map]
  rcases lines cited with _ | ⟨a, _ | ⟨b, as⟩⟩ <;> rcases subproofs cited with _ | ⟨s, ss⟩
  any_goals exact wants_rename 1 0
  rcases c with _ | _ | _ | ⟨_ | _, x, body⟩ | _ | _
  any_goals rfl
  simp only [List.map_cons, List.map_nil, CitedLine.map, Formula.rename, Formula.instanceOf?_rename]
  exact ensureArbitrary_rename [.forAll x body]

theorem checkForAllElim_rename :
    checkForAllElim (c.rename r) (cited.map (Cited.map (Formula.rename r))) =
      (checkForAllElim c cited).mapError (Mismatch.rename r) := by
  rw [checkForAllElim, checkForAllElim, lines_map, subproofs_map]
  rcases lines cited with _ | ⟨⟨citation, φ⟩, _ | ⟨b, as⟩⟩ <;>
    rcases subproofs cited with _ | ⟨s, ss⟩
  any_goals exact wants_rename 1 0
  rcases φ with _ | _ | _ | ⟨_ | _, x, body⟩ | _ | _
  any_goals rfl
  exact ensure_rename (by rw [Formula.instanceOf?_rename, Option.isSome_map])

theorem checkForSomeIntro_rename :
    checkForSomeIntro (c.rename r) (cited.map (Cited.map (Formula.rename r))) =
      (checkForSomeIntro c cited).mapError (Mismatch.rename r) := by
  rw [checkForSomeIntro, checkForSomeIntro, lines_map, subproofs_map]
  rcases lines cited with _ | ⟨a, _ | ⟨b, as⟩⟩ <;> rcases subproofs cited with _ | ⟨s, ss⟩
  any_goals exact wants_rename 1 0
  rcases c with _ | _ | _ | ⟨_ | _, x, body⟩ | _ | _
  any_goals rfl
  exact ensure_rename (by rw [CitedLine.map, Formula.instanceOf?_rename, Option.isSome_map])

theorem checkForSomeElim_rename :
    checkForSomeElim (c.rename r) (contextNames.map r.name)
      (cited.map (Cited.map (Formula.rename r))) =
      (checkForSomeElim c contextNames cited).mapError (Mismatch.rename r) := by
  rw [checkForSomeElim, checkForSomeElim, lines_map, subproofs_map]
  rcases lines cited with _ | ⟨⟨citation, φ⟩, _ | ⟨b, as⟩⟩ <;>
    rcases subproofs cited with _ | ⟨s, _ | ⟨t, ss⟩⟩
  any_goals exact wants_rename 1 1
  rcases φ with _ | _ | _ | ⟨_ | _, x, body⟩ | _ | _
  any_goals rfl
  refine bind_rename ?_ (ensure_rename Formula.rename_inj)
  rw [CitedSubproof.map, Formula.instanceOf?_rename]
  exact ensureArbitrary_rename [.forSome x body, c]

/-! ### All rules -/

/-- A renamed step passes if the step does, and fails for the same reason. -/
theorem check_rename (step : Step Formula) :
    (step.rename r).check = step.check.mapError (Mismatch.rename r) := by
  obtain ⟨rule, c, cited, depth, contextNames, premises, afterDerivation, quantifiers⟩ := step
  rw [check, check]
  by_cases hallowed : (rule.needsQuantifiers && !quantifiers) = true
  · rw [if_pos hallowed, Step.rename, if_pos hallowed]
    rfl
  · rw [if_neg hallowed, Step.rename, if_neg hallowed]
    cases rule with
    | premise => exact checkPremise_rename
    | assumption => exact checkAssumption_rename
    | reiteration => exact checkReiteration_rename
    | andIntro => exact checkAndIntro_rename
    | andElim => exact checkAndElim_rename
    | orIntro => exact checkOrIntro_rename
    | orElim => exact checkOrElim_rename
    | impliesIntro => exact checkImpliesIntro_rename
    | impliesElim => exact checkImpliesElim_rename
    | notIntro => exact checkNotIntro_rename
    | notElim => exact checkNotElim_rename
    | contradictionIntro => exact checkContradictionIntro_rename
    | contradictionElim => exact checkContradictionElim_rename
    | tautologyIntro => exact checkTautologyIntro_rename
    | iffIntro => exact checkIffIntro_rename
    | iffElim => exact checkIffElim_rename
    | forAllIntro => exact checkForAllIntro_rename
    | forAllElim => exact checkForAllElim_rename
    | forSomeIntro => exact checkForSomeIntro_rename
    | forSomeElim => exact checkForSomeElim_rename

end Step

end NaturalDeduction
