import NaturalDeduction.Proofs.Forest.Walks
import NaturalDeduction.Verification.Step

/-!
# Single steps over stored formulas

A rule that is checked in a forest looks a formula up where it has to know its shape, one
layer at a time, and compares handles where it has to know that two formulas are the same. It
builds no formulas.

In a well-formed forest this comes to the same as checking the rule on the formulas. A handle that
has been looked up has the layer that its formula has, and comparing handles is comparing formulas
(`Forest.WellFormed.eq_iff`), so the tests are made on the same occasions and with the same
outcome. The forest has to be well-formed for that: in one that stores a node twice, a line cannot
repeat its own copy.

## Implementation notes

What is known about a handle is kept together with it: a `Forest.Reference` is a handle with the
formula that it stands for. A step over references has two images, one over handles and one over
formulas, and all the lemmas below say of one rule that it answers alike on both. Thereby the lines
and subproofs that are cited are counted and taken apart once for both.

## Main definitions

* `Forest.checkAndIntro` and the definitions of that form, `Forest.check`: the rules over handles
* `Forest.Reference`: a handle with what it stands for

## Main results

* `Forest.WellFormed.check_eq`: a step is judged by handles as by formulas
-/

namespace NaturalDeduction

namespace Forest

/-! ### The rules -/

section Rules

variable (forest : Forest)

/-- A name that stands for an arbitrary individual occurs free neither in the context nor in the
given formulas. -/
def ensureFresh (name : Name) (contextNames : List Name) (formulas : List Handle) :
    Option (Except Mismatch Unit) := do
  let names ← formulas.mapM forest.collectNames?
  return if name ∈ contextNames ∨ ∃ free ∈ names, name ∈ free then .error (.notFresh name)
    else .ok ()

/-- A formula has to be an instance, and the name in it, if there is one, has to stand for an
arbitrary individual. -/
def ensureArbitrary (found : Option Instance) (requirement : Requirement)
    (contextNames : List Name) (formulas : List Handle) : Option (Except Mismatch Unit) :=
  match found with
  | none => some (.error (.requirement requirement))
  | some .vacuous => some (.ok ())
  | some (.name name) => forest.ensureFresh name contextNames formulas

/-- From `φ` and `ψ`, `φ ∧ ψ`; a line that is both conjuncts may be cited once. -/
def checkAndIntro (c : Handle) (cited : List (Cited Handle)) : Option (Except Mismatch Unit) := do
  match ← forest.node? c with
  | .binary .and left right =>
    match Cited.lines cited, Cited.subproofs cited with
    | [a], [] =>
      return Step.ensure (left = right ∧ a.formula = left) .singleLineIsBothConjuncts
    | [a, b], [] =>
      return Step.ensure
        ((a.formula = left ∧ b.formula = right) ∨ (a.formula = right ∧ b.formula = left))
        .linesAreConjuncts
    | _, _ => return Step.wants 2 0 cited
  | _ => return .error (.conclusionShape .conjunction)

/-- From `φ ∧ ψ`, either conjunct. -/
def checkAndElim (c : Handle) (cited : List (Cited Handle)) : Option (Except Mismatch Unit) :=
  match Cited.lines cited, Cited.subproofs cited with
  | [a], [] => do
    match ← forest.node? a.formula with
    | .binary .and left right =>
      return Step.ensure (c = left ∨ c = right) .conclusionIsConjunct
    | _ => return .error (.citedShape a.citation .conjunction)
  | _, _ => some (Step.wants 1 0 cited)

/-- From either disjunct, `φ ∨ ψ`. -/
def checkOrIntro (c : Handle) (cited : List (Cited Handle)) : Option (Except Mismatch Unit) :=
  match Cited.lines cited, Cited.subproofs cited with
  | [a], [] => do
    match ← forest.node? c with
    | .binary .or left right =>
      return Step.ensure (a.formula = left ∨ a.formula = right) .lineIsDisjunct
    | _ => return .error (.conclusionShape .disjunction)
  | _, _ => some (Step.wants 1 0 cited)

/-- From `φ ∨ ψ`, what follows from each disjunct. -/
def checkOrElim (c : Handle) (cited : List (Cited Handle)) : Option (Except Mismatch Unit) :=
  match Cited.lines cited, Cited.subproofs cited with
  | [a], [s, t] => do
    match ← forest.node? a.formula with
    | .binary .or left right =>
      return do
        Step.ensure ((s.assumption = left ∧ t.assumption = right) ∨
          (s.assumption = right ∧ t.assumption = left)) .subproofsAssumeDisjuncts
        Step.ensure (s.conclusion = c ∧ t.conclusion = c) .subproofsEndInConclusion
    | _ => return .error (.citedShape a.citation .disjunction)
  | _, _ => some (Step.wants 1 2 cited)

/-- From `ψ` under the assumption `φ`, `φ → ψ`. -/
def checkImpliesIntro (c : Handle) (cited : List (Cited Handle)) : Option (Except Mismatch Unit) :=
  match Cited.lines cited, Cited.subproofs cited with
  | [], [s] => do
    match ← forest.node? c with
    | .binary .implies antecedent consequent =>
      return do
        Step.ensure (s.assumption = antecedent) .subproofAssumesAntecedent
        Step.ensure (s.conclusion = consequent) .subproofEndsInConsequent
    | _ => return .error (.conclusionShape .implication)
  | _, _ => some (Step.wants 0 1 cited)

/-- Whether `c` follows from `major` and `minor`, provided that `major` is an implication. -/
def detach (c major minor : Handle) : Option (Option (Except Mismatch Unit)) := do
  match ← forest.node? major with
  | .binary .implies antecedent consequent =>
    return some do
      Step.ensure (minor = antecedent) .otherLineIsAntecedent
      Step.ensure (c = consequent) .conclusionIsConsequent
  | _ => return none

/-- Whether `c` follows from `major` and `minor`, provided that `major` is a biconditional. -/
def exchange (c major minor : Handle) : Option (Option (Except Mismatch Unit)) := do
  match ← forest.node? major with
  | .binary .iff left right =>
    return some (Step.ensure ((minor = left ∧ c = right) ∨ (minor = right ∧ c = left))
      .conclusionIsOppositeSide)
  | _ => return none

/-- From `φ → ψ` and `φ`, `ψ`. -/
def checkImpliesElim (c : Handle) (cited : List (Cited Handle)) : Option (Except Mismatch Unit) :=
  match Cited.lines cited, Cited.subproofs cited with
  | [a, b], [] => do
    let first ← forest.detach c a.formula b.formula
    let second ← forest.detach c b.formula a.formula
    return Step.eitherOrder .someLineIsImplication first second
  | _, _ => some (Step.wants 2 0 cited)

/-- From `⊥` under the assumption `φ`, `¬φ`. -/
def checkNotIntro (c : Handle) (cited : List (Cited Handle)) : Option (Except Mismatch Unit) :=
  match Cited.lines cited, Cited.subproofs cited with
  | [], [s] => do
    match ← forest.node? c with
    | .not negated =>
      let last ← forest.node? s.conclusion
      return do
        Step.ensure (s.assumption = negated) .subproofAssumesNegated
        Step.ensure (last = .bottom) .subproofEndsInBottom
    | _ => return .error (.conclusionShape .negation)
  | _, _ => some (Step.wants 0 1 cited)

/-- From `¬¬φ`, `φ`. -/
def checkNotElim (c : Handle) (cited : List (Cited Handle)) : Option (Except Mismatch Unit) :=
  match Cited.lines cited, Cited.subproofs cited with
  | [a], [] => do
    match ← forest.node? a.formula with
    | .not negation =>
      match ← forest.node? negation with
      | .not inner => return Step.ensure (inner = c) .conclusionDropsNegations
      | _ => return .error (.citedShape a.citation .doubleNegation)
    | _ => return .error (.citedShape a.citation .doubleNegation)
  | _, _ => some (Step.wants 1 0 cited)

/-- From `φ` and `¬φ`, `⊥`. -/
def checkContradictionIntro (c : Handle) (cited : List (Cited Handle)) :
    Option (Except Mismatch Unit) :=
  match Cited.lines cited, Cited.subproofs cited with
  | [a, b], [] => do
    match ← forest.node? c with
    | .bottom =>
      let first ← forest.node? a.formula
      let second ← forest.node? b.formula
      return Step.ensure (first = .not b.formula ∨ second = .not a.formula) .linesContradict
    | _ => return .error (.conclusionShape .bottom)
  | _, _ => some (Step.wants 2 0 cited)

/-- From `⊥`, anything. -/
def checkContradictionElim (cited : List (Cited Handle)) : Option (Except Mismatch Unit) :=
  match Cited.lines cited, Cited.subproofs cited with
  | [a], [] => do
    match ← forest.node? a.formula with
    | .bottom => return .ok ()
    | _ => return .error (.citedShape a.citation .bottom)
  | _, _ => some (Step.wants 1 0 cited)

/-- From nothing, `⊤`. -/
def checkTautologyIntro (c : Handle) (cited : List (Cited Handle)) :
    Option (Except Mismatch Unit) :=
  match Cited.lines cited, Cited.subproofs cited with
  | [], [] => do
    match ← forest.node? c with
    | .top => return .ok ()
    | _ => return .error (.conclusionShape .top)
  | _, _ => some (Step.wants 0 0 cited)

/-- From `ψ` under the assumption `φ` and `φ` under the assumption `ψ`, `φ ↔ ψ`. -/
def checkIffIntro (c : Handle) (cited : List (Cited Handle)) : Option (Except Mismatch Unit) :=
  match Cited.lines cited, Cited.subproofs cited with
  | [], [s, t] => do
    match ← forest.node? c with
    | .binary .iff left right =>
      return Step.ensure
        ((s = ⟨left, right⟩ ∧ t = ⟨right, left⟩) ∨ (s = ⟨right, left⟩ ∧ t = ⟨left, right⟩))
        .subproofsDeriveEachOther
    | _ => return .error (.conclusionShape .biconditional)
  | _, _ => some (Step.wants 0 2 cited)

/-- From `φ ↔ ψ` and one side, the other side. -/
def checkIffElim (c : Handle) (cited : List (Cited Handle)) : Option (Except Mismatch Unit) :=
  match Cited.lines cited, Cited.subproofs cited with
  | [a, b], [] => do
    let first ← forest.exchange c a.formula b.formula
    let second ← forest.exchange c b.formula a.formula
    return Step.eitherOrder .someLineIsBiconditional first second
  | _, _ => some (Step.wants 2 0 cited)

/-- From an instance with an arbitrary name, the universal. -/
def checkForAllIntro (c : Handle) (contextNames : List Name) (cited : List (Cited Handle)) :
    Option (Except Mismatch Unit) :=
  match Cited.lines cited, Cited.subproofs cited with
  | [a], [] => do
    match ← forest.node? c with
    | .quantified .forAll x body =>
      let found ← forest.walkInstance? body x a.formula
      forest.ensureArbitrary found .lineIsInstance contextNames [c]
    | _ => return .error (.conclusionShape .universal)
  | _, _ => some (Step.wants 1 0 cited)

/-- From the universal, any instance. -/
def checkForAllElim (c : Handle) (cited : List (Cited Handle)) : Option (Except Mismatch Unit) :=
  match Cited.lines cited, Cited.subproofs cited with
  | [a], [] => do
    match ← forest.node? a.formula with
    | .quantified .forAll x body =>
      let found ← forest.walkInstance? body x c
      return Step.ensure found.isSome .conclusionIsInstance
    | _ => return .error (.citedShape a.citation .universal)
  | _, _ => some (Step.wants 1 0 cited)

/-- From any instance, the existential. -/
def checkForSomeIntro (c : Handle) (cited : List (Cited Handle)) : Option (Except Mismatch Unit) :=
  match Cited.lines cited, Cited.subproofs cited with
  | [a], [] => do
    match ← forest.node? c with
    | .quantified .forSome x body =>
      let found ← forest.walkInstance? body x a.formula
      return Step.ensure found.isSome .lineIsInstance
    | _ => return .error (.conclusionShape .existential)
  | _, _ => some (Step.wants 1 0 cited)

/-- From the existential, what follows from an instance with an arbitrary name. -/
def checkForSomeElim (c : Handle) (contextNames : List Name) (cited : List (Cited Handle)) :
    Option (Except Mismatch Unit) :=
  match Cited.lines cited, Cited.subproofs cited with
  | [a], [s] => do
    match ← forest.node? a.formula with
    | .quantified .forSome x body =>
      let found ← forest.walkInstance? body x s.assumption
      let arbitrary ←
        forest.ensureArbitrary found .subproofAssumesInstance contextNames [a.formula, c]
      return do
        arbitrary
        Step.ensure (s.conclusion = c) .subproofEndsInConclusion
    | _ => return .error (.citedShape a.citation .existential)
  | _, _ => some (Step.wants 1 1 cited)

/-- Whether a step over handles is an instance of its rule, and why not; `none` if the forest does
not hold a formula that the rule looks at. -/
def check (step : Step Handle) : Option (Except Mismatch Unit) :=
  if step.rule.needsQuantifiers && !step.quantifiers then
    some (.error (.needsPredicateCalculus step.rule))
  else
    match step.rule with
    | .premise => some (Step.checkPremise step)
    | .assumption => some (Step.checkAssumption step.cited)
    | .reiteration => some (Step.checkReiteration step.conclusion step.cited)
    | .andIntro => forest.checkAndIntro step.conclusion step.cited
    | .andElim => forest.checkAndElim step.conclusion step.cited
    | .orIntro => forest.checkOrIntro step.conclusion step.cited
    | .orElim => forest.checkOrElim step.conclusion step.cited
    | .impliesIntro => forest.checkImpliesIntro step.conclusion step.cited
    | .impliesElim => forest.checkImpliesElim step.conclusion step.cited
    | .notIntro => forest.checkNotIntro step.conclusion step.cited
    | .notElim => forest.checkNotElim step.conclusion step.cited
    | .contradictionIntro => forest.checkContradictionIntro step.conclusion step.cited
    | .contradictionElim => forest.checkContradictionElim step.cited
    | .tautologyIntro => forest.checkTautologyIntro step.conclusion step.cited
    | .iffIntro => forest.checkIffIntro step.conclusion step.cited
    | .iffElim => forest.checkIffElim step.conclusion step.cited
    | .forAllIntro => forest.checkForAllIntro step.conclusion step.contextNames step.cited
    | .forAllElim => forest.checkForAllElim step.conclusion step.cited
    | .forSomeIntro => forest.checkForSomeIntro step.conclusion step.cited
    | .forSomeElim => forest.checkForSomeElim step.conclusion step.contextNames step.cited

end Rules

/-! ### Steps over references -/

/-- A handle with the formula that it stands for. -/
structure Reference (forest : Forest) where
  handle : Handle
  formula : Formula
  reads : forest.formula? handle = some formula

section Agreement

open Cited Reference

variable {forest : Forest} {c : forest.Reference} {cited : List (Cited forest.Reference)}
  {contextNames contextNames' : List Name}

/-- What is cited, by handles. -/
abbrev onHandles (cited : List (Cited forest.Reference)) : List (Cited Handle) :=
  cited.map (Cited.map handle)

/-- What is cited, by formulas. -/
abbrev onFormulas (cited : List (Cited forest.Reference)) : List (Cited Formula) :=
  cited.map (Cited.map formula)

theorem ensure_congr {p p' : Prop} [Decidable p] [Decidable p'] {requirement : Requirement}
    (h : p ↔ p') : Step.ensure p requirement = Step.ensure p' requirement := by
  simp only [h]

/-- Of two tests in a row the second is only made if the first is passed. -/
theorem then_congr {p p' q q' : Prop} [Decidable p] [Decidable p'] [Decidable q] [Decidable q']
    {first second : Requirement} (hp : p ↔ p') (hq : q ↔ q') :
    (do Step.ensure p first; Step.ensure q second) =
      (do Step.ensure p' first; Step.ensure q' second) := by
  rw [ensure_congr hp, ensure_congr hq]

theorem wants_congr (n m : Nat) :
    Step.wants n m (onHandles cited) = Step.wants n m (onFormulas cited) := by
  rw [Step.wants, Step.wants, count_map, count_map]

theorem wants_eq (n m : Nat) :
    some (Step.wants n m (onHandles cited)) = some (Step.wants n m (onFormulas cited)) :=
  congrArg some (wants_congr n m)

/-- Two formulas are two others, in one order or the other, exactly if their handles are. -/
theorem WellFormed.pair_iff (wf : forest.WellFormed) (a b : forest.Reference) {l r : Handle}
    {φ ψ : Formula} (hl : forest.formula? l = some φ) (hr : forest.formula? r = some ψ) :
    ((a.handle = l ∧ b.handle = r) ∨ (a.handle = r ∧ b.handle = l)) ↔
      ((a.formula = φ ∧ b.formula = ψ) ∨ (a.formula = ψ ∧ b.formula = φ)) := by
  rw [wf.eq_iff a.reads hl, wf.eq_iff b.reads hr, wf.eq_iff a.reads hr, wf.eq_iff b.reads hl]

/-- Only `⊥` has the layer of `⊥`. -/
theorem Layer.eq_bottom_iff {node : Node} {φ : Formula} (h : forest.Layer node φ) :
    node = .bottom ↔ φ = .bottom := by
  cases h <;> simp

/-- Only a negation of a formula has the layer of a negation of it. -/
theorem Layer.eq_not_iff (wf : forest.WellFormed) {node : Node} {φ ψ : Formula} {a : Handle}
    (h : forest.Layer node φ) (ha : forest.formula? a = some ψ) : node = .not a ↔ φ = .not ψ := by
  cases h with
  | not hi => simp [wf.eq_iff hi ha]
  | _ => simp

/-! ### Premises, assumptions and repetition -/

/-- A formula that only has to be the same as another may as well be a handle. -/
theorem checkPremise_eq (wf : forest.WellFormed) (step : Step forest.Reference) :
    Step.checkPremise (step.map handle) = Step.checkPremise (step.map formula) := by
  have hmem (premises : List forest.Reference) : step.conclusion.handle ∈ premises.map handle ↔
      step.conclusion.formula ∈ premises.map formula := by
    simp only [List.mem_map, wf.eq_iff (reads _) step.conclusion.reads]
  simp only [Step.checkPremise, Step.map, lines_map, subproofs_map]
  rcases lines step.cited with _ | ⟨a, as⟩ <;> rcases subproofs step.cited with _ | ⟨s, ss⟩
  any_goals exact wants_congr 0 0
  cases step.premises with
  | none => rfl
  | some premises =>
    exact if_congr .rfl rfl (if_congr .rfl rfl (if_congr (hmem premises) rfl rfl))

theorem checkAssumption_eq :
    Step.checkAssumption (onHandles cited) = Step.checkAssumption (onFormulas cited) := by
  simp only [Step.checkAssumption, lines_map, subproofs_map]
  rcases lines cited with _ | ⟨a, as⟩ <;> rcases subproofs cited with _ | ⟨s, ss⟩
  any_goals exact wants_congr 0 0
  rfl

theorem checkReiteration_eq (wf : forest.WellFormed) :
    Step.checkReiteration c.handle (onHandles cited) =
      Step.checkReiteration c.formula (onFormulas cited) := by
  simp only [Step.checkReiteration, lines_map, subproofs_map]
  rcases lines cited with _ | ⟨a, _ | ⟨b, as⟩⟩ <;> rcases subproofs cited with _ | ⟨s, ss⟩
  any_goals exact wants_congr 1 0
  exact ensure_congr (wf.eq_iff a.formula.reads c.reads)

/-! ### Conjunction and disjunction -/

theorem checkAndIntro_eq (wf : forest.WellFormed) :
    forest.checkAndIntro c.handle (onHandles cited) =
      some (Step.checkAndIntro c.formula (onFormulas cited)) := by
  obtain ⟨c, φ, hc⟩ := c
  obtain ⟨node, hnode, hlayer⟩ := wf.formula?_eq_some_iff.mp hc
  simp only [checkAndIntro, hnode]
  cases hlayer with
  | @binary k l r _ _ hl hr =>
    cases k with
    | and =>
      simp only [Step.checkAndIntro, lines_map, subproofs_map]
      rcases lines cited with _ | ⟨a, _ | ⟨b, _ | ⟨_, as⟩⟩⟩ <;>
        rcases subproofs cited with _ | ⟨s, ss⟩
      any_goals exact wants_eq 2 0
      · exact congrArg some
          (ensure_congr (and_congr (wf.eq_iff hl hr) (wf.eq_iff a.formula.reads hl)))
      · exact congrArg some (ensure_congr (wf.pair_iff a.formula b.formula hl hr))
    | _ => rfl
  | _ => rfl

theorem checkAndElim_eq (wf : forest.WellFormed) :
    forest.checkAndElim c.handle (onHandles cited) =
      some (Step.checkAndElim c.formula (onFormulas cited)) := by
  simp only [checkAndElim, Step.checkAndElim, lines_map, subproofs_map]
  rcases lines cited with _ | ⟨⟨citation, a, φ, ha⟩, _ | ⟨b, as⟩⟩ <;>
    rcases subproofs cited with _ | ⟨s, ss⟩
  any_goals exact wants_eq 1 0
  obtain ⟨node, hnode, hlayer⟩ := wf.formula?_eq_some_iff.mp ha
  simp only [List.map_cons, List.map_nil, CitedLine.map, hnode]
  cases hlayer with
  | @binary k l r _ _ hl hr =>
    cases k with
    | and =>
      exact congrArg some (ensure_congr (or_congr (wf.eq_iff c.reads hl) (wf.eq_iff c.reads hr)))
    | _ => rfl
  | _ => rfl

theorem checkOrIntro_eq (wf : forest.WellFormed) :
    forest.checkOrIntro c.handle (onHandles cited) =
      some (Step.checkOrIntro c.formula (onFormulas cited)) := by
  simp only [checkOrIntro, Step.checkOrIntro, lines_map, subproofs_map]
  rcases lines cited with _ | ⟨a, _ | ⟨b, as⟩⟩ <;> rcases subproofs cited with _ | ⟨s, ss⟩
  any_goals exact wants_eq 1 0
  obtain ⟨c, φ, hc⟩ := c
  obtain ⟨node, hnode, hlayer⟩ := wf.formula?_eq_some_iff.mp hc
  simp only [List.map_cons, List.map_nil, hnode]
  cases hlayer with
  | @binary k l r _ _ hl hr =>
    cases k with
    | or =>
      refine congrArg some (ensure_congr (or_congr ?_ ?_))
      · exact wf.eq_iff a.formula.reads hl
      · exact wf.eq_iff a.formula.reads hr
    | _ => rfl
  | _ => rfl

theorem checkOrElim_eq (wf : forest.WellFormed) :
    forest.checkOrElim c.handle (onHandles cited) =
      some (Step.checkOrElim c.formula (onFormulas cited)) := by
  simp only [checkOrElim, Step.checkOrElim, lines_map, subproofs_map]
  rcases lines cited with _ | ⟨⟨citation, a, φ, ha⟩, _ | ⟨b, as⟩⟩ <;>
    rcases subproofs cited with _ | ⟨s, _ | ⟨t, _ | ⟨_, ss⟩⟩⟩
  any_goals exact wants_eq 1 2
  obtain ⟨node, hnode, hlayer⟩ := wf.formula?_eq_some_iff.mp ha
  simp only [List.map_cons, List.map_nil, CitedLine.map, hnode]
  cases hlayer with
  | @binary k l r _ _ hl hr =>
    cases k with
    | or =>
      refine congrArg some
        (then_congr (wf.pair_iff s.assumption t.assumption hl hr) (and_congr ?_ ?_))
      · exact wf.eq_iff s.conclusion.reads c.reads
      · exact wf.eq_iff t.conclusion.reads c.reads
    | _ => rfl
  | _ => rfl

/-! ### Implication and negation -/

theorem checkImpliesIntro_eq (wf : forest.WellFormed) :
    forest.checkImpliesIntro c.handle (onHandles cited) =
      some (Step.checkImpliesIntro c.formula (onFormulas cited)) := by
  simp only [checkImpliesIntro, Step.checkImpliesIntro, lines_map, subproofs_map]
  rcases lines cited with _ | ⟨a, as⟩ <;> rcases subproofs cited with _ | ⟨s, _ | ⟨t, ss⟩⟩
  any_goals exact wants_eq 0 1
  obtain ⟨c, φ, hc⟩ := c
  obtain ⟨node, hnode, hlayer⟩ := wf.formula?_eq_some_iff.mp hc
  simp only [List.map_cons, List.map_nil, hnode]
  cases hlayer with
  | @binary k l r _ _ hl hr =>
    cases k with
    | implies =>
      refine congrArg some (then_congr ?_ ?_)
      · exact wf.eq_iff s.assumption.reads hl
      · exact wf.eq_iff s.conclusion.reads hr
    | _ => rfl
  | _ => rfl

variable {major minor : forest.Reference}

theorem detach_eq (wf : forest.WellFormed) : forest.detach c.handle major.handle minor.handle =
    some (Step.detach c.formula major.formula minor.formula) := by
  obtain ⟨major, φ, hmajor⟩ := major
  obtain ⟨node, hnode, hlayer⟩ := wf.formula?_eq_some_iff.mp hmajor
  simp only [detach, hnode]
  cases hlayer with
  | @binary k l r _ _ hl hr =>
    cases k with
    | implies =>
      refine congrArg (some ∘ some) (then_congr ?_ ?_)
      · exact wf.eq_iff minor.reads hl
      · exact wf.eq_iff c.reads hr
    | _ => rfl
  | _ => rfl

theorem exchange_eq (wf : forest.WellFormed) : forest.exchange c.handle major.handle minor.handle =
    some (Step.exchange c.formula major.formula minor.formula) := by
  obtain ⟨major, φ, hmajor⟩ := major
  obtain ⟨node, hnode, hlayer⟩ := wf.formula?_eq_some_iff.mp hmajor
  simp only [exchange, hnode]
  cases hlayer with
  | @binary k l r _ _ hl hr =>
    cases k with
    | iff =>
      exact congrArg (some ∘ some) (ensure_congr (wf.pair_iff minor c hl hr))
    | _ => rfl
  | _ => rfl

theorem checkImpliesElim_eq (wf : forest.WellFormed) :
    forest.checkImpliesElim c.handle (onHandles cited) =
      some (Step.checkImpliesElim c.formula (onFormulas cited)) := by
  simp only [checkImpliesElim, Step.checkImpliesElim, lines_map, subproofs_map]
  rcases lines cited with _ | ⟨a, _ | ⟨b, _ | ⟨_, as⟩⟩⟩ <;> rcases subproofs cited with _ | ⟨s, ss⟩
  any_goals exact wants_eq 2 0
  simp only [List.map_cons, List.map_nil, CitedLine.map, detach_eq wf]
  rfl

theorem checkNotIntro_eq (wf : forest.WellFormed) :
    forest.checkNotIntro c.handle (onHandles cited) =
      some (Step.checkNotIntro c.formula (onFormulas cited)) := by
  simp only [checkNotIntro, Step.checkNotIntro, lines_map, subproofs_map]
  rcases lines cited with _ | ⟨a, as⟩ <;> rcases subproofs cited with _ | ⟨s, _ | ⟨t, ss⟩⟩
  any_goals exact wants_eq 0 1
  obtain ⟨c, φ, hc⟩ := c
  obtain ⟨node, hnode, hlayer⟩ := wf.formula?_eq_some_iff.mp hc
  obtain ⟨last, hlast, hlayer'⟩ := wf.formula?_eq_some_iff.mp s.conclusion.reads
  simp only [List.map_cons, List.map_nil, CitedSubproof.map, hnode, hlast]
  cases hlayer with
  | not hi =>
    refine congrArg some (then_congr (wf.eq_iff s.assumption.reads hi) ?_)
    exact hlayer'.eq_bottom_iff
  | _ => rfl

theorem checkNotElim_eq (wf : forest.WellFormed) :
    forest.checkNotElim c.handle (onHandles cited) =
      some (Step.checkNotElim c.formula (onFormulas cited)) := by
  simp only [checkNotElim, Step.checkNotElim, lines_map, subproofs_map]
  rcases lines cited with _ | ⟨⟨citation, a, φ, ha⟩, _ | ⟨b, as⟩⟩ <;>
    rcases subproofs cited with _ | ⟨s, ss⟩
  any_goals exact wants_eq 1 0
  obtain ⟨node, hnode, hlayer⟩ := wf.formula?_eq_some_iff.mp ha
  simp only [List.map_cons, List.map_nil, CitedLine.map, hnode]
  cases hlayer with
  | not hi =>
    obtain ⟨inner, hinner, hlayer⟩ := wf.formula?_eq_some_iff.mp hi
    simp only [Option.bind_eq_bind, Option.bind_some, hinner]
    cases hlayer with
    | not hj => exact congrArg some (ensure_congr (wf.eq_iff hj c.reads))
    | _ => rfl
  | _ => rfl

/-! ### Contradiction and tautology -/

theorem checkContradictionIntro_eq (wf : forest.WellFormed) :
    forest.checkContradictionIntro c.handle (onHandles cited) =
      some (Step.checkContradictionIntro c.formula (onFormulas cited)) := by
  simp only [checkContradictionIntro, Step.checkContradictionIntro, lines_map, subproofs_map]
  rcases lines cited with _ | ⟨a, _ | ⟨b, _ | ⟨_, as⟩⟩⟩ <;> rcases subproofs cited with _ | ⟨s, ss⟩
  any_goals exact wants_eq 2 0
  obtain ⟨c, φ, hc⟩ := c
  obtain ⟨node, hnode, hlayer⟩ := wf.formula?_eq_some_iff.mp hc
  obtain ⟨first, hfirst, hlayer₁⟩ := wf.formula?_eq_some_iff.mp a.formula.reads
  obtain ⟨second, hsecond, hlayer₂⟩ := wf.formula?_eq_some_iff.mp b.formula.reads
  simp only [List.map_cons, List.map_nil, CitedLine.map, hnode, hfirst, hsecond]
  cases hlayer with
  | bottom =>
    refine congrArg some (ensure_congr (or_congr ?_ ?_))
    · exact hlayer₁.eq_not_iff wf b.formula.reads
    · exact hlayer₂.eq_not_iff wf a.formula.reads
  | _ => rfl

theorem checkContradictionElim_eq (wf : forest.WellFormed) :
    forest.checkContradictionElim (onHandles cited) =
      some (Step.checkContradictionElim (onFormulas cited)) := by
  simp only [checkContradictionElim, Step.checkContradictionElim, lines_map, subproofs_map]
  rcases lines cited with _ | ⟨⟨citation, a, φ, ha⟩, _ | ⟨b, as⟩⟩ <;>
    rcases subproofs cited with _ | ⟨s, ss⟩
  any_goals exact wants_eq 1 0
  obtain ⟨node, hnode, hlayer⟩ := wf.formula?_eq_some_iff.mp ha
  simp only [List.map_cons, List.map_nil, CitedLine.map, hnode]
  cases hlayer <;> rfl

theorem checkTautologyIntro_eq (wf : forest.WellFormed) :
    forest.checkTautologyIntro c.handle (onHandles cited) =
      some (Step.checkTautologyIntro c.formula (onFormulas cited)) := by
  simp only [checkTautologyIntro, Step.checkTautologyIntro, lines_map, subproofs_map]
  rcases lines cited with _ | ⟨a, as⟩ <;> rcases subproofs cited with _ | ⟨s, ss⟩
  any_goals exact wants_eq 0 0
  obtain ⟨c, φ, hc⟩ := c
  obtain ⟨node, hnode, hlayer⟩ := wf.formula?_eq_some_iff.mp hc
  simp only [List.map_nil, hnode]
  cases hlayer <;> rfl

/-! ### Biconditional -/

theorem checkIffIntro_eq (wf : forest.WellFormed) :
    forest.checkIffIntro c.handle (onHandles cited) =
      some (Step.checkIffIntro c.formula (onFormulas cited)) := by
  simp only [checkIffIntro, Step.checkIffIntro, lines_map, subproofs_map]
  rcases lines cited with _ | ⟨a, as⟩ <;>
    rcases subproofs cited with _ | ⟨s, _ | ⟨t, _ | ⟨_, ss⟩⟩⟩
  any_goals exact wants_eq 0 2
  obtain ⟨c, φ, hc⟩ := c
  obtain ⟨node, hnode, hlayer⟩ := wf.formula?_eq_some_iff.mp hc
  simp only [List.map_cons, List.map_nil, hnode]
  have derives (u : CitedSubproof forest.Reference) {a b : Handle} {φ ψ : Formula}
      (ha : forest.formula? a = some φ) (hb : forest.formula? b = some ψ) :
      u.map handle = ⟨a, b⟩ ↔ u.map formula = ⟨φ, ψ⟩ := by
    simp only [CitedSubproof.map, CitedSubproof.mk.injEq, wf.eq_iff (reads _) ha,
      wf.eq_iff (reads _) hb]
  cases hlayer with
  | @binary k l r _ _ hl hr =>
    cases k with
    | iff =>
      refine congrArg some (ensure_congr (or_congr (and_congr ?_ ?_) (and_congr ?_ ?_)))
      · exact derives s hl hr
      · exact derives t hr hl
      · exact derives s hr hl
      · exact derives t hl hr
    | _ => rfl
  | _ => rfl

theorem checkIffElim_eq (wf : forest.WellFormed) :
    forest.checkIffElim c.handle (onHandles cited) =
      some (Step.checkIffElim c.formula (onFormulas cited)) := by
  simp only [checkIffElim, Step.checkIffElim, lines_map, subproofs_map]
  rcases lines cited with _ | ⟨a, _ | ⟨b, _ | ⟨_, as⟩⟩⟩ <;> rcases subproofs cited with _ | ⟨s, ss⟩
  any_goals exact wants_eq 2 0
  simp only [List.map_cons, List.map_nil, CitedLine.map, exchange_eq wf]
  rfl

/-! ### Quantifiers -/

/-- A question that always has an answer has answers for the members of a list. -/
theorem mapM_map_eq_some {α β γ : Type} {f : γ → α} {ask : α → Option β} {answer : γ → β}
    (h : ∀ c, ask (f c) = some (answer c)) (cs : List γ) :
    (cs.map f).mapM ask = some (cs.map answer) := by
  induction cs with
  | nil => rfl
  | cons c cs ih => simp [h, ih]

theorem ensureFresh_eq (name : Name) (contextNames : List Name)
    (references : List forest.Reference) :
    forest.ensureFresh name contextNames (references.map handle) =
      some (Step.ensureFresh name contextNames (references.map formula)) := by
  have hnames : (references.map handle).mapM forest.collectNames? =
      some (references.map fun a => a.formula.freeSet) :=
    mapM_map_eq_some (fun a => by rw [collectNames?_eq, a.reads, Option.map_some]) references
  have hfree : (∃ free ∈ references.map fun a => a.formula.freeSet, name ∈ free) ↔
      ∃ φ ∈ references.map formula, name ∈ φ.freeNames := by
    simp [Formula.mem_freeSet]
  rw [ensureFresh, hnames, Step.ensureFresh]
  exact congrArg some (if_congr (or_congr .rfl hfree) rfl rfl)

theorem ensureArbitrary_eq (found : Option Instance) (requirement : Requirement)
    (contextNames : List Name) (references : List forest.Reference) :
    forest.ensureArbitrary found requirement contextNames (references.map handle) =
      some (Step.ensureArbitrary found requirement contextNames (references.map formula)) := by
  rcases found with _ | _ | name
  · rfl
  · rfl
  · exact ensureFresh_eq name contextNames references

theorem checkForAllIntro_eq (wf : forest.WellFormed) :
    forest.checkForAllIntro c.handle contextNames (onHandles cited) =
      some (Step.checkForAllIntro c.formula contextNames (onFormulas cited)) := by
  simp only [checkForAllIntro, Step.checkForAllIntro, lines_map, subproofs_map]
  rcases lines cited with _ | ⟨a, _ | ⟨b, as⟩⟩ <;> rcases subproofs cited with _ | ⟨s, ss⟩
  any_goals exact wants_eq 1 0
  obtain ⟨c, φ, hc⟩ := c
  obtain ⟨node, hnode, hlayer⟩ := wf.formula?_eq_some_iff.mp hc
  simp only [List.map_cons, List.map_nil, CitedLine.map, hnode]
  cases hlayer with
  | @quantified q x i φ hi =>
    cases q with
    | forAll =>
      simp only [Option.bind_eq_bind, Option.bind_some, wf.walkInstance?_eq hi a.formula.reads]
      exact ensureArbitrary_eq _ _ contextNames [⟨c, .forAll x φ, hc⟩]
    | _ => rfl
  | _ => rfl

theorem checkForAllElim_eq (wf : forest.WellFormed) :
    forest.checkForAllElim c.handle (onHandles cited) =
      some (Step.checkForAllElim c.formula (onFormulas cited)) := by
  simp only [checkForAllElim, Step.checkForAllElim, lines_map, subproofs_map]
  rcases lines cited with _ | ⟨⟨citation, a, φ, ha⟩, _ | ⟨b, as⟩⟩ <;>
    rcases subproofs cited with _ | ⟨s, ss⟩
  any_goals exact wants_eq 1 0
  obtain ⟨node, hnode, hlayer⟩ := wf.formula?_eq_some_iff.mp ha
  simp only [List.map_cons, List.map_nil, CitedLine.map, hnode]
  cases hlayer with
  | @quantified q x i φ hi =>
    cases q with
    | forAll =>
      simp only [Option.bind_eq_bind, Option.bind_some, wf.walkInstance?_eq hi c.reads]
      rfl
    | _ => rfl
  | _ => rfl

theorem checkForSomeIntro_eq (wf : forest.WellFormed) :
    forest.checkForSomeIntro c.handle (onHandles cited) =
      some (Step.checkForSomeIntro c.formula (onFormulas cited)) := by
  simp only [checkForSomeIntro, Step.checkForSomeIntro, lines_map, subproofs_map]
  rcases lines cited with _ | ⟨a, _ | ⟨b, as⟩⟩ <;> rcases subproofs cited with _ | ⟨s, ss⟩
  any_goals exact wants_eq 1 0
  obtain ⟨c, φ, hc⟩ := c
  obtain ⟨node, hnode, hlayer⟩ := wf.formula?_eq_some_iff.mp hc
  simp only [List.map_cons, List.map_nil, CitedLine.map, hnode]
  cases hlayer with
  | @quantified q x i φ hi =>
    cases q with
    | forSome =>
      simp only [Option.bind_eq_bind, Option.bind_some, wf.walkInstance?_eq hi a.formula.reads]
      rfl
    | _ => rfl
  | _ => rfl

theorem checkForSomeElim_eq (wf : forest.WellFormed) :
    forest.checkForSomeElim c.handle contextNames (onHandles cited) =
      some (Step.checkForSomeElim c.formula contextNames (onFormulas cited)) := by
  simp only [checkForSomeElim, Step.checkForSomeElim, lines_map, subproofs_map]
  rcases lines cited with _ | ⟨⟨citation, a, φ, ha⟩, _ | ⟨b, as⟩⟩ <;>
    rcases subproofs cited with _ | ⟨s, _ | ⟨t, ss⟩⟩
  any_goals exact wants_eq 1 1
  obtain ⟨node, hnode, hlayer⟩ := wf.formula?_eq_some_iff.mp ha
  simp only [List.map_cons, List.map_nil, CitedLine.map, CitedSubproof.map, hnode]
  cases hlayer with
  | @quantified q x i φ hi =>
    cases q with
    | forSome =>
      have harbitrary := ensureArbitrary_eq (φ.instanceOf? x s.assumption.formula)
        .subproofAssumesInstance contextNames [⟨a, .forSome x φ, ha⟩, c]
      simp only [List.map_cons, List.map_nil] at harbitrary
      simp only [Option.bind_eq_bind, Option.bind_some, wf.walkInstance?_eq hi s.assumption.reads,
        harbitrary, ensure_congr (wf.eq_iff s.conclusion.reads c.reads)]
      rfl
    | _ => rfl
  | _ => rfl

/-! ### All rules -/

/-- **A step is judged by handles as by formulas.** In a well-formed forest the rules find the
formulas that they look at, and pass or complain as if they were given the formulas themselves. -/
theorem WellFormed.check_eq (wf : forest.WellFormed) (step : Step forest.Reference) :
    forest.check (step.map handle) = some (step.map formula).check := by
  obtain ⟨rule, c, cited, depth, contextNames, premises, afterDerivation, quantifiers⟩ := step
  rw [check, Step.check]
  by_cases hallowed : (rule.needsQuantifiers && !quantifiers) = true
  · rw [Step.map, if_pos hallowed, Step.map, if_pos hallowed]
  · rw [Step.map, if_neg hallowed, Step.map, if_neg hallowed]
    cases rule with
    | premise => exact congrArg some (checkPremise_eq wf _)
    | assumption => exact congrArg some checkAssumption_eq
    | reiteration => exact congrArg some (checkReiteration_eq wf)
    | andIntro => exact checkAndIntro_eq wf
    | andElim => exact checkAndElim_eq wf
    | orIntro => exact checkOrIntro_eq wf
    | orElim => exact checkOrElim_eq wf
    | impliesIntro => exact checkImpliesIntro_eq wf
    | impliesElim => exact checkImpliesElim_eq wf
    | notIntro => exact checkNotIntro_eq wf
    | notElim => exact checkNotElim_eq wf
    | contradictionIntro => exact checkContradictionIntro_eq wf
    | contradictionElim => exact checkContradictionElim_eq wf
    | tautologyIntro => exact checkTautologyIntro_eq wf
    | iffIntro => exact checkIffIntro_eq wf
    | iffElim => exact checkIffElim_eq wf
    | forAllIntro => exact checkForAllIntro_eq wf
    | forAllElim => exact checkForAllElim_eq wf
    | forSomeIntro => exact checkForSomeIntro_eq wf
    | forSomeElim => exact checkForSomeElim_eq wf

end Agreement

end Forest

end NaturalDeduction
