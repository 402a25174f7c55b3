import NaturalDeduction.Formula.Instance
import NaturalDeduction.Verification.Mismatch

/-!
# Single steps of inference

A step is one line of a proof with everything that its rule may look at: the formulas of the cited
lines and subproofs, the names that the context fixes, and the problem statement. `Step.check`
decides whether the step is an instance of its rule.

Each rule is a function of its own. Where a rule can be violated in several ways, the order of the
tests in it decides which violation is reported: mostly the number of citations comes first, then
the shape of the formula that the rule takes apart, then how the parts fit together.

## Main definitions

* `Cited`, `Step`
* `Step.check`
-/

namespace NaturalDeduction

variable {α β : Type}

/-! ### What is cited -/

/-- A line that was cited. -/
structure CitedLine (α : Type) where
  citation : Citation
  formula : α
deriving DecidableEq, Repr

/-- A subproof that was cited: what it assumes, and what its last line concludes. -/
structure CitedSubproof (α : Type) where
  assumption : α
  conclusion : α
deriving DecidableEq, Repr

/-- What a citation refers to. -/
inductive Cited (α : Type) where
  | line (l : CitedLine α)
  | subproof (s : CitedSubproof α)
deriving DecidableEq, Repr

/-- The same citation of another formula. -/
def CitedLine.map (f : α → β) (line : CitedLine α) : CitedLine β :=
  ⟨line.citation, f line.formula⟩

/-- The same subproof over other formulas. -/
def CitedSubproof.map (f : α → β) (subproof : CitedSubproof α) : CitedSubproof β :=
  ⟨f subproof.assumption, f subproof.conclusion⟩

namespace Cited

/-- The same over other formulas. -/
def map (f : α → β) : Cited α → Cited β
  | line l => line (l.map f)
  | subproof s => subproof (s.map f)

/-- The lines among what is cited, in order. -/
def lines (cited : List (Cited α)) : List (CitedLine α) :=
  cited.filterMap fun
    | line l => some l
    | subproof _ => none

/-- The subproofs among what is cited, in order. -/
def subproofs (cited : List (Cited α)) : List (CitedSubproof α) :=
  cited.filterMap fun
    | line _ => none
    | subproof s => some s

/-- How much is cited. -/
def count (cited : List (Cited α)) : CitationCount :=
  ⟨(lines cited).length, (subproofs cited).length⟩

variable {f : α → β} {cited : List (Cited α)}

theorem lines_map : lines (cited.map (map f)) = (lines cited).map (CitedLine.map f) := by
  induction cited with
  | nil => rfl
  | cons c cited ih => cases c <;> simpa [lines, map] using ih

theorem subproofs_map :
    subproofs (cited.map (map f)) = (subproofs cited).map (CitedSubproof.map f) := by
  induction cited with
  | nil => rfl
  | cons c cited ih => cases c <;> simpa [subproofs, map] using ih

theorem count_map : count (cited.map (map f)) = count cited := by
  simp only [count, lines_map, subproofs_map, List.length_map]

end Cited

/-! ### Steps -/

/-- One line of a proof, with everything that decides whether its rule justifies it. -/
structure Step (α : Type) where
  rule : Rule
  conclusion : α
  cited : List (Cited α)
  depth : Nat
  /-- The names that occur free in the premises and in the assumptions open at the line. -/
  contextNames : List Name
  /-- The premises of the problem, if it declares any. -/
  premises : Option (List α)
  /-- Whether a line other than a premise stands before this one. -/
  afterDerivation : Bool
  /-- Whether the rules for quantifiers may be used. -/
  quantifiers : Bool
deriving DecidableEq, Repr

namespace Step

/-- The same step over other formulas, in a context with the same names. -/
def map (f : α → β) (step : Step α) : Step β :=
  { step with
    conclusion := f step.conclusion
    cited := step.cited.map (Cited.map f)
    premises := step.premises.map (List.map f) }

/-- Passes if the condition holds. -/
def ensure (condition : Prop) [Decidable condition] (requirement : Requirement) :
    Except Mismatch Unit :=
  if condition then .ok () else .error (.requirement requirement)

/-- The complaint that a rule wants another number of citations. -/
def wants (lines subproofs : Nat) (cited : List (Cited α)) : Except Mismatch Unit :=
  .error (.citations ⟨lines, subproofs⟩ (Cited.count cited))

/-- A name that stands for an arbitrary individual occurs free neither in the context nor in the
given formulas. -/
def ensureFresh (name : Name) (contextNames : List Name) (formulas : List Formula) :
    Except Mismatch Unit :=
  if name ∈ contextNames ∨ ∃ φ ∈ formulas, name ∈ φ.freeNames then .error (.notFresh name)
  else .ok ()

/-- A formula has to be an instance, and the name in it, if there is one, has to stand for an
arbitrary individual. -/
def ensureArbitrary (found : Option Instance) (requirement : Requirement)
    (contextNames : List Name) (formulas : List Formula) : Except Mismatch Unit :=
  match found with
  | none => .error (.requirement requirement)
  | some .vacuous => .ok ()
  | some (.name name) => ensureFresh name contextNames formulas

/-! ### Premises, assumptions and repetition -/

/-- A premise stands outside every subproof, before every derived line, and in the problem statement
if that declares premises. -/
def checkPremise [DecidableEq α] (step : Step α) : Except Mismatch Unit :=
  match Cited.lines step.cited, Cited.subproofs step.cited with
  | [], [] =>
    if step.depth ≠ 0 then .error .premiseInSubproof
    else if step.afterDerivation then .error .premiseAfterDerivation
    else
      match step.premises with
      | none => .ok ()
      | some premises =>
        if step.conclusion ∈ premises then .ok () else .error .premiseNotInStatement
  | _, _ => wants 0 0 step.cited

/-- An assumption needs no justification. -/
def checkAssumption (cited : List (Cited α)) : Except Mismatch Unit :=
  match Cited.lines cited, Cited.subproofs cited with
  | [], [] => .ok ()
  | _, _ => wants 0 0 cited

/-- From `φ`, `φ`. -/
def checkReiteration [DecidableEq α] (c : α) (cited : List (Cited α)) : Except Mismatch Unit :=
  match Cited.lines cited, Cited.subproofs cited with
  | [a], [] => ensure (a.formula = c) .conclusionRepeatsLine
  | _, _ => wants 1 0 cited

/-! ### Conjunction and disjunction -/

/-- From `φ` and `ψ`, `φ ∧ ψ`; a line that is both conjuncts may be cited once. -/
def checkAndIntro (c : Formula) (cited : List (Cited Formula)) : Except Mismatch Unit :=
  match c with
  | .and left right =>
    match Cited.lines cited, Cited.subproofs cited with
    | [a], [] => ensure (left = right ∧ a.formula = left) .singleLineIsBothConjuncts
    | [a, b], [] =>
      ensure ((a.formula = left ∧ b.formula = right) ∨ (a.formula = right ∧ b.formula = left))
        .linesAreConjuncts
    | _, _ => wants 2 0 cited
  | _ => .error (.conclusionShape .conjunction)

/-- From `φ ∧ ψ`, either conjunct. -/
def checkAndElim (c : Formula) (cited : List (Cited Formula)) : Except Mismatch Unit :=
  match Cited.lines cited, Cited.subproofs cited with
  | [a], [] =>
    match a.formula with
    | .and left right => ensure (c = left ∨ c = right) .conclusionIsConjunct
    | _ => .error (.citedShape a.citation .conjunction)
  | _, _ => wants 1 0 cited

/-- From either disjunct, `φ ∨ ψ`. -/
def checkOrIntro (c : Formula) (cited : List (Cited Formula)) : Except Mismatch Unit :=
  match Cited.lines cited, Cited.subproofs cited with
  | [a], [] =>
    match c with
    | .or left right => ensure (a.formula = left ∨ a.formula = right) .lineIsDisjunct
    | _ => .error (.conclusionShape .disjunction)
  | _, _ => wants 1 0 cited

/-- From `φ ∨ ψ`, what follows from each disjunct. -/
def checkOrElim (c : Formula) (cited : List (Cited Formula)) : Except Mismatch Unit :=
  match Cited.lines cited, Cited.subproofs cited with
  | [a], [s, t] =>
    match a.formula with
    | .or left right => do
      ensure ((s.assumption = left ∧ t.assumption = right) ∨
        (s.assumption = right ∧ t.assumption = left)) .subproofsAssumeDisjuncts
      ensure (s.conclusion = c ∧ t.conclusion = c) .subproofsEndInConclusion
    | _ => .error (.citedShape a.citation .disjunction)
  | _, _ => wants 1 2 cited

/-! ### Implication and negation -/

/-- From `ψ` under the assumption `φ`, `φ → ψ`. -/
def checkImpliesIntro (c : Formula) (cited : List (Cited Formula)) : Except Mismatch Unit :=
  match Cited.lines cited, Cited.subproofs cited with
  | [], [s] =>
    match c with
    | .implies antecedent consequent => do
      ensure (s.assumption = antecedent) .subproofAssumesAntecedent
      ensure (s.conclusion = consequent) .subproofEndsInConsequent
    | _ => .error (.conclusionShape .implication)
  | _, _ => wants 0 1 cited

/-- Whether `c` follows from `major` and `minor`, provided that `major` is an implication. -/
def detach (c major minor : Formula) : Option (Except Mismatch Unit) :=
  match major with
  | .implies antecedent consequent => some do
    ensure (minor = antecedent) .otherLineIsAntecedent
    ensure (c = consequent) .conclusionIsConsequent
  | _ => none

/-- Whether `c` follows from `major` and `minor`, provided that `major` is a biconditional. -/
def exchange (c major minor : Formula) : Option (Except Mismatch Unit) :=
  match major with
  | .iff left right =>
    some
      (ensure ((minor = left ∧ c = right) ∨ (minor = right ∧ c = left)) .conclusionIsOppositeSide)
  | _ => none

/-- A step from two lines one of which is the major premise, tried in both orders: it passes if one
of them does. Of two failures the second is reported, and `requirement` if no order applies. -/
def eitherOrder (requirement : Requirement) :
    (first second : Option (Except Mismatch Unit)) → Except Mismatch Unit
  | some (.ok ()), _ => .ok ()
  | _, some outcome => outcome
  | some (.error mismatch), none => .error mismatch
  | none, none => .error (.requirement requirement)

/-- From `φ → ψ` and `φ`, `ψ`. -/
def checkImpliesElim (c : Formula) (cited : List (Cited Formula)) : Except Mismatch Unit :=
  match Cited.lines cited, Cited.subproofs cited with
  | [a, b], [] =>
    eitherOrder .someLineIsImplication (detach c a.formula b.formula) (detach c b.formula a.formula)
  | _, _ => wants 2 0 cited

/-- From `⊥` under the assumption `φ`, `¬φ`. -/
def checkNotIntro (c : Formula) (cited : List (Cited Formula)) : Except Mismatch Unit :=
  match Cited.lines cited, Cited.subproofs cited with
  | [], [s] =>
    match c with
    | .not negated => do
      ensure (s.assumption = negated) .subproofAssumesNegated
      ensure (s.conclusion = .bottom) .subproofEndsInBottom
    | _ => .error (.conclusionShape .negation)
  | _, _ => wants 0 1 cited

/-- From `¬¬φ`, `φ`. -/
def checkNotElim (c : Formula) (cited : List (Cited Formula)) : Except Mismatch Unit :=
  match Cited.lines cited, Cited.subproofs cited with
  | [a], [] =>
    match a.formula with
    | .not (.not inner) => ensure (inner = c) .conclusionDropsNegations
    | _ => .error (.citedShape a.citation .doubleNegation)
  | _, _ => wants 1 0 cited

/-! ### Contradiction and tautology -/

/-- From `φ` and `¬φ`, `⊥`. -/
def checkContradictionIntro (c : Formula) (cited : List (Cited Formula)) : Except Mismatch Unit :=
  match Cited.lines cited, Cited.subproofs cited with
  | [a, b], [] =>
    match c with
    | .bottom => ensure (a.formula = .not b.formula ∨ b.formula = .not a.formula) .linesContradict
    | _ => .error (.conclusionShape .bottom)
  | _, _ => wants 2 0 cited

/-- From `⊥`, anything. -/
def checkContradictionElim (cited : List (Cited Formula)) : Except Mismatch Unit :=
  match Cited.lines cited, Cited.subproofs cited with
  | [a], [] =>
    match a.formula with
    | .bottom => .ok ()
    | _ => .error (.citedShape a.citation .bottom)
  | _, _ => wants 1 0 cited

/-- From nothing, `⊤`. -/
def checkTautologyIntro (c : Formula) (cited : List (Cited Formula)) : Except Mismatch Unit :=
  match Cited.lines cited, Cited.subproofs cited with
  | [], [] =>
    match c with
    | .top => .ok ()
    | _ => .error (.conclusionShape .top)
  | _, _ => wants 0 0 cited

/-! ### Biconditional -/

/-- From `ψ` under the assumption `φ` and `φ` under the assumption `ψ`, `φ ↔ ψ`. -/
def checkIffIntro (c : Formula) (cited : List (Cited Formula)) : Except Mismatch Unit :=
  match Cited.lines cited, Cited.subproofs cited with
  | [], [s, t] =>
    match c with
    | .iff left right =>
      ensure ((s = ⟨left, right⟩ ∧ t = ⟨right, left⟩) ∨ (s = ⟨right, left⟩ ∧ t = ⟨left, right⟩))
        .subproofsDeriveEachOther
    | _ => .error (.conclusionShape .biconditional)
  | _, _ => wants 0 2 cited

/-- From `φ ↔ ψ` and one side, the other side. -/
def checkIffElim (c : Formula) (cited : List (Cited Formula)) : Except Mismatch Unit :=
  match Cited.lines cited, Cited.subproofs cited with
  | [a, b], [] =>
    eitherOrder .someLineIsBiconditional (exchange c a.formula b.formula)
      (exchange c b.formula a.formula)
  | _, _ => wants 2 0 cited

/-! ### Quantifiers -/

/-- From an instance with an arbitrary name, the universal. -/
def checkForAllIntro (c : Formula) (contextNames : List Name) (cited : List (Cited Formula)) :
    Except Mismatch Unit :=
  match Cited.lines cited, Cited.subproofs cited with
  | [a], [] =>
    match c with
    | .forAll x body =>
      ensureArbitrary (body.instanceOf? x a.formula) .lineIsInstance contextNames [c]
    | _ => .error (.conclusionShape .universal)
  | _, _ => wants 1 0 cited

/-- From the universal, any instance. -/
def checkForAllElim (c : Formula) (cited : List (Cited Formula)) : Except Mismatch Unit :=
  match Cited.lines cited, Cited.subproofs cited with
  | [a], [] =>
    match a.formula with
    | .forAll x body => ensure ((body.instanceOf? x c).isSome) .conclusionIsInstance
    | _ => .error (.citedShape a.citation .universal)
  | _, _ => wants 1 0 cited

/-- From any instance, the existential. -/
def checkForSomeIntro (c : Formula) (cited : List (Cited Formula)) : Except Mismatch Unit :=
  match Cited.lines cited, Cited.subproofs cited with
  | [a], [] =>
    match c with
    | .forSome x body => ensure ((body.instanceOf? x a.formula).isSome) .lineIsInstance
    | _ => .error (.conclusionShape .existential)
  | _, _ => wants 1 0 cited

/-- From the existential, what follows from an instance with an arbitrary name. -/
def checkForSomeElim (c : Formula) (contextNames : List Name) (cited : List (Cited Formula)) :
    Except Mismatch Unit :=
  match Cited.lines cited, Cited.subproofs cited with
  | [a], [s] =>
    match a.formula with
    | .forSome x body => do
      ensureArbitrary (body.instanceOf? x s.assumption) .subproofAssumesInstance contextNames
        [a.formula, c]
      ensure (s.conclusion = c) .subproofEndsInConclusion
    | _ => .error (.citedShape a.citation .existential)
  | _, _ => wants 1 1 cited

/-! ### All rules -/

/-- Whether a step is an instance of its rule, and why not. -/
def check (step : Step Formula) : Except Mismatch Unit :=
  if step.rule.needsQuantifiers && !step.quantifiers then .error (.needsPredicateCalculus step.rule)
  else
    match step.rule with
    | .premise => checkPremise step
    | .assumption => checkAssumption step.cited
    | .reiteration => checkReiteration step.conclusion step.cited
    | .andIntro => checkAndIntro step.conclusion step.cited
    | .andElim => checkAndElim step.conclusion step.cited
    | .orIntro => checkOrIntro step.conclusion step.cited
    | .orElim => checkOrElim step.conclusion step.cited
    | .impliesIntro => checkImpliesIntro step.conclusion step.cited
    | .impliesElim => checkImpliesElim step.conclusion step.cited
    | .notIntro => checkNotIntro step.conclusion step.cited
    | .notElim => checkNotElim step.conclusion step.cited
    | .contradictionIntro => checkContradictionIntro step.conclusion step.cited
    | .contradictionElim => checkContradictionElim step.cited
    | .tautologyIntro => checkTautologyIntro step.conclusion step.cited
    | .iffIntro => checkIffIntro step.conclusion step.cited
    | .iffElim => checkIffElim step.conclusion step.cited
    | .forAllIntro => checkForAllIntro step.conclusion step.contextNames step.cited
    | .forAllElim => checkForAllElim step.conclusion step.cited
    | .forSomeIntro => checkForSomeIntro step.conclusion step.cited
    | .forSomeElim => checkForSomeElim step.conclusion step.contextNames step.cited

end Step

end NaturalDeduction
