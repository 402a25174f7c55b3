import NaturalDeduction.Proofs.Verification.Inference
import NaturalDeduction.Proofs.Verification.Resolution

/-!
# Relaxing what is given

A valid line stays valid when the premises that a problem declares are given up, when further
premises are declared that bring no names of their own, and when quantifiers are admitted.

## Two ways in which premises matter

Declared premises allow premise lines, so more of them are better. But the names that are free in
them stand for particular individuals, so more of these are worse: a universal may not be introduced
from an instance with such a name. To give up the declaration removes both the restriction and the
names. A larger declaration is harmless if it has the same names.

## Implementation notes

`Step.Relaxes` compares two places in proofs by all that a rule may look at besides the formulas.
That what a rule yields at the one place it yields at the other is read off the table of rules, one
row at a time, and what is fixed at a place is known exactly (`Progress.Mirrors`). So the proof does
not follow the two readings in parallel.

## Main definitions

* `Step.Relaxes`: the rules may do at least as much at one place as at another

## Main results

* `Step.check_of_relaxes`: what passes at a place passes at a place where more is allowed
* `verify_of_relaxed`: valid lines stay valid
-/

namespace NaturalDeduction

/-! ### Names that stand for arbitrary individuals -/

/-- The fewer names are fixed, the more are arbitrary. -/
theorem Formula.IsArbitrary.of_subset {x : Name} {φ ψ : Formula} {context context' : List Name}
    {formulas : List Formula} (h : φ.IsArbitrary x ψ context formulas)
    (hsubset : context' ⊆ context) :
    φ.IsArbitrary x ψ context' formulas := by
  rcases h with hvacuous | ⟨t, hx, hfree, hψ, hcontext, hformulas⟩
  · exact .inl hvacuous
  · exact .inr ⟨t, hx, hfree, hψ, fun hmem => hcontext (hsubset hmem), hformulas⟩

namespace Step

/-! ### Places where more is allowed -/

/-- All that the table of rules asks of the place of `step` is granted at the place of `step'`. What
the two conclude, and from what, is left open. -/
structure Relaxes (step' step : Step Formula) : Prop where
  depth : step'.depth = step.depth
  afterDerivation : step'.afterDerivation = step.afterDerivation
  premises : ∀ premises' ∈ step'.premises, ∃ premises ∈ step.premises, premises ⊆ premises'
  contextNames : step'.contextNames ⊆ step.contextNames
  quantifiers : step.quantifiers = true → step'.quantifiers = true

variable {step step' : Step Formula} {rule : Rule} {given : List Formula}
  {under : List (CitedSubproof Formula)} {c : Formula}

/-- **The table of rules under relaxation.** -/
theorem Row.of_relaxes (h : Row step rule given under c) (hrelaxes : step'.Relaxes step) :
    Row step' rule given under c := by
  cases h with
  | premise outside first declared =>
    refine .premise (hrelaxes.depth.trans outside) (hrelaxes.afterDerivation.trans first) ?_
    intro premises' hpremises'
    obtain ⟨premises, hpremises, hsubset⟩ := hrelaxes.premises premises' hpremises'
    exact hsubset (declared premises hpremises)
  | forAllIntro enabled arbitrary =>
    exact .forAllIntro (hrelaxes.quantifiers enabled) (arbitrary.of_subset hrelaxes.contextNames)
  | forAllElim enabled isInstance => exact .forAllElim (hrelaxes.quantifiers enabled) isInstance
  | forSomeIntro enabled isInstance => exact .forSomeIntro (hrelaxes.quantifiers enabled) isInstance
  | forSomeElim enabled arbitrary =>
    exact .forSomeElim (hrelaxes.quantifiers enabled) (arbitrary.of_subset hrelaxes.contextNames)
  -- the other rules do not look at their place
  | _ => constructor

end Step

/-- What is cited amounts to the same in another order. -/
theorem Cited.AmountTo.of_perm {cited cited' : List (Cited Formula)} {given : List Formula}
    {under : List (CitedSubproof Formula)} (h : AmountTo cited given under)
    (hperm : cited'.Perm cited) :
    AmountTo cited' given under :=
  ⟨((hperm.filterMap _).map _).trans h.1, (hperm.filterMap _).trans h.2⟩

namespace Step

variable {step step' : Step Formula}

/-- What passes at a place passes where more is allowed, whatever the order of what is cited. -/
theorem check_of_relaxes (hcheck : step.check = .ok ())
    (hrelaxes : step'.Relaxes step) (hrule : step'.rule = step.rule)
    (hconclusion : step'.conclusion = step.conclusion) (hcited : step'.cited.Perm step.cited) :
    step'.check = .ok () := by
  obtain ⟨given, under, hamount, hrow⟩ := check_eq_ok_iff_yields.mp hcheck
  refine check_eq_ok_iff_yields.mpr ⟨given, under, hamount.of_perm hcited, ?_⟩
  rw [hrule, hconclusion]
  exact hrow.of_relaxes hrelaxes

/-! ### Premises as a set -/

section Members

variable {context context' : List Name}

theorem ensureFresh_congr (hcontext : ∀ n, n ∈ context' ↔ n ∈ context) (name : Name)
    (formulas : List Formula) : ensureFresh name context' formulas =
      ensureFresh name context formulas := by
  simp only [ensureFresh, hcontext]

theorem ensureArbitrary_congr (hcontext : ∀ n, n ∈ context' ↔ n ∈ context) (found : Option Instance)
    (requirement : Requirement) (formulas : List Formula) :
    ensureArbitrary found requirement context' formulas =
      ensureArbitrary found requirement context formulas := by
  rcases found with _ | _ | name
  · rfl
  · rfl
  · exact ensureFresh_congr hcontext name formulas

/-- Neither the order nor the repetition of the fixed names matters to a rule, not even to
its complaints. -/
theorem check_congr_of_mem_contextNames (hcontext : ∀ n, n ∈ context' ↔ n ∈ step.contextNames) :
    { step with contextNames := context' }.check = step.check := by
  obtain ⟨rule, c, cited, depth, context, premises, afterDerivation, quantifiers⟩ := step
  cases rule with
  | forAllIntro => simp only [check, checkForAllIntro, ensureArbitrary_congr hcontext]
  | forSomeElim => simp only [check, checkForSomeElim, ensureArbitrary_congr hcontext]
  | _ => rfl

/-- Nor do the order and the repetition of premises. -/
theorem check_congr_of_mem_iff {Γ Γ' : List Formula} (hΓ : step.premises = some Γ)
    (hpremises : ∀ φ, φ ∈ Γ' ↔ φ ∈ Γ) (hcontext : ∀ n, n ∈ context' ↔ n ∈ step.contextNames) :
    { step with premises := some Γ', contextNames := context' }.check = step.check := by
  rw [← check_congr_of_mem_contextNames hcontext]
  obtain ⟨rule, c, cited, depth, context, premises, afterDerivation, quantifiers⟩ := step
  obtain rfl : premises = some Γ := hΓ
  cases rule with
  | premise => simp only [check, checkPremise, hpremises]
  | _ => rfl

end Members

end Step

/-! ### Verdicts -/

section Verdicts

variable {premises premises' : Option (List Formula)} {premiseLines lines : List (Line Formula)}
  {line : Line Formula} {scope : Scope} {n : Name} {document : Document Formula}

/-- The names that are free in declared premises. -/
def declaredNames (premises : Option (List Formula)) : List Name :=
  (premises.getD []).flatMap Formula.freeNames

/-- Where fewer names are declared, fewer are fixed. -/
theorem FixedName.of_subset (h : FixedName premises' premiseLines lines scope n)
    (hnames : declaredNames premises' ⊆ declaredNames premises) :
    FixedName premises premiseLines lines scope n :=
  h.imp_left fun hdeclared => List.mem_flatMap.mp (hnames (List.mem_flatMap.mpr hdeclared))

/-- **A valid line stays valid** if all premises that it could use stay, no name is fixed in
addition, and quantifiers are not taken away. -/
theorem verdict?_eq_valid_of_relaxed {calculus calculus' : Calculus} {goal goal' : Option Formula}
    (h : LaidOut 1 .root document.lines) (hline : line ∈ document.lines)
    (hpremises : ∀ Γ' ∈ premises', ∃ Γ ∈ premises, Γ ⊆ Γ')
    (hnames : declaredNames premises' ⊆ declaredNames premises)
    (hquantifiers : calculus.hasQuantifiers = true → calculus'.hasQuantifiers = true)
    (hvalid : (verify calculus ⟨premises, goal⟩ document).verdict? line.number = some .valid) :
    (verify calculus' ⟨premises', goal'⟩ document).verdict? line.number = some .valid := by
  obtain ⟨before, rest, hl⟩ := List.append_of_mem hline
  -- what is known at the line in either case
  have hmirrors : ((Progress.after premises before).enter line).Mirrors premises before
      (before ++ [line]) line.scope := Progress.mirrors_enter h hl
  have hmirrors' : ((Progress.after premises' before).enter line).Mirrors premises' before
      (before ++ [line]) line.scope := Progress.mirrors_enter h hl
  rw [verdict?_verify h hl, Option.some_inj, judge_eq_valid_iff h fun _ => hmirrors.isVisible_iff]
    at hvalid
  rw [verdict?_verify h hl, Option.some_inj, judge_eq_valid_iff h fun _ => hmirrors'.isVisible_iff]
  obtain ⟨cited, hrefers, hcheck⟩ := hvalid
  have hafter := Bool.eq_iff_iff.mpr (hmirrors'.afterDerivation.trans hmirrors.afterDerivation.symm)
  refine ⟨cited, hrefers,
    Step.check_of_relaxes hcheck ⟨rfl, hafter, hpremises, ?_, hquantifiers⟩ rfl rfl
    (.refl cited)⟩
  intro n hn
  have hfixed : FixedName premises' before (before ++ [line]) line.scope n :=
    hmirrors'.mem_contextNames_iff.mp hn
  exact hmirrors.mem_contextNames_iff.mpr (hfixed.of_subset hnames)

/-- The verdict on a line depends on the set of declared premises, and on nothing
else about them. -/
theorem verdict?_congr_of_mem_iff (calculus : Calculus) (goal : Option Formula)
    {Γ Γ' : List Formula} (h : LaidOut 1 .root document.lines) (hline : line ∈ document.lines)
    (hmem : ∀ φ, φ ∈ Γ' ↔ φ ∈ Γ) :
    (verify calculus ⟨some Γ', goal⟩ document).verdict? line.number =
      (verify calculus ⟨some Γ, goal⟩ document).verdict? line.number := by
  obtain ⟨before, rest, hl⟩ := List.append_of_mem hline
  have hmirrors : ((Progress.after (some Γ) before).enter line).Mirrors (some Γ) before
      (before ++ [line]) line.scope := Progress.mirrors_enter h hl
  have hmirrors' : ((Progress.after (some Γ') before).enter line).Mirrors (some Γ') before
      (before ++ [line]) line.scope := Progress.mirrors_enter h hl
  rw [verdict?_verify h hl, verdict?_verify h hl]
  generalize (Progress.after (some Γ) before).enter line = here at hmirrors ⊢
  generalize (Progress.after (some Γ') before).enter line = here' at hmirrors' ⊢
  have hvisible (s : Scope) : here'.isVisible s = here.isVisible s :=
    Bool.eq_iff_iff.mpr (hmirrors'.isVisible_iff.trans hmirrors.isVisible_iff.symm)
  have hafter : here'.afterDerivation = here.afterDerivation :=
    Bool.eq_iff_iff.mpr (hmirrors'.afterDerivation.trans hmirrors.afterDerivation.symm)
  have hcontext (n : Name) : n ∈ here'.contextNames ↔ n ∈ here.contextNames := by
    rw [hmirrors'.mem_contextNames_iff, hmirrors.mem_contextNames_iff]
    simp only [FixedName, Option.getD_some, hmem]
  have hcheck (cited : List (Cited Formula)) : (line.step calculus (some Γ') here' cited).check =
      (line.step calculus (some Γ) here cited).check := by
    rw [Line.step, hafter]
    have hΓ : (line.step calculus (some Γ) here cited).premises = some Γ := rfl
    exact Step.check_congr_of_mem_iff hΓ hmem hcontext
  rw [judge, judge, resolveAll_congr fun c _ => resolve_congr_of_isVisible hvisible c]
  cases resolveAll document here line line.citations with
  | error verdict => rfl
  | ok cited =>
    have hcited := hcheck cited
    simp only [Line.step] at hcited
    simp only [hcited]

end Verdicts

/-- **Relaxing the statement or the calculus never breaks a valid line.** A valid line stays valid
if the declaration of premises is withdrawn, if more premises with the same names are declared, and
if quantifiers are admitted; and its verdict, whatever it is, stays if the same premises are
declared in another order or repeatedly. -/
theorem verify_of_relaxed {drafts : List (Draft Formula)} {document : Document Formula}
    (hbuild : Document.build drafts = .ok document) {line : Line Formula}
    (hline : line ∈ document.lines) (goal : Option Formula) :
    let verdict? (calculus : Calculus) (premises : Option (List Formula)) : Option Verdict :=
      (verify calculus ⟨premises, goal⟩ document).verdict? line.number
    (∀ calculus Γ, verdict? calculus (some Γ) = some .valid →
      verdict? calculus none = some .valid) ∧
    (∀ calculus Γ Γ', Γ ⊆ Γ' →
      (∀ n, (∃ φ ∈ Γ', n ∈ φ.freeNames) ↔ ∃ φ ∈ Γ, n ∈ φ.freeNames) →
        verdict? calculus (some Γ) = some .valid → verdict? calculus (some Γ') = some .valid) ∧
    (∀ calculus Γ Γ', (∀ φ, φ ∈ Γ' ↔ φ ∈ Γ) →
      verdict? calculus (some Γ') = verdict? calculus (some Γ)) ∧
    ∀ premises, verdict? .propositional premises = some .valid →
      verdict? .predicate premises = some .valid := by
  intro verdict?
  have h := (Document.build_eq_ok_iff.mp hbuild).1
  refine ⟨?_, ?_, ?_, ?_⟩
  · intro calculus Γ
    exact verdict?_eq_valid_of_relaxed h hline nofun nofun id
  · intro calculus Γ Γ' hsubset hsame
    refine verdict?_eq_valid_of_relaxed h hline ?_ ?_ id
    · intro premises' hpremises'
      obtain rfl := Option.some.inj hpremises'
      exact ⟨Γ, rfl, hsubset⟩
    · intro n hn
      exact List.mem_flatMap.mpr ((hsame n).mp (List.mem_flatMap.mp hn))
  · intro calculus Γ Γ' hmem
    exact verdict?_congr_of_mem_iff calculus goal h hline hmem
  · intro premises
    exact verdict?_eq_valid_of_relaxed h hline (fun Γ hΓ => ⟨Γ, hΓ, List.Subset.refl Γ⟩)
      (List.Subset.refl _) nofun

/-- A universal taken apart and put together with another variable. -/
def relettering : Document Formula where
  lines :=
    [⟨⟨.forAll "x" (.atom "P" ["x"]), .premise, [], 0⟩, 1, []⟩,
     ⟨⟨.atom "P" ["b"], .forAllElim, [.line 1], 0⟩, 2, []⟩,
     ⟨⟨.forAll "y" (.atom "P" ["y"]), .forAllIntro, [.line 2], 0⟩, 3, []⟩]

/-- The last line is valid when its premise is declared, hence without a declaration and with the
further premise `⊤`; but the premise `P(b)`, which has a name of its own, breaks it. The premise
line is valid in both calculi. -/
theorem relettering_of_relaxed :
    let all : Formula := .forAll "x" (.atom "P" ["x"])
    let verdict? (calculus : Calculus) (premises : Option (List Formula)) (n : Nat) :=
      (verify calculus ⟨premises, none⟩ relettering).verdict? n
    verdict? .predicate (some [all]) 3 = some .valid ∧ verdict? .predicate none 3 = some .valid ∧
      verdict? .predicate (some [.top, all]) 3 = some .valid ∧
      verdict? .predicate (some [all, .atom "P" ["b"]]) 3 = some (.mismatch (.notFresh "b")) ∧
      verdict? .predicate (some [.atom "P" ["b"], all, all]) 3 = some (.mismatch (.notFresh "b")) ∧
      verdict? .propositional (some [all]) 1 = some .valid ∧
      verdict? .predicate (some [all]) 1 = some .valid := by
  intro all verdict?
  have hbuild : Document.build (relettering.lines.map Line.toDraft) = .ok relettering := by decide
  have hvalid : verdict? .predicate (some [all]) 3 = some .valid := by decide
  have hbroken : verdict? .predicate (some [all, .atom "P" ["b"]]) 3 =
      some (.mismatch (.notFresh "b")) := by
    decide
  have hpremise : verdict? .propositional (some [all]) 1 = some .valid := by decide
  have hlast :
      (⟨⟨.forAll "y" (.atom "P" ["y"]), .forAllIntro, [.line 2], 0⟩, 3, []⟩ : Line Formula) ∈
      relettering.lines := by decide
  have hfirst : (⟨⟨all, .premise, [], 0⟩, 1, []⟩ : Line Formula) ∈ relettering.lines := by decide
  obtain ⟨hwithdrawn, hadded, hrepeated, -⟩ := verify_of_relaxed hbuild hlast none
  obtain ⟨-, -, -, hadmitted⟩ := verify_of_relaxed hbuild hfirst none
  refine ⟨hvalid, hwithdrawn .predicate [all] hvalid, ?_, hbroken, ?_, hpremise,
    hadmitted (some [all]) hpremise⟩
  · exact hadded .predicate [all] [.top, all] (by simp) (by simp) hvalid
  · refine (hrepeated .predicate [all, .atom "P" ["b"]] [.atom "P" ["b"], all, all] ?_).trans
      hbroken
    simp [or_comm]

end NaturalDeduction
