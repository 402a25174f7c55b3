import NaturalDeduction.Proofs.Verification.Resolution
import NaturalDeduction.Proofs.Verification.StepRenaming

/-!
# Verdicts under renaming

When all formulas of a proof and of its statement are renamed alike, the verdicts of the verifier
change in one place only: a complaint that a name is not arbitrary mentions the new name. Citations
and scopes are resolved without a look at the formulas, the names that a context fixes are renamed
along with the context, and what the rules make of both is the matter of
`Proofs.Verification.StepRenaming`.

## Main definitions

* `Verdict.rename`, `Verification.rename`: renamed answers
* `Statement.map`: the same statement over other formulas

## Main results

* `judgeLines_rename`: from any point on, the verdicts are renamed
* `verify_rename`: renamed proofs get renamed verdicts and reach their goals alike
-/

namespace NaturalDeduction

/-- The verdict with the name that it mentions renamed, if it mentions one. -/
def Verdict.rename (r : Renaming) : Verdict → Verdict
  | mismatch cause => mismatch (cause.rename r)
  | verdict => verdict

/-- The verification with renamed verdicts. -/
def Verification.rename (r : Renaming) (verification : Verification) : Verification :=
  { verification with verdicts := verification.verdicts.map (Verdict.rename r) }

/-- The same statement over other formulas. -/
def Statement.map {α β : Type} (f : α → β) (statement : Statement α) : Statement β :=
  ⟨statement.premises.map (List.map f), statement.goal.map f⟩

variable {r : Renaming}

/-! ### Documents -/

section Documents

variable {α β : Type} {f : α → β} {document : Document α}

/-- The same line with another formula. -/
def Line.map (f : α → β) (line : Line α) : Line β := { line with formula := f line.formula }

theorem Document.lines_map : (document.map f).lines = document.lines.map (Line.map f) := rfl

theorem Document.line?_map (n : Nat) :
    (document.map f).line? n = (document.line? n).map (Line.map f) := by
  cases n with
  | zero => rfl
  | succ n => exact List.getElem?_map

theorem Document.conclusion?_map :
    (document.map f).conclusion? = document.conclusion?.map (Line.map f) := by
  simp only [conclusion?, List.findRev?_eq_find?_reverse, lines_map, ← List.map_reverse,
    List.find?_map]
  rfl

theorem Document.lastIn?_map (first : Nat) :
    (document.map f).lastIn? first = document.lastIn? first := by
  simp only [lastIn?, List.findRev?_eq_find?_reverse, lines_map, ← List.map_reverse, List.find?_map,
    Option.map_map]
  rfl

theorem Document.subproof?_map (first last : Nat) :
    (document.map f).subproof? first last = document.subproof? first last := by
  simp only [subproof?, line?_map, lastIn?_map]
  cases document.line? first <;> rfl

end Documents

/-! ### Open scopes -/

namespace Progress

/-- The same scopes with their names renamed. -/
def rename (r : Renaming) (progress : Progress) : Progress :=
  { progress with
    frames := progress.frames.map fun frame => { frame with names := frame.names.map r.name } }

variable {progress : Progress} {line : Line Formula}

theorem start_rename (premises : Option (List Formula)) :
    start (premises.map (List.map (Formula.rename r))) = (start premises).rename r := by
  cases premises with
  | none => rfl
  | some premises =>
    simp [start, startWith, rename, List.flatMap_map, List.map_flatMap, Formula.freeNames_rename]

theorem contextNames_rename :
    (progress.rename r).contextNames = progress.contextNames.map r.name := by
  obtain ⟨_ | ⟨frame, outer⟩, afterDerivation⟩ := progress <;> rfl

theorem isVisible_rename (scope : Scope) :
    (progress.rename r).isVisible scope = progress.isVisible scope := by
  simp only [isVisible, rename, List.any_map]
  rfl

theorem enter_rename :
    (progress.rename r).enter (line.map (Formula.rename r)) = (progress.enter line).rename r := by
  have houter (n : Nat) : ({ progress.rename r with
      frames := Scope.outermost n (progress.rename r).frames } : Progress) =
        ({ progress with frames := Scope.outermost n progress.frames } : Progress).rename r := by
    simp [rename, Scope.outermost, List.map_drop]
  simp only [enter, enterWith, Line.map, houter, contextNames_rename, Formula.freeNames_rename]
  by_cases hrule : line.rule = .assumption
  · rw [if_pos hrule, if_pos hrule]
    simp [rename, Scope.outermost, List.map_drop]
  · rw [if_neg hrule, if_neg hrule]

theorem addToRoot_rename (names : List Name) (frames : List Frame) :
    addToRoot (names.map r.name)
        (frames.map fun frame => { frame with names := frame.names.map r.name }) =
      (addToRoot names frames).map fun frame => { frame with names := frame.names.map r.name } := by
  induction frames with
  | nil => rfl
  | cons frame outer ih =>
    cases outer with
    | nil => simp [addToRoot]
    | cons next outer =>
      simp only [List.map_cons] at ih
      simp only [List.map_cons, addToRoot, ih]

theorem leave_rename :
    (progress.rename r).leave (line.map (Formula.rename r)) = (progress.leave line).rename r := by
  simp only [leave, leaveWith, Line.map, Formula.freeNames_rename]
  by_cases hrule : line.rule = .premise
  · by_cases hdepth : line.depth = 0
    · simp only [if_pos hrule, if_pos hdepth, rename, addToRoot_rename]
    · simp only [if_pos hrule, if_neg hdepth]
  · rw [if_neg hrule, if_neg hrule]
    rfl

end Progress

/-! ### Lines and whole proofs -/

section Resolve

variable {α β : Type} {f : α → β} {document : Document α} {progress : Progress} {line : Line α}

/-- Citations are resolved without a look at the formulas. -/
theorem resolve_map (citation : Citation) :
    resolve (document.map f) progress (line.map f) citation =
      (resolve document progress line citation).map (Cited.map f) := by
  cases citation with
  | line n =>
    simp only [resolve, Document.line?_map]
    cases document.line? n with
    | none => rfl
    | some cited =>
      change (if line.number ≤ n ∨ !progress.isVisible cited.scope then _ else _) =
        Except.map _ (if line.number ≤ n ∨ !progress.isVisible cited.scope then _ else _)
      split <;> rfl
  | subproof first last =>
    simp only [resolve, Document.line?_map, Document.subproof?_map]
    rcases document.subproof? first last with _ | scope
    · rfl
    rcases document.line? first with _ | opening
    · rfl
    rcases document.line? last with _ | closing
    · rfl
    change (if line.number ≤ last ∨ !(scope.parent?.any progress.isVisible) then _
        else if closing.scope ≠ scope then _ else _) =
      Except.map _ (if line.number ≤ last ∨ !(scope.parent?.any progress.isVisible) then _
        else if closing.scope ≠ scope then _ else _)
    split
    · rfl
    · split <;> rfl

theorem resolveAll_map (citations : List Citation) :
    resolveAll (document.map f) progress (line.map f) citations =
      (resolveAll document progress line citations).map (List.map (Cited.map f)) := by
  induction citations with
  | nil => rfl
  | cons citation others ih =>
    rw [resolveAll, resolveAll, resolve_map, ih]
    cases resolve document progress line citation with
    | error verdict => rfl
    | ok cited => cases resolveAll document progress line others <;> rfl

/-- The verdicts of resolution mention no names. -/
theorem Verdict.rename_of_resolve {citation : Citation} {verdict : Verdict}
    (h : resolve document progress line citation = .error verdict) :
    verdict.rename r = verdict := by
  cases citation <;> simp only [resolve] at h <;> repeat' split at h
  all_goals cases h <;> rfl

theorem Verdict.rename_of_resolveAll {citations : List Citation} {verdict : Verdict}
    (h : resolveAll document progress line citations = .error verdict) :
    verdict.rename r = verdict := by
  induction citations with
  | nil => cases h
  | cons citation others ih =>
    rw [resolveAll] at h
    split at h
    · next hfirst =>
      obtain rfl := Except.error.inj h
      exact rename_of_resolve hfirst
    · split at h
      · next hrest =>
        obtain rfl := Except.error.inj h
        exact ih hrest
      · cases h

/-- Whether a proof ends in its goal depends on which formulas are equal, and not on
what they are. -/
theorem goalStatus_map {γ : Type} [DecidableEq β] [DecidableEq γ] {g : α → γ}
    (h : ∀ a b, f a = f b ↔ g a = g b) (goal : Option α) (document : Document α) :
    goalStatus (goal.map f) (document.map f) = goalStatus (goal.map g) (document.map g) := by
  cases goal with
  | none => rfl
  | some goal =>
    simp only [Option.map_some, goalStatus, Document.conclusion?_map]
    cases document.conclusion? with
    | none => rfl
    | some line => simp [Line.map, h]

end Resolve

section Verifier

variable {document : Document Formula} {progress : Progress} {line : Line Formula}

theorem resolveAll_rename (citations : List Citation) :
    resolveAll (document.map (Formula.rename r)) (progress.rename r) (line.map (Formula.rename r))
        citations =
      (resolveAll document progress line citations).map
        (List.map (Cited.map (Formula.rename r))) := by
  rw [resolveAll_congr fun c _ => resolve_congr_of_isVisible Progress.isVisible_rename c,
    resolveAll_map]

theorem judge_rename (calculus : Calculus) (premises : Option (List Formula)) :
    judge calculus (premises.map (List.map (Formula.rename r))) (document.map (Formula.rename r))
        (progress.rename r) (line.map (Formula.rename r)) =
      (judge calculus premises document progress line).rename r := by
  rw [judge, judge, show (line.map (Formula.rename r)).citations = line.citations from rfl,
    resolveAll_rename]
  cases hcited : resolveAll document progress line line.citations with
  | error verdict => exact (Verdict.rename_of_resolveAll hcited).symm
  | ok cited =>
    let step : Step Formula :=
      { rule := line.rule
        conclusion := line.formula
        cited
        depth := line.depth
        contextNames := progress.contextNames
        premises
        afterDerivation := progress.afterDerivation
        quantifiers := calculus.hasQuantifiers }
    have hcheck : (step.rename r).check = step.check.mapError (Mismatch.rename r) :=
      step.check_rename
    have hafter : (progress.rename r).afterDerivation = progress.afterDerivation := rfl
    simp only [Except.map, Progress.contextNames_rename, hafter]
    simp only [Step.rename, step] at hcheck
    simp only [Line.map, hcheck]
    cases step.check <;> rfl

/-- From any point on, the verdicts are renamed. -/
theorem judgeLines_rename (calculus : Calculus) (premises : Option (List Formula))
    (lines : List (Line Formula)) :
    judgeLines calculus (premises.map (List.map (Formula.rename r)))
      (document.map (Formula.rename r))
        (progress.rename r) (lines.map (Line.map (Formula.rename r))) =
      (judgeLines calculus premises document progress lines).map (Verdict.rename r) := by
  induction lines generalizing progress with
  | nil => rfl
  | cons line others ih =>
    simp only [List.map_cons, judgeLines, Progress.enter_rename, Progress.leave_rename,
      judge_rename, ih]

theorem goalStatus_rename (goal : Option Formula) :
    goalStatus (goal.map (Formula.rename r)) (document.map (Formula.rename r)) =
      goalStatus goal document := by
  have hmap := goalStatus_map (f := Formula.rename r) (g := id)
    (fun _ _ => Formula.rename_inj) goal document
  simpa [Document.map] using hmap

/-- **Verdicts do not depend on names.** -/
theorem verify_rename (calculus : Calculus) (statement : Statement Formula)
    (document : Document Formula) :
    verify calculus (statement.map (Formula.rename r)) (document.map (Formula.rename r)) =
      (verify calculus statement document).rename r := by
  simp only [verify, Verification.rename, Statement.map, Progress.start_rename, Document.lines_map,
    judgeLines_rename, goalStatus_rename]

end Verifier

end NaturalDeduction
