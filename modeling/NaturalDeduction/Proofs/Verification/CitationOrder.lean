import Mathlib.Data.List.Perm.Basic
import NaturalDeduction.Proofs.Verification.Relaxation
import NaturalDeduction.Proofs.Verification.Replacement

/-!
# The order of citations

A rule is justified by what is cited, not by the order in which it is cited: a line is valid in one
order of its citations if it is valid in any other, and the other lines do not notice.

## What the order does decide

Citations are resolved one after the other until one fails, and a rule that finds nothing to apply
to complains of what it looked at last. So the order decides what is complained of. This is why the
result is about validity, and not about verdicts.

## Implementation notes

A line with its citations in another order is a line that takes the place of the first one, with the
same formula (`Draft.Replaces`). Its citations refer to the same, one by one (`refers_redraft`), so
what they refer to is in another order as well (`List.perm_comp_forall₂`). That the rules do not
mind has been shown with the table of rules (`Step.check_of_relaxes`).

## Main results

* `verify_permuted_citations`: a proof with the citations of one line in another order
-/

namespace NaturalDeduction

/-- A line that cites something else takes the place of the line. -/
theorem Draft.replaces_citations (draft : Draft Formula) (citations : List Citation) :
    { draft with citations }.Replaces draft :=
  ⟨rfl, .inr ⟨rfl, rfl⟩⟩

variable {draft : Draft Formula} {citations : List Citation}

section Permuted

variable {before after : List (Line Formula)} {line : Line Formula} {progress : Progress}
  {calculus : Calculus} {premises : Option (List Formula)}

/-- **A valid line stays valid when its citations are put in another order.** -/
theorem judge_eq_valid_of_perm (h : LaidOut 1 .root (before ++ line :: after))
    (hperm : citations.Perm line.citations)
    (hvisible : ∀ s, progress.isVisible s = true ↔ s <:+ line.scope)
    (hvalid : judge calculus premises ⟨before ++ line :: after⟩ progress line = .valid) :
    let permuted := line.redraft { line.toDraft with citations }
    judge calculus premises ⟨before ++ permuted :: after⟩ progress permuted = .valid := by
  intro permuted
  have hreplaces := line.toDraft.replaces_citations citations
  obtain ⟨cited, hrefers, hcheck⟩ := (judge_eq_valid_iff h hvisible).mp hvalid
  obtain ⟨cited', hrefers', hcited⟩ := List.perm_comp_forall₂ hperm hrefers
  have hvisible' : ∀ s, progress.isVisible s = true ↔ s <:+ permuted.scope := hvisible
  refine (judge_eq_valid_iff (h.redraft hreplaces) hvisible').mpr ⟨cited', ?_, ?_⟩
  · exact hrefers'.imp fun _ _ => (refers_redraft h hreplaces rfl hvisible).mpr
  · -- the place is the same, so nothing is taken away by going from the one to the other
    have hrelaxes : (permuted.step calculus premises progress cited').Relaxes
        (line.step calculus premises progress cited) :=
      ⟨rfl, rfl, fun Γ hΓ => ⟨Γ, hΓ, List.Subset.refl Γ⟩, List.Subset.refl _, id⟩
    exact Step.check_of_relaxes hcheck hrelaxes rfl rfl hcited

/-- The line in the other order is valid exactly if it was. -/
theorem verdict?_permuted_eq_valid_iff {statement : Statement Formula}
    (h : LaidOut 1 .root (before ++ line :: after)) (hperm : citations.Perm line.citations) :
    let permuted := line.redraft { line.toDraft with citations }
    (verify calculus statement ⟨before ++ permuted :: after⟩).verdict? line.number = some .valid ↔
      (verify calculus statement ⟨before ++ line :: after⟩).verdict? line.number = some .valid := by
  intro permuted
  have h' : LaidOut 1 .root (before ++ permuted :: after) :=
    h.redraft (line.toDraft.replaces_citations citations)
  -- the lines before are the same, and so is what is known on arriving at the line
  have hverdict :
      (verify calculus statement ⟨before ++ line :: after⟩).verdict? line.number = some _ :=
    verdict?_verify h rfl
  have hverdict' : (verify calculus statement ⟨before ++ permuted :: after⟩).verdict? line.number =
      some (judge calculus statement.premises ⟨before ++ permuted :: after⟩
        ((Progress.after statement.premises before).enter line) permuted) :=
    verdict?_verify h' rfl
  have hvisible (s : Scope) :
      ((Progress.after statement.premises before).enter line).isVisible s = true ↔
        s <:+ line.scope :=
    (Progress.mirrors_enter h rfl).isVisible_iff
  rw [hverdict, hverdict', Option.some_inj, Option.some_inj]
  exact ⟨judge_eq_valid_of_perm h' hperm.symm hvisible, judge_eq_valid_of_perm h hperm hvisible⟩

end Permuted

/-- **Citation order never decides validity.** Let the citations of one line of a proof be put
in another order. Then this line is valid if and only if it was, and the other lines get the
same verdicts. -/
theorem verify_permuted_citations (calculus : Calculus) (statement : Statement Formula)
    {before after : List (Draft Formula)} (hperm : citations.Perm draft.citations)
    {document : Document Formula}
    (hbuild : Document.build (before ++ draft :: after) = .ok document) :
    ∃ permuted, Document.build (before ++ { draft with citations } :: after) = .ok permuted ∧
      let verdict? := (verify calculus statement document).verdict?
      let verdict?' := (verify calculus statement permuted).verdict?
      let k := before.length + 1
      (verdict?' k = some .valid ↔ verdict? k = some .valid) ∧
        ∀ line ∈ document.lines, line.number ≠ k →
          ∃ verdict, verdict? line.number = some verdict ∧
            verdict?' line.number = some verdict := by
  obtain ⟨first, line, rest, hlaid, rfl, hnumber, rfl, hredraft⟩ :=
    Document.exists_redraft_of_build hbuild (draft.replaces_citations citations)
  refine ⟨_, hredraft, ?_⟩
  intro verdict? verdict?' k
  have hk : line.number = k := hnumber
  refine ⟨hk ▸ verdict?_permuted_eq_valid_iff hlaid hperm, fun other hother hne => ?_⟩
  exact exists_verdict?_redraft calculus rfl hlaid
    (line.toDraft.replaces_citations citations) hother
    (hk ▸ hne) fun _ => rfl

/-- A disjunction is commuted, with the citations of the elimination to be filled in. -/
def commuted (citations : List Citation) : List (Draft Formula) :=
  let p : Formula := .atom "P" []
  let q : Formula := .atom "Q" []
  [⟨.or p q, .premise, [], 0⟩,
   ⟨p, .assumption, [], 1⟩, ⟨.or q p, .orIntro, [.line 2], 1⟩,
   ⟨q, .assumption, [], 1⟩, ⟨.or q p, .orIntro, [.line 4], 1⟩] ++
     ⟨.or q p, .orElim, citations, 0⟩ ::
  [⟨.or q p, .reiteration, [.line 6], 0⟩]

/-- The elimination is valid with the disjunction cited between the subproofs. If it cites a
line that does not exist and one that is out of scope, it is invalid in either order, but not
for the same reason. -/
theorem commuted_permuted_citations :
    ∃ usual unusual wrong wrong',
      Document.build (commuted [.line 1, .subproof 2 3, .subproof 4 5]) = .ok usual ∧
      Document.build (commuted [.subproof 4 5, .line 1, .subproof 2 3]) = .ok unusual ∧
      Document.build (commuted [.line 9, .line 2]) = .ok wrong ∧
      Document.build (commuted [.line 2, .line 9]) = .ok wrong' ∧
      (verify .propositional ⟨none, none⟩ usual).verdict? 6 = some .valid ∧
      (verify .propositional ⟨none, none⟩ unusual).verdict? 6 = some .valid ∧
      (verify .propositional ⟨none, none⟩ unusual).verdict? 7 = some .valid ∧
      (verify .propositional ⟨none, none⟩ wrong).verdict? 6 = some (.unresolvedCitation (.line 9)) ∧
      (verify .propositional ⟨none, none⟩ wrong').verdict? 6 =
        some (.outOfScopeCitation (.line 2)) := by
  have husual : Document.build (commuted [.line 1, .subproof 2 3, .subproof 4 5]) = .ok _ := rfl
  have hperm : [Citation.subproof 4 5, .line 1, .subproof 2 3].Perm
      [.line 1, .subproof 2 3, .subproof 4 5] :=
    by decide
  obtain ⟨unusual, hunusual, hvalid, hothers⟩ :=
    verify_permuted_citations .propositional ⟨none, none⟩ hperm husual
  obtain ⟨verdict, hverdict, hverdict'⟩ :=
    hothers ⟨⟨.or (.atom "Q" []) (.atom "P" []), .reiteration, [.line 6], 0⟩, 7, []⟩
      (by decide) (by decide)
  obtain rfl : verdict = .valid := Option.some.inj (hverdict.symm.trans (by decide))
  exact ⟨_, unusual, _, _, husual, hunusual, rfl, rfl, by decide, hvalid.mpr (by decide), hverdict',
    by decide, by decide⟩

end NaturalDeduction
