import Mathlib.Data.List.TakeWhile
import NaturalDeduction.Proofs.Document.Scopes
import NaturalDeduction.Proofs.Verification.Resolution

/-!
# Visibility by depths

Resolution asks three records what may be cited: the scopes of the lines, the last lines of
subproofs, and the frames that are open at the citing line. A reader of a proof has none of them and
looks at the depths. `Document.resolveByDepth` resolves citations as the reader does, and this file
proves that the outcome is the same, failures included.

## What closes a subproof

All conditions are about lines that close a depth. A cited line is out of sight once a line closes
its depth. A subproof ends where a line closes the depth of its assumption, and is out of sight once
a line closes the depth around it. So a subproof that is still open at the citing line ends behind
it, or with it, and is not available yet.

## Main definitions

* `Document.endOfRun`: where the subproof of an assumption ends
* `Document.resolveByDepth`: what a citation refers to, by depths

## Main results

* `Document.lastIn?_eq_endOfRun`: subproofs end with the run of lines that do not close them
* `resolve_eq_resolveByDepth`: resolution by depths
* `verify_resolves_by_depth`: resolution and first failures in the verifier
-/

namespace NaturalDeduction

/-! ### Subproofs as runs of lines -/

/-- Whether a line goes on with a subproof of depth `d`: it is deeper, or stands at this depth and
is no assumption. -/
def Draft.Continues {α : Type} (draft : Draft α) (d : Nat) : Prop :=
  d < draft.depth ∨ draft.rule ≠ .assumption ∧ draft.depth = d

instance {α : Type} (draft : Draft α) (d : Nat) : Decidable (draft.Continues d) :=
  inferInstanceAs (Decidable (_ ∨ _))

theorem Draft.continues_iff {α : Type} {draft : Draft α} {d : Nat} :
    draft.Continues d ↔ ¬ draft.Closes d := by
  by_cases hrule : draft.rule = .assumption
  · simp only [Continues, Closes, hrule, ne_eq, not_true_eq_false, false_and, true_and, or_false]
    omega
  · simp only [Continues, Closes, hrule, ne_eq, not_false_eq_true, true_and, false_and, or_false]
    omega

namespace Document

variable {α : Type} {document : Document α} {opening line other : Line α}

/-- The number of the last line of the run of lines behind an assumption that continue its depth. If
the run is empty this is the assumption itself. -/
def endOfRun (document : Document α) (opening : Line α) : Nat :=
  opening.number +
    ((document.lines.drop opening.number).takeWhile (·.Continues opening.depth)).length

/-- An assumption is in force at a later line if nothing closes its depth in between. -/
theorem number_mem_iff_not_closed (h : LaidOut 1 .root document.lines)
    (hopening : opening ∈ document.lines) (hrule : opening.rule = .assumption)
    (hline : line ∈ document.lines) (hle : opening.number ≤ line.number) :
    opening.number ∈ line.scope ↔
      ¬ ClosedBetween document.lines opening.depth opening.number line.number := by
  rw [h.number_mem_iff hline List.suffix_rfl hopening, and_iff_right hrule,
    h.suffix_scope_iff_not_closed hopening hline hle List.suffix_rfl, h.length_scope hopening]

/-- A subproof ends with the lines behind its assumption that do not close it, whatever follows. -/
theorem lastIn?_eq_of_run (h : LaidOut 1 .root document.lines) {before run rest : List (Line α)}
    (hl : document.lines = before ++ opening :: (run ++ rest)) (hrule : opening.rule = .assumption)
    (hrun : ∀ line ∈ run, ¬ line.Closes opening.depth)
    (hrest : ∀ line ∈ rest.head?, line.Closes opening.depth) :
    document.lastIn? opening.number = some (opening.number + run.length) := by
  have hopening : opening ∈ document.lines := by simp [hl]
  -- the numbers of the lines in the run, and of those behind it
  have hbehind := (laidOut_append.mp (hl ▸ h)).2
  obtain ⟨hlaidRun, hlaidRest⟩ := laidOut_append.mp hbehind.2.2
  rw [← hbehind.1] at hlaidRun hlaidRest
  have hlength : opening.number + run.length < 1 + document.lines.length := by
    have := h.number_lt hopening
    rw [hbehind.1, hl]
    simp only [List.length_append, List.length_cons]
    omega
  obtain ⟨closing, hclosing, hnumber⟩ :=
    h.exists_number_eq (Nat.le_trans (h.number_le hopening) (Nat.le_add_right _ _)) hlength
  refine (lastIn?_eq_some_iff h).mpr ⟨closing, hclosing, hnumber, ?_, fun line hline hlt hmem => ?_⟩
  · rw [number_mem_iff_not_closed h hopening hrule hclosing (by omega)]
    rintro ⟨line, hline, hlt, hle, hcloses⟩
    rcases List.mem_append.mp ((h.mem_after_iff hl hline).mpr hlt) with hmem | hmem
    · exact hrun line hmem hcloses
    · have := hlaidRest.number_le hmem
      omega
  · rw [number_mem_iff_not_closed h hopening hrule hline (by omega)] at hmem
    -- a line behind the run has the line that ends the run before it, or is that line
    rcases List.mem_append.mp ((h.mem_after_iff hl hline).mpr (by omega)) with hin | hin
    · have := hlaidRun.number_lt hin
      omega
    · cases rest with
      | nil => simp at hin
      | cons first rest =>
        have hfirst : first ∈ document.lines := by simp [hl]
        have hle := hlaidRest.1 ▸ hlaidRest.number_le hin
        have hlt := hlaidRest.1
        exact hmem ⟨first, hfirst, by omega, by omega, hrest first rfl⟩

/-- **A subproof ends with its run.** -/
theorem lastIn?_eq_endOfRun (h : LaidOut 1 .root document.lines)
    (hopening : opening ∈ document.lines) (hrule : opening.rule = .assumption) :
    document.lastIn? opening.number = some (document.endOfRun opening) := by
  obtain ⟨before, after, hl⟩ := List.append_of_mem hopening
  have hdrop : document.lines.drop opening.number = after := by
    have hnumber := (h.place_of_eq hl).1
    rw [hl, hnumber, Nat.add_comm, List.drop_length_add_append, List.drop_one, List.tail_cons]
  have hsplit := List.takeWhile_append_dropWhile (p := (·.Continues opening.depth)) (l := after)
  rw [endOfRun, hdrop]
  refine lastIn?_eq_of_run h (hsplit ▸ hl) hrule (fun line hmem => ?_) (fun line hmem => ?_)
  · have hcontinues := List.mem_takeWhile_imp hmem
    exact Draft.continues_iff.mp (of_decide_eq_true hcontinues)
  · have hends := List.head?_dropWhile_not (·.Continues opening.depth) after
    rw [Option.mem_def.mp hmem] at hends
    exact not_not.mp (mt Draft.continues_iff.mpr (of_decide_eq_false hends))

/-- Subproofs are found by the depths of the lines. -/
theorem subproof?_eq_ite (h : LaidOut 1 .root document.lines) (hopening : opening ∈ document.lines)
    (last : Nat) :
    document.subproof? opening.number last =
      if opening.rule = .assumption ∧ last = document.endOfRun opening then some opening.scope
      else none := by
  rw [subproof?, (line?_eq_some_iff h).mpr ⟨hopening, rfl⟩]
  by_cases hrule : opening.rule = .assumption
  · simp [lastIn?_eq_endOfRun h hopening hrule, hrule, eq_comm]
  · simp [hrule]

/-! ### Resolution by depths -/

/-- What a citation in line `i` refers to, or the verdict that it brings upon the line, found by the
depths of the lines alone. -/
def resolveByDepth (document : Document Formula) (i : Nat) :
    Citation → Except Verdict (Cited Formula)
  | .line n =>
    match document.line? n with
    | none => .error (.unresolvedCitation (.line n))
    | some cited =>
      if i ≤ n ∨ ClosedBetween document.lines cited.depth n i then
        .error (.outOfScopeCitation (.line n))
      else .ok (.line ⟨.line n, cited.formula⟩)
  | .subproof first last =>
    match document.line? first, document.line? last with
    | some opening, some closing =>
      if ¬(opening.rule = .assumption ∧ last = document.endOfRun opening) then
        .error (.unresolvedCitation (.subproof first last))
      else if i ≤ last ∨ ClosedBetween document.lines (opening.depth - 1) first i then
        .error (.outOfScopeCitation (.subproof first last))
      else if closing.depth ≠ opening.depth then
        .error (.mismatch (.subproofEndsNested (.subproof first last)))
      else .ok (.subproof ⟨opening.formula, closing.formula⟩)
    | _, _ => .error (.unresolvedCitation (.subproof first last))

end Document

section Resolve

variable {document : Document Formula} {progress : Progress}
  {line opening closing cited : Line Formula}

/-- A line that may not be cited comes no earlier, or its depth has been closed since. -/
theorem not_visible_iff_closed (h : LaidOut 1 .root document.lines) (hline : line ∈ document.lines)
    (hvisible : ∀ s, progress.isVisible s = true ↔ s <:+ line.scope)
    (hcited : cited ∈ document.lines) :
    (line.number ≤ cited.number ∨ (!progress.isVisible cited.scope) = true) ↔
      line.number ≤ cited.number ∨
        ClosedBetween document.lines cited.depth cited.number line.number := by
  refine or_congr_right' fun hlt => ?_
  rw [Bool.not_eq_true', ← Bool.not_eq_true, hvisible,
    h.suffix_scope_iff_not_closed hcited hline (by omega) List.suffix_rfl, not_not,
    h.length_scope hcited]

/-- A subproof that may not be cited ends no earlier, or the depth around it has been
closed since. -/
theorem not_parent_visible_iff_closed (h : LaidOut 1 .root document.lines)
    (hline : line ∈ document.lines)
    (hvisible : ∀ s, progress.isVisible s = true ↔ s <:+ line.scope)
    (hopening : opening ∈ document.lines) (hrule : opening.rule = .assumption) {last : Nat}
    (hle : opening.number ≤ last) :
    (line.number ≤ last ∨ (!opening.scope.parent?.any progress.isVisible) = true) ↔
      line.number ≤ last ∨
        ClosedBetween document.lines (opening.depth - 1) opening.number line.number := by
  obtain ⟨outer, hscope⟩ := h.exists_scope_eq_cons hopening hrule
  have houter : outer <:+ opening.scope := hscope ▸ List.suffix_cons opening.number outer
  have hdepth : opening.depth - 1 = outer.length := by
    rw [← h.length_scope hopening, hscope, List.length_cons, Nat.add_sub_cancel]
  refine or_congr_right' fun hlt => ?_
  rw [hscope, Scope.parent?, Option.any_some, Bool.not_eq_true', ← Bool.not_eq_true, hvisible,
    h.suffix_scope_iff_not_closed hopening hline (by omega) houter, not_not, hdepth]

/-- The last line of a subproof is a line of its own level if it is as deep as the assumption. -/
theorem scope_ne_iff_depth_ne (h : LaidOut 1 .root document.lines)
    (hopening : opening ∈ document.lines) (hclosing : closing ∈ document.lines)
    (hlast : document.lastIn? opening.number = some closing.number) :
    closing.scope ≠ opening.scope ↔ closing.depth ≠ opening.depth := by
  obtain ⟨other, hother, hnumber, hmem, -⟩ := (Document.lastIn?_eq_some_iff h).mp hlast
  obtain rfl := h.eq_of_number_eq hother hclosing hnumber
  have hsuffix := ((h.number_mem_iff hclosing List.suffix_rfl hopening).mp hmem).2
  rw [← h.length_scope hopening, ← h.length_scope hclosing]
  exact not_congr ⟨congrArg List.length, fun heq => (hsuffix.eq_of_length heq.symm).symm⟩

/-- **Resolution by depths.** -/
theorem resolve_eq_resolveByDepth (h : LaidOut 1 .root document.lines)
    (hline : line ∈ document.lines) (hvisible : ∀ s, progress.isVisible s = true ↔ s <:+ line.scope)
    (citation : Citation) :
    resolve document progress line citation = document.resolveByDepth line.number citation := by
  cases citation with
  | line n =>
    rw [resolve, Document.resolveByDepth]
    cases hn : document.line? n with
    | none => rfl
    | some cited =>
      obtain ⟨hcited, rfl⟩ := (Document.line?_eq_some_iff h).mp hn
      simp only [not_visible_iff_closed h hline hvisible hcited]
  | subproof first last =>
    rw [resolve, Document.resolveByDepth]
    cases hfirst : document.line? first with
    | none => cases document.subproof? first last <;> rfl
    | some opening =>
      cases hlast : document.line? last with
      | none => cases document.subproof? first last <;> rfl
      | some closing =>
        obtain ⟨hopening, rfl⟩ := (Document.line?_eq_some_iff h).mp hfirst
        obtain ⟨hclosing, rfl⟩ := (Document.line?_eq_some_iff h).mp hlast
        rw [Document.subproof?_eq_ite h hopening]
        by_cases hsubproof : opening.rule = .assumption ∧ closing.number = document.endOfRun opening
        · have hlastIn : document.lastIn? opening.number = some closing.number :=
            hsubproof.2 ▸ Document.lastIn?_eq_endOfRun h hopening hsubproof.1
          have hle : opening.number ≤ closing.number := hsubproof.2 ▸ Nat.le_add_right _ _
          rw [if_pos hsubproof]
          simp only [if_neg (not_not.mpr hsubproof),
            not_parent_visible_iff_closed h hline hvisible hopening hsubproof.1 hle,
            scope_ne_iff_depth_ne h hopening hclosing hlastIn]
        · rw [if_neg hsubproof]
          simp only [if_pos hsubproof]

/-- The first citation that fails settles what becomes of all of them. -/
theorem resolveAll_eq_error {citation : Citation} {passed others : List Citation}
    {failure : Verdict}
    (hpassed : ∀ c ∈ passed, ∃ cited, resolve document progress line c = .ok cited)
    (hfails : resolve document progress line citation = .error failure) :
    resolveAll document progress line (passed ++ citation :: others) = .error failure := by
  induction passed with
  | nil => rw [List.nil_append, resolveAll, hfails]
  | cons first passed ih =>
    obtain ⟨cited, hfirst⟩ := hpassed first List.mem_cons_self
    have hrest := ih fun c hc => hpassed c (List.mem_cons_of_mem _ hc)
    rw [List.cons_append, resolveAll, hfirst, hrest]

end Resolve

/-- **Citations resolve by depths, and the first that fails settles the verdict.** At every line of
a document the verifier resolves citations as the depths of the lines say. If citations of the line
fail, the verdict on it is the failure of the first that does; if none fails, it is what the rule
says of the formulas that they refer to. -/
theorem verify_resolves_by_depth {drafts : List (Draft Formula)} {document : Document Formula}
    (hbuild : Document.build drafts = .ok document) (calculus : Calculus)
    (statement : Statement Formula) {before rest : List (Line Formula)} {line : Line Formula}
    (hl : document.lines = before ++ line :: rest) :
    let here := (Progress.after statement.premises before).enter line
    let resolved := document.resolveByDepth line.number
    let verdict? := (verify calculus statement document).verdict? line.number
    (∀ citation, resolve document here line citation = resolved citation) ∧
    (∀ passed citation others failure, line.citations = passed ++ citation :: others →
      (∀ c ∈ passed, ∃ cited, resolved c = .ok cited) → resolved citation = .error failure →
      verdict? = some failure) ∧
    ∀ cited, List.Forall₂ (fun c x => resolved c = .ok x) line.citations cited →
      verdict? = some (match (line.step calculus statement.premises here cited).check with
        | .ok () => .valid
        | .error mismatch => .mismatch mismatch) := by
  intro here resolved verdict?
  have h := (Document.build_eq_ok_iff.mp hbuild).1
  have hline : line ∈ document.lines := by simp [hl]
  have hvisible : ∀ s, here.isVisible s = true ↔ s <:+ line.scope :=
    fun s => (Progress.mirrors_enter h hl).isVisible_iff
  have hresolve : ∀ citation, resolve document here line citation = resolved citation :=
    resolve_eq_resolveByDepth h hline hvisible
  have hverdict : verdict? = some (judge calculus statement.premises document here line) :=
    verdict?_verify h hl
  refine ⟨hresolve, ?_, fun cited hcited => ?_⟩
  · intro passed citation others failure hcitations hpassed hfails
    simp only [← hresolve] at hpassed hfails
    rw [hverdict, judge, hcitations, resolveAll_eq_error hpassed hfails]
  · have hall : resolveAll document here line line.citations = .ok cited := by
      rw [resolveAll_eq_ok_iff h hvisible]
      refine hcited.imp fun c x hx => ?_
      rw [← resolve_eq_ok_iff h hvisible, hresolve, hx]
    rw [hverdict, judge, hall]
    rfl

/-- Two subproofs at one depth, the first of which ends with a subproof of its own, cited together
with a line of the first. -/
def nestedEnd : Document Formula where
  lines :=
    [⟨⟨.atom "P" [], .assumption, [], 1⟩, 1, [1]⟩,
     ⟨⟨.atom "Q" [], .assumption, [], 2⟩, 2, [2, 1]⟩,
     ⟨⟨.atom "P" [], .reiteration, [.line 1], 2⟩, 3, [2, 1]⟩,
     ⟨⟨.atom "R" [], .assumption, [], 1⟩, 4, [4]⟩,
     ⟨⟨.atom "R" [], .reiteration, [.line 4], 1⟩, 5, [4]⟩,
     ⟨⟨.implies (.atom "P" []) (.atom "P" []), .impliesIntro,
       [.subproof 4 5, .subproof 1 3, .line 1], 0⟩, 6, []⟩]

/-- The second subproof resolves, the first ends nested and settles the verdict, although the
citation behind it fails as well. -/
theorem nestedEnd_resolves_by_depth :
    ∃ before line, nestedEnd.lines = before ++ [line] ∧
      let here := (Progress.after none before).enter line
      resolve nestedEnd here line (.subproof 4 5) = .ok (.subproof ⟨.atom "R" [], .atom "R" []⟩) ∧
      resolve nestedEnd here line (.line 1) = .error (.outOfScopeCitation (.line 1)) ∧
      (verify .propositional ⟨none, none⟩ nestedEnd).verdict? 6 =
        some (.mismatch (.subproofEndsNested (.subproof 1 3))) := by
  have hbuild : Document.build (nestedEnd.lines.map Line.toDraft) = .ok nestedEnd := by decide
  have hl : nestedEnd.lines = nestedEnd.lines.take 5 ++
      ⟨⟨.implies (.atom "P" []) (.atom "P" []), .impliesIntro,
        [.subproof 4 5, .subproof 1 3, .line 1], 0⟩, 6, []⟩ :: [] := rfl
  obtain ⟨hresolve, hverdict, -⟩ := verify_resolves_by_depth hbuild .propositional ⟨none, none⟩ hl
  refine ⟨_, _, hl, (hresolve (.subproof 4 5)).trans rfl, (hresolve (.line 1)).trans rfl, ?_⟩
  refine hverdict [.subproof 4 5] (.subproof 1 3) [.line 1] _ rfl (fun c hc => ?_) rfl
  obtain rfl := List.mem_singleton.mp hc
  exact ⟨_, rfl⟩

end NaturalDeduction
