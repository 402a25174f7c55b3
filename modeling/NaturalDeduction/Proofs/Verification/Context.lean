import Mathlib.Data.List.Induction
import Mathlib.Data.List.Infix
import NaturalDeduction.Proofs.Document.Layout
import NaturalDeduction.Verification.Verifier

/-!
# What the open scopes know

While the lines are read, the frames are a second account of where a line stands, beside the scopes
that laying out has recorded. This file proves that the two agree: when a line is judged, the frames
are the scope of the line and the scopes around it, and each of them fixes exactly the names that
occur free in the declared premises, in the premises read so far and in the assumptions in force.

## Why the names are exact

A frame copies the names of the frame around it at the moment it opens, and the names of later
premises are added to the root alone. That is enough, because a premise that counts stands at depth
0: by the time its names are added, entering it has closed every other frame.

## Main definitions

* `Progress.after`: how far the reading has come after some lines
* `FixedName`: a name that stands for a particular individual
* `Progress.Mirrors`: the frames agree with the scopes and fix exactly the right names

## Main results

* `Progress.mirrors_after`, `Progress.mirrors_enter`: the invariant, between lines and at a line
* `verdict?_verify`: the verdict on a line is the judgement at the progress made before it
-/

namespace NaturalDeduction

/-! ### Stacks of scopes -/

namespace Scope

theorem map_outermost {α β : Type} (f : α → β) (n : Nat) (stack : List α) :
    (outermost n stack).map f = outermost n (stack.map f) := by
  rw [outermost, outermost, List.map_drop, List.length_map]

theorem drop_tails {α : Type} :
    ∀ {k : Nat} {l : List α}, k ≤ l.length → l.tails.drop k = (l.drop k).tails
  | 0, _, _ => rfl
  | _ + 1, _ :: l, h => drop_tails (l := l) (by simpa using h)

/-- A stack of scopes, each the outer part of the one above it, is cut back with its
innermost one. -/
theorem outermost_tails (d : Nat) (scope : Scope) :
    outermost (d + 1) scope.tails = (outermost d scope).tails := by
  rw [outermost, List.length_tails, Nat.add_sub_add_right, drop_tails (Nat.sub_le _ _), outermost]

end Scope

/-! ### Progress -/

namespace Progress

/-- What a line leaves for the next one. -/
def advance (progress : Progress) (line : Line Formula) : Progress :=
  (progress.enter line).leave line

/-- How far the reading has come after some lines. -/
def after (premises : Option (List Formula)) (lines : List (Line Formula)) : Progress :=
  lines.foldl advance (.start premises)

@[simp] theorem after_concat (premises : Option (List Formula)) (lines : List (Line Formula))
    (line : Line Formula) : after premises (lines ++ [line]) =
      (after premises lines).advance line := by
  simp [after]

end Progress

/-- `n` occurs free in a declared premise, in a premise line outside every subproof among
`premiseLines`, or in the formula of a line among `lines` whose number is in `scope`. -/
def FixedName (premises : Option (List Formula)) (premiseLines lines : List (Line Formula))
    (scope : Scope) (n : Name) : Prop :=
  (∃ φ ∈ premises.getD [], n ∈ φ.freeNames) ∨
    (∃ line ∈ premiseLines, line.rule = .premise ∧ line.depth = 0 ∧ n ∈ line.formula.freeNames) ∨
    ∃ line ∈ lines, line.number ∈ scope ∧ n ∈ line.formula.freeNames

section FixedName

variable {premises : Option (List Formula)} {premiseLines lines : List (Line Formula)}
  {line : Line Formula} {scope : Scope} {n : Name}

theorem fixedName_concat_lines :
    FixedName premises premiseLines (lines ++ [line]) scope n ↔
      FixedName premises premiseLines lines scope n ∨
        (line.number ∈ scope ∧ n ∈ line.formula.freeNames) := by
  simp only [FixedName, List.mem_append, List.mem_singleton, or_and_right, exists_or,
    exists_eq_left, or_assoc]

theorem fixedName_concat_premiseLines :
    FixedName premises (premiseLines ++ [line]) lines scope n ↔
      FixedName premises premiseLines lines scope n ∨
        (line.rule = .premise ∧ line.depth = 0 ∧ n ∈ line.formula.freeNames) := by
  simp only [FixedName, List.mem_append, List.mem_singleton, or_and_right, exists_or,
    exists_eq_left, or_assoc]
  rw [or_comm (a := line.rule = .premise ∧ _)]

/-- A line that is not in the scope contributes no names to it. -/
theorem fixedName_concat_of_notMem (hline : line.number ∉ scope) :
    FixedName premises premiseLines (lines ++ [line]) scope n ↔
      FixedName premises premiseLines lines scope n := by
  rw [fixedName_concat_lines, or_iff_left fun h => hline h.1]

/-- Inside a subproof the names of its assumption are fixed, and those fixed around it. -/
theorem fixedName_cons (hlines : ∀ other ∈ lines, other.number ≠ line.number) :
    FixedName premises premiseLines (lines ++ [line]) (line.number :: scope) n ↔
      FixedName premises premiseLines lines scope n ∨ n ∈ line.formula.freeNames := by
  have hinner : FixedName premises premiseLines lines (line.number :: scope) n ↔
      FixedName premises premiseLines lines scope n := by
    refine or_congr_right
      (or_congr_right (exists_congr fun other => and_congr_right fun hother => ?_))
    rw [List.mem_cons, or_iff_right (hlines other hother)]
  rw [fixedName_concat_lines, hinner, and_iff_right List.mem_cons_self]

end FixedName

namespace Progress

/-- The frames are `scope` and the scopes around it, and they fix the names that they should: those
of the premises among `before`, and those of the assumptions among `lines`. -/
structure Mirrors (premises : Option (List Formula)) (before lines : List (Line Formula))
    (scope : Scope) (progress : Progress) : Prop where
  scopes : progress.frames.map (·.scope) = scope.tails
  names : ∀ frame ∈ progress.frames, ∀ n,
    n ∈ frame.names ↔ FixedName premises before lines frame.scope n
  afterDerivation : progress.afterDerivation = true ↔ ∃ line ∈ before, line.rule ≠ .premise

namespace Mirrors

variable {premises : Option (List Formula)} {before lines : List (Line Formula)} {scope : Scope}
  {progress : Progress}

/-- The open scopes are the scope of the line and those around it. -/
theorem isVisible_iff (h : progress.Mirrors premises before lines scope) {s : Scope} :
    progress.isVisible s = true ↔ s <:+ scope := by
  rw [← List.mem_tails, ← h.scopes]
  simp [isVisible]

/-- The names of the innermost frame are those fixed at the scope of the line. -/
theorem mem_contextNames_iff (h : progress.Mirrors premises before lines scope) {n : Name} :
    n ∈ progress.contextNames ↔ FixedName premises before lines scope n := by
  cases hframes : progress.frames with
  | nil =>
    have hscopes := h.scopes
    rw [hframes] at hscopes
    cases scope <;> simp at hscopes
  | cons frame outer =>
    have hscope : frame.scope = scope := by
      have hscopes := h.scopes
      rw [hframes] at hscopes
      cases scope <;> exact (List.cons.inj hscopes).1
    have hnames := h.names frame (by simp [hframes]) n
    rw [hscope] at hnames
    rw [← hnames, contextNames, hframes]

/-- Closing scopes keeps the agreement. -/
theorem outermost (h : progress.Mirrors premises before lines scope) (d : Nat) :
    ({ progress with frames := Scope.outermost (d + 1) progress.frames } : Progress).Mirrors
      premises
      before lines (Scope.outermost d scope) where
  scopes := by rw [Scope.map_outermost, h.scopes, Scope.outermost_tails]
  names frame hframe := h.names frame ((Scope.outermost_suffix _ _).mem hframe)
  afterDerivation := h.afterDerivation

/-- A line that is not in any of the scopes can be added to the lines read. -/
theorem concat (h : progress.Mirrors premises before lines scope) {line : Line Formula}
    (hline : line.number ∉ scope) :
    progress.Mirrors premises before (lines ++ [line]) scope where
  scopes := h.scopes
  names frame hframe n := by
    have hsuffix : frame.scope <:+ scope := by
      rw [← List.mem_tails, ← h.scopes]
      exact List.mem_map_of_mem hframe
    rw [h.names frame hframe n, fixedName_concat_of_notMem fun hmem => hline (hsuffix.mem hmem)]
  afterDerivation := h.afterDerivation

end Mirrors

variable {premises : Option (List Formula)} {before : List (Line Formula)} {line : Line Formula}

theorem mirrors_start (premises : Option (List Formula)) :
    (start premises).Mirrors premises [] [] .root where
  scopes := rfl
  names frame hframe n := by
    obtain rfl : frame = ⟨.root, (premises.getD []).flatMap Formula.freeNames⟩ := by
      simpa [start, startWith] using hframe
    simp [FixedName]
  afterDerivation := by simp [start, startWith]

/-- **Entering a line** opens the scope of an assumption with the names of the assumption, and
closes the scopes that the line does not lie in. -/
theorem Mirrors.enter {current : Scope} {progress : Progress}
    (h : progress.Mirrors premises before before current)
    (hplace : line.toDraft.place line.number current = .ok line.scope)
    (hbefore : ∀ other ∈ before, other.number < line.number)
    (hcurrent : ∀ f ∈ current, f < line.number) :
    (progress.enter line).Mirrors premises before (before ++ [line]) line.scope := by
  have hnot : line.number ∉ current := fun hmem => Nat.lt_irrefl _ (hcurrent _ hmem)
  rcases Draft.place_eq_ok_iff.mp hplace with ⟨hrule, d, hd, -, hscope⟩ | ⟨hrule, -, hscope⟩
  · have houter := h.outermost d
    have hnotOuter : line.number ∉ Scope.outermost d current :=
      fun hmem => hnot ((Scope.outermost_suffix _ _).mem hmem)
    have hall := houter.concat hnotOuter
    rw [Progress.enter, enterWith, if_pos hrule, hscope, hd]
    refine ⟨?_, ?_, h.afterDerivation⟩
    · rw [List.map_cons, houter.scopes]
      rfl
    · intro frame hframe n
      rcases List.mem_cons.mp hframe with rfl | hframe
      · -- the new frame: what holds around it, and the names of the assumption itself
        have hne : ∀ other ∈ before, other.number ≠ line.number :=
          fun other hother => Nat.ne_of_lt (hbefore other hother)
        rw [List.mem_append, houter.mem_contextNames_iff, fixedName_cons hne]
      · exact hall.names frame hframe n
  · have hinner := h.outermost line.depth
    have hnotInner : line.number ∉ Scope.outermost line.depth current :=
      fun hmem => hnot ((Scope.outermost_suffix _ _).mem hmem)
    rw [Progress.enter, enterWith, if_neg hrule, hscope]
    exact hinner.concat hnotInner

/-- **Leaving a line** adds the names of a premise outside every subproof, when only the
root is open. -/
theorem Mirrors.leave {progress : Progress}
    (h : progress.Mirrors premises before (before ++ [line]) line.scope)
    (hdepth : line.scope.length = line.depth) :
    (progress.leave line).Mirrors premises (before ++ [line]) (before ++ [line]) line.scope := by
  by_cases hrule : line.rule = .premise
  · by_cases hzero : line.depth = 0
    · have hroot : line.scope = [] := List.length_eq_zero_iff.mp (hdepth.trans hzero)
      obtain ⟨root, hframes, hscope⟩ : ∃ root, progress.frames = [root] ∧ root.scope = [] := by
        have hscopes := h.scopes
        rw [hroot] at hscopes
        simpa using hscopes
      have hnames := h.names root (by simp [hframes])
      rw [Progress.leave, leaveWith, if_pos hrule, if_pos hzero, hframes]
      refine ⟨by simp [addToRoot, hscope, hroot], ?_, ?_⟩
      · intro frame hframe n
        obtain rfl : frame = { root with names := root.names ++ line.formula.freeNames } := by
          simpa [addToRoot] using hframe
        rw [List.mem_append, hnames n, fixedName_concat_premiseLines, and_iff_right hrule,
          and_iff_right hzero]
      · rw [h.afterDerivation]
        simp [hrule]
    · rw [Progress.leave, leaveWith, if_pos hrule, if_neg hzero]
      refine ⟨h.scopes, fun frame hframe n => ?_, ?_⟩
      · rw [h.names frame hframe n, fixedName_concat_premiseLines, or_iff_left fun h => hzero h.2.1]
      · rw [h.afterDerivation]
        simp [hrule]
  · rw [Progress.leave, leaveWith, if_neg hrule]
    refine ⟨h.scopes, fun frame hframe n => ?_, ?_⟩
    · rw [h.names frame hframe n, fixedName_concat_premiseLines, or_iff_left fun h => hrule h.1]
    · simp [hrule]

/-- The step of the invariant: from the end of the lines before to the judgement on the next. -/
theorem mirrors_enter_of_after {lines rest : List (Line Formula)} (h : LaidOut 1 .root lines)
    (hl : lines = before ++ line :: rest)
    (hafter : (after premises before).Mirrors premises before before (scopeAfter .root before)) :
    ((after premises before).enter line).Mirrors premises before (before ++ [line]) line.scope := by
  obtain ⟨hnumber, hplace⟩ := h.place_of_eq hl
  have hbefore := (laidOut_append.mp (hl ▸ h)).1
  refine hafter.enter hplace ?_ ?_
  · exact fun other hother => hnumber ▸ hbefore.number_lt hother
  · exact hnumber ▸ hbefore.scopeAfter_lt (by simp)

/-- The invariant between two lines. -/
theorem mirrors_after (h : LaidOut 1 .root before) :
    (after premises before).Mirrors premises before before (scopeAfter .root before) := by
  induction before using List.reverseRecOn with
  | nil => exact mirrors_start premises
  | append_singleton before line ih =>
    have hbefore := (laidOut_append.mp h).1
    rw [after_concat, scopeAfter_concat, advance]
    exact (mirrors_enter_of_after h rfl (ih hbefore)).leave (h.length_scope (by simp))

/-- The invariant at a line that is judged. -/
theorem mirrors_enter {lines rest : List (Line Formula)} (h : LaidOut 1 .root lines)
    (hl : lines = before ++ line :: rest) :
    ((after premises before).enter line).Mirrors premises before (before ++ [line]) line.scope :=
  mirrors_enter_of_after h hl (mirrors_after (laidOut_append.mp (hl ▸ h)).1)

end Progress

/-! ### Verdicts -/

theorem Verdict.isValid_iff {verdict : Verdict} : verdict.isValid = true ↔ verdict = .valid := by
  cases verdict <;> simp [Verdict.isValid]

/-- The invalid lines are the lines with a verdict that is not `valid`. -/
theorem Verification.mem_invalidLines {verification : Verification} {n : Nat} {verdict : Verdict} :
    (n, verdict) ∈ verification.invalidLines ↔
      verification.verdict? n = some verdict ∧ verdict ≠ .valid := by
  have hmem : (n, verdict) ∈ verification.invalidLines ↔
      (verdict, n) ∈ verification.verdicts.zipIdx 1 ∧ verdict ≠ .valid := by
    simp [invalidLines, ← Verdict.isValid_iff]
  rw [hmem, List.mk_mem_zipIdx_iff_le_and_getElem?_sub]
  cases n <;> simp [verdict?]

section Verdicts

variable {calculus : Calculus} {premises : Option (List Formula)} {document : Document Formula}

theorem judgeLines_append (progress : Progress) (before others : List (Line Formula)) :
    judgeLines calculus premises document progress (before ++ others) =
      judgeLines calculus premises document progress before ++
        judgeLines calculus premises document (before.foldl Progress.advance progress) others := by
  induction before generalizing progress with
  | nil => rfl
  | cons line before ih => exact congrArg (_ :: ·) (ih (progress.advance line))

@[simp] theorem length_judgeLines (progress : Progress) (lines : List (Line Formula)) :
    (judgeLines calculus premises document progress lines).length = lines.length := by
  induction lines generalizing progress with
  | nil => rfl
  | cons line lines ih => exact congrArg (· + 1) (ih (progress.advance line))

/-- The verdict on a line is the judgement on it at the progress that the lines before
it have made. -/
theorem verdict?_verify {statement : Statement Formula} {before rest : List (Line Formula)}
    {line : Line Formula} (h : LaidOut 1 .root document.lines)
    (hl : document.lines = before ++ line :: rest) :
    (verify calculus statement document).verdict? line.number =
      some (judge calculus statement.premises document
        ((Progress.after statement.premises before).enter line) line) := by
  obtain ⟨hnumber, -⟩ := h.place_of_eq hl
  rw [hnumber, Nat.add_comm, Verification.verdict?, verify, hl, judgeLines_append,
    List.getElem?_append_right (by simp), length_judgeLines, Nat.sub_self]
  rfl

/-- Every line has a verdict. -/
theorem exists_verdict?_verify {statement : Statement Formula} (h : LaidOut 1 .root document.lines)
    {line : Line Formula} (hline : line ∈ document.lines) :
    ∃ verdict, (verify calculus statement document).verdict? line.number = some verdict := by
  obtain ⟨before, rest, hl⟩ := List.append_of_mem hline
  exact ⟨_, verdict?_verify h hl⟩

end Verdicts

end NaturalDeduction
