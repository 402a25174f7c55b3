import NaturalDeduction.Proofs.Document.Scopes
import NaturalDeduction.Proofs.Verification.Context

/-!
# The stack of frames and the tree of scopes

A document and the verifier keep a stack each: laying out keeps the scope of the last line, the
verifier keeps frames. Both are cut back and extended by the depths of the lines, but each by a rule
of its own. That they stay in step is the invariant `Progress.Mirrors`. Here it is read in terms of
lines and scopes.

What is cut off a stack of frames is never more than there is, so cutting always leaves as many
frames as it is meant to leave (`Progress.le_length_frames`).

## Main results

* `Progress.le_length_frames`: a line keeps no more frames than there are
* `fixedName_iff`: the names of a frame come from premises and from the assumptions around it
* `enter_frames_exact`: the frames at a line
-/

namespace NaturalDeduction

variable {premises : Option (List Formula)} {lines before rest : List (Line Formula)}
  {line : Line Formula}

/-- Between two lines there is a frame for the root and for each assumption in force. -/
theorem Progress.length_frames_after (premises : Option (List Formula))
    (h : LaidOut 1 .root before) :
    (after premises before).frames.length = (scopeAfter .root before).length + 1 := by
  rw [← List.length_map (·.scope), (mirrors_after h).scopes, List.length_tails]

/-- Where a line can be placed, there are enough frames to keep: the frames around the subproof for
an assumption, and those of its own scope for any other line. -/
theorem Progress.le_length_frames (premises : Option (List Formula)) (h : LaidOut 1 .root lines)
    (hl : lines = before ++ line :: rest) :
    (line.rule = .assumption → line.depth ≤ (after premises before).frames.length) ∧
      (line.rule ≠ .assumption → line.depth + 1 ≤ (after premises before).frames.length) := by
  rw [length_frames_after premises (laidOut_append.mp (hl ▸ h)).1]
  rcases Draft.place_eq_ok_iff.mp (h.place_of_eq hl).2 with ⟨hrule, d, hd, hle, -⟩ | ⟨hrule, hle, -⟩
  · exact ⟨fun _ => by omega, fun hne => absurd hrule hne⟩
  · exact ⟨fun heq => absurd heq hrule, fun _ => by omega⟩

/-- The lines whose numbers are in a scope around a line are the assumptions around it, all of which
have been read when the line is judged. -/
theorem mem_read_and_mem_scope_iff (h : LaidOut 1 .root lines) (hl : lines = before ++ line :: rest)
    {scope : Scope} (hscope : scope <:+ line.scope) {opening : Line Formula} :
    opening ∈ before ++ [line] ∧ opening.number ∈ scope ↔
      opening ∈ lines ∧ opening.rule = .assumption ∧ opening.scope ∈ scope.chain := by
  have hline : line ∈ lines := by simp [hl]
  rw [Scope.mem_chain_iff]
  constructor
  · rintro ⟨hread, hmem⟩
    have hprefix : before ++ [line] <+: lines := ⟨rest, by simp [hl]⟩
    have hopening : opening ∈ lines := hprefix.mem hread
    exact ⟨hopening, (h.number_mem_iff hline hscope hopening).mp hmem⟩
  · rintro ⟨hopening, hassumption⟩
    have hmem := (h.number_mem_iff hline hscope hopening).mpr hassumption
    refine ⟨?_, hmem⟩
    rcases Nat.lt_or_eq_of_le (h.le_number_of_mem_scope hline (hscope.mem hmem)) with hlt | heq
    · exact List.mem_append_left _ ((h.mem_before_iff hl hopening).mpr hlt)
    · rw [h.eq_of_number_eq hopening hline heq]
      exact List.mem_append_right _ List.mem_cons_self

/-- A name is fixed in a scope by the declared premises, by the premises read, and by the
assumptions of the scope and of those around it. -/
theorem fixedName_iff (h : LaidOut 1 .root lines) (hl : lines = before ++ line :: rest)
    {scope : Scope} (hscope : scope <:+ line.scope) {n : Name} :
    FixedName premises before (before ++ [line]) scope n ↔
      (∃ φ ∈ premises.getD [], n ∈ φ.freeNames) ∨
      (∃ premise ∈ before, premise.rule = .premise ∧ premise.depth = 0 ∧
        n ∈ premise.formula.freeNames) ∨
      ∃ opening ∈ lines, opening.rule = .assumption ∧ opening.scope ∈ scope.chain ∧
        n ∈ opening.formula.freeNames := by
  refine or_congr_right (or_congr_right (exists_congr fun opening => ?_))
  rw [← and_assoc, mem_read_and_mem_scope_iff h hl hscope, and_assoc, and_assoc]

/-- **The frames at a line.** The verifier judges a line at the progress that the lines before it
have made. On entering the line it keeps no more frames than there are. Then the frames are the
scope of the line and the scopes around it, one more than its depth, and each fixes exactly the
names free in the declared premises, in the premises outside every subproof before the line, and in
the assumptions of the scope and of those around it. -/
theorem enter_frames_exact {drafts : List (Draft Formula)} {document : Document Formula}
    (hbuild : Document.build drafts = .ok document) (premises : Option (List Formula))
    (hl : document.lines = before ++ line :: rest) :
    let earlier := Progress.after premises before
    let here := earlier.enter line
    (∀ calculus goal, (verify calculus ⟨premises, goal⟩ document).verdicts =
      judgeLines calculus premises document (.start premises) before ++
        judge calculus premises document here line ::
          judgeLines calculus premises document (here.leave line) rest) ∧
    (line.rule = .assumption → line.depth ≤ earlier.frames.length) ∧
    (line.rule ≠ .assumption → line.depth + 1 ≤ earlier.frames.length) ∧
    here.frames.map (·.scope) = line.scope.chain ∧ here.frames.length = line.depth + 1 ∧
    ∀ frame ∈ here.frames, ∀ n, n ∈ frame.names ↔
      (∃ φ ∈ premises.getD [], n ∈ φ.freeNames) ∨
      (∃ premise ∈ before, premise.rule = .premise ∧ premise.depth = 0 ∧
        n ∈ premise.formula.freeNames) ∨
      ∃ opening ∈ document.lines, opening.rule = .assumption ∧ opening.scope ∈ frame.scope.chain ∧
        n ∈ opening.formula.freeNames := by
  intro earlier here
  have h := (Document.build_eq_ok_iff.mp hbuild).1
  have hmirrors : here.Mirrors premises before (before ++ [line]) line.scope :=
    Progress.mirrors_enter h hl
  have hscopes : here.frames.map (·.scope) = line.scope.chain := by
    rw [hmirrors.scopes, Scope.chain_eq_tails]
  obtain ⟨hassumption, hother⟩ := Progress.le_length_frames premises h hl
  refine ⟨fun calculus goal => ?_, hassumption, hother, hscopes, ?_, ?_⟩
  · rw [verify, hl, judgeLines_append]
    rfl
  · rw [← List.length_map (·.scope), hscopes, Scope.length_chain, h.length_scope (by simp [hl])]
  · intro frame hframe n
    have hsuffix : frame.scope <:+ line.scope := by
      rw [← Scope.mem_chain_iff, ← hscopes]
      exact List.mem_map_of_mem hframe
    rw [hmirrors.names frame hframe n, fixedName_iff h hl hsuffix]

/-- Nested subproofs, a premise behind them, and a subproof that opens after it. -/
def latePremise : Document Formula where
  lines :=
    [⟨⟨.atom "P" ["a"], .assumption, [], 1⟩, 1, [1]⟩,
     ⟨⟨.atom "P" ["b"], .assumption, [], 2⟩, 2, [2, 1]⟩,
     ⟨⟨.atom "P" ["c"], .premise, [], 0⟩, 3, []⟩,
     ⟨⟨.atom "P" ["d"], .assumption, [], 1⟩, 4, [4]⟩]

/-- At the last line the name of the premise is fixed in both frames, although the premise came
late, and the names of the closed subproofs are fixed in neither. -/
theorem latePremise_frames_exact :
    ∃ before line, latePremise.lines = before ++ [line] ∧ line.number = 4 ∧
      line.depth ≤ (Progress.after none before).frames.length ∧
      let here := (Progress.after none before).enter line
      here.frames.map (·.scope) = [[4], []] ∧
      ∀ frame ∈ here.frames, "c" ∈ frame.names ∧ "a" ∉ frame.names ∧ "b" ∉ frame.names := by
  have hbuild : Document.build (latePremise.lines.map Line.toDraft) = .ok latePremise := by decide
  have hl : latePremise.lines = latePremise.lines.take 3 ++
      ⟨⟨.atom "P" ["d"], .assumption, [], 1⟩, 4, [4]⟩ :: [] := rfl
  obtain ⟨-, hkeeps, -, hscopes, -, hnames⟩ := enter_frames_exact hbuild none hl
  refine ⟨_, _, hl, rfl, hkeeps rfl, hscopes, fun frame hframe => ⟨?_, ?_, ?_⟩⟩
  · exact (hnames frame hframe "c").mpr
      (.inr (.inl ⟨⟨⟨.atom "P" ["c"], .premise, [], 0⟩, 3, []⟩, by decide, rfl, rfl, by decide⟩))
  · revert frame
    decide
  · revert frame
    decide

end NaturalDeduction
