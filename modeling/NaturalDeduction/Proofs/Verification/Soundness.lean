import Mathlib.Data.Set.Operations
import NaturalDeduction.Proofs.Verification.Resolution
import NaturalDeduction.Proofs.Verification.StepSoundness

/-!
# Soundness of the verifier

What a line states follows from the premises and from the assumptions that are open at it, provided
that the line is valid and so are the lines that it rests on. The other lines may be as wrong as
they like: soundness is stated for any set of valid lines that contains what its members cite.

## Implementation notes

The proof is an induction on line numbers, since citations point backwards. The names that the
frames fix come from *all* lines in force, valid or not, and so include the names of the formulas
that count here. For the assumptions that is `LaidOut.le_number_of_mem_scope`; for the premises it
needs that valid premises stand before every other line of the set (`mem_before_of_premise`).

## Main definitions

* `Document.ClosedUnderCitation`: a set of lines contains the lines that its members cite
* `Document.premisesIn`, `Document.assumptionsAt`: what the formula of a line depends on

## Main results

* `verify_sound`: soundness, line by line
-/

universe u

namespace NaturalDeduction

/-! ### What a line depends on -/

/-- All lines that a citation names are in a set. -/
def Citation.Within (S : Set Nat) : Citation → Prop
  | .line n => n ∈ S
  | .subproof first last => first ∈ S ∧ last ∈ S

namespace Document

/-- The lines with a number in `S` cite lines of `S` only. -/
def ClosedUnderCitation (document : Document Formula) (S : Set Nat) : Prop :=
  ∀ line ∈ document.lines, line.number ∈ S → ∀ citation ∈ line.citations, citation.Within S

/-- The formulas of the premises in `S`. -/
def premisesIn (document : Document Formula) (S : Set Nat) : Set Formula :=
  {φ | ∃ line ∈ document.lines, line.number ∈ S ∧ line.rule = .premise ∧ line.formula = φ}

/-- The formulas of the assumptions that are open in a scope. -/
def assumptionsAt (document : Document Formula) (scope : Scope) : Set Formula :=
  {φ | ∃ line ∈ document.lines, line.rule = .assumption ∧ line.number ∈ scope ∧ line.formula = φ}

/-- All lines of `S` are valid. -/
def ValidOn (calculus : Calculus) (statement : Statement Formula) (document : Document Formula)
    (S : Set Nat) : Prop :=
  ∀ line ∈ document.lines, line.number ∈ S →
    (verify calculus statement document).verdict? line.number = some .valid

variable {document : Document Formula} {S : Set Nat}

theorem assumptionsAt_mono {outer scope : Scope} (h : outer <:+ scope) :
    document.assumptionsAt outer ⊆ document.assumptionsAt scope :=
  fun _ ⟨line, hline, hrule, hmem, hφ⟩ => ⟨line, hline, hrule, h.mem hmem, hφ⟩

/-- Inside a subproof its assumption is in force, and whatever is in force around it. -/
theorem assumptionsAt_cons (h : LaidOut 1 .root document.lines) {opening : Line Formula}
    (hopening : opening ∈ document.lines) (outer : Scope) :
    document.assumptionsAt (opening.number :: outer) ⊆
      insert opening.formula (document.assumptionsAt outer) := by
  rintro _ ⟨line, hline, hrule, hmem, rfl⟩
  rcases List.mem_cons.mp hmem with hnumber | hmem
  · rw [h.eq_of_number_eq hline hopening hnumber]
    exact .inl rfl
  · exact .inr ⟨line, hline, hrule, hmem, rfl⟩

/-! ### Valid lines -/

section Valid

variable {calculus : Calculus} {statement : Statement Formula} {before rest : List (Line Formula)}
  {line : Line Formula}

/-- A valid line cites something that its rule accepts. -/
theorem exists_check_of_valid (h : LaidOut 1 .root document.lines)
    (hl : document.lines = before ++ line :: rest)
    (hvalid : (verify calculus statement document).verdict? line.number = some .valid) :
    ∃ cited, List.Forall₂ (Refers document.lines line.number line.scope) line.citations cited ∧
      (line.step calculus statement.premises
        ((Progress.after statement.premises before).enter line) cited).check = .ok () := by
  rw [verdict?_verify h hl, Option.some_inj] at hvalid
  exact (judge_eq_valid_iff h fun s => (Progress.mirrors_enter h hl).isVisible_iff).mp hvalid

/-- A valid premise stands outside every subproof and behind premises only, and has been declared if
any premises have. -/
theorem valid_premise (h : LaidOut 1 .root document.lines)
    (hl : document.lines = before ++ line :: rest)
    (hvalid : (verify calculus statement document).verdict? line.number = some .valid)
    (hrule : line.rule = .premise) :
    line.depth = 0 ∧ (∀ other ∈ before, other.rule = .premise) ∧
      ∀ premises ∈ statement.premises, line.formula ∈ premises := by
  obtain ⟨cited, -, hcheck⟩ := exists_check_of_valid h hl hvalid
  have hpremise : (line.step calculus statement.premises
      ((Progress.after statement.premises before).enter line) cited).checkPremise = .ok () := by
    rw [Step.check, Line.step, hrule] at hcheck
    exact hcheck
  obtain ⟨-, -, hdepth, hafter, hdeclared⟩ := Step.checkPremise_eq_ok_iff.mp hpremise
  refine ⟨hdepth, fun other hother => ?_, hdeclared⟩
  by_contra hne
  exact Bool.eq_false_iff.mp hafter
    ((Progress.mirrors_enter h hl).afterDerivation.mpr ⟨other, hother, hne⟩)

/-- A valid premise stands before any line that is none. -/
theorem mem_before_of_premise (h : LaidOut 1 .root document.lines)
    (hl : document.lines = before ++ line :: rest) (hne : line.rule ≠ .premise)
    {premise : Line Formula} (hmem : premise ∈ document.lines) (hrule : premise.rule = .premise)
    (hvalid : (verify calculus statement document).verdict? premise.number = some .valid) :
    premise ∈ before ∧ premise.depth = 0 := by
  obtain ⟨before', rest', hl'⟩ := List.append_of_mem hmem
  obtain ⟨hdepth, hbefore', -⟩ := valid_premise h hl' hvalid hrule
  have hline : line ∈ document.lines := by simp [hl]
  refine ⟨(h.mem_before_iff hl hmem).mpr ?_, hdepth⟩
  rcases Nat.lt_trichotomy premise.number line.number with hlt | heq | hgt
  · exact hlt
  · rw [h.eq_of_number_eq hmem hline heq] at hrule
    exact absurd hrule hne
  · exact absurd (hbefore' line ((h.mem_before_iff hl' hline).mpr hgt)) hne

end Valid

/-! ### Soundness -/

section Soundness

variable {calculus : Calculus} {statement : Statement Formula} {before rest : List (Line Formula)}
  {line : Line Formula}

/-- The frames fix the free names of everything that the formula of a line depends on. -/
theorem mem_contextNames (h : LaidOut 1 .root document.lines)
    (hvalid : ValidOn calculus statement document S) (hl : document.lines = before ++ line :: rest)
    (hne : line.rule ≠ .premise) {γ : Formula}
    (hγ : γ ∈ document.premisesIn S ∪ document.assumptionsAt line.scope) {n : Name}
    (hn : n ∈ γ.freeNames) :
    n ∈ ((Progress.after statement.premises before).enter line).contextNames := by
  rw [(Progress.mirrors_enter h hl).mem_contextNames_iff]
  rcases hγ with ⟨premise, hmem, hS, hrule, rfl⟩ | ⟨opening, hmem, -, hscope, rfl⟩
  · obtain ⟨hbefore, hdepth⟩ := mem_before_of_premise h hl hne hmem hrule (hvalid _ hmem hS)
    exact .inr (.inl ⟨premise, hbefore, hrule, hdepth, hn⟩)
  · have hline : line ∈ document.lines := by simp [hl]
    have hle := h.le_number_of_mem_scope hline hscope
    refine .inr (.inr ⟨opening, ?_, hscope, hn⟩)
    rcases Nat.lt_or_eq_of_le hle with hlt | heq
    · exact List.mem_append_left _ ((h.mem_before_iff hl hmem).mpr hlt)
    · rw [h.eq_of_number_eq hmem hline heq]
      exact List.mem_append_right _ List.mem_cons_self

/-- What a citation refers to is true wherever the premises and the open assumptions are, if the
lines before the citing line are sound. -/
theorem holds_of_refers (h : LaidOut 1 .root document.lines) {D : Type u} {M : Structure D}
    {v : Name → D}
    (ih : ∀ other ∈ document.lines, other.number < line.number → other.number ∈ S →
      Entails.{u} (document.premisesIn S ∪ document.assumptionsAt other.scope) other.formula)
    {citation : Citation} {cited : Cited Formula} (hwithin : citation.Within S)
    (hrefers : Refers document.lines line.number line.scope citation cited)
    (hv : ∀ γ ∈ document.premisesIn S ∪ document.assumptionsAt line.scope, γ.Holds M v) :
    cited.Holds M v := by
  cases hrefers with
  | @line l hl hlt hscope =>
    exact ih l hl hlt hwithin D M v fun γ hγ => hv γ (hγ.imp_right (assumptionsAt_mono hscope ·))
  | @subproof opening closing outer hopening hclosing hrule hscope houter hlevel hlt hlast =>
    intro hassumed
    refine ih closing hclosing hlt hwithin.2 D M v fun γ hγ => ?_
    rw [hlevel, hscope] at hγ
    rcases hγ with hγ | hγ
    · exact hv γ (.inl hγ)
    · rcases assumptionsAt_cons h hopening outer hγ with rfl | hγ
      · exact hassumed
      · exact hv γ (.inr (assumptionsAt_mono houter hγ))

/-- **Soundness of laid out lines.** -/
theorem entails_of_validOn (h : LaidOut 1 .root document.lines)
    (hclosed : document.ClosedUnderCitation S) (hvalid : ValidOn calculus statement document S)
    (hline : line ∈ document.lines) (hS : line.number ∈ S) :
    Entails.{u} (document.premisesIn S ∪ document.assumptionsAt line.scope) line.formula := by
  -- citations point backwards, so the induction is on the number of the line
  induction hn : line.number using Nat.strong_induction_on generalizing line with
  | _ n ih =>
    subst hn
    intro D M v hv
    by_cases hpremise : line.rule = .premise
    · exact hv _ (.inl ⟨line, hline, hS, hpremise, rfl⟩)
    by_cases hassumption : line.rule = .assumption
    · obtain ⟨outer, hscope⟩ := h.exists_scope_eq_cons hline hassumption
      exact hv _ (.inr ⟨line, hline, hassumption, by simp [hscope], rfl⟩)
    obtain ⟨before, rest, hl⟩ := List.append_of_mem hline
    obtain ⟨cited, hcited, hcheck⟩ := exists_check_of_valid h hl (hvalid line hline hS)
    refine Step.sound hcheck hpremise hassumption fun w hagree x hx => ?_
    obtain ⟨citation, hcitation, hrefers⟩ := exists_refers_of_mem hcited hx
    refine holds_of_refers h (fun other hother hlt hS => ih _ hlt hother hS rfl)
      (hclosed line hline hS citation hcitation) hrefers fun γ hγ => ?_
    have hcontext : ∀ n ∈ γ.freeNames, w n = v n := fun n hn =>
      hagree n (mem_contextNames h hvalid hl hpremise hγ hn)
    exact (Formula.holds_congr hcontext).mpr (hv γ hγ)

end Soundness

end Document

/-- **Soundness of the verifier, line by line.** Take a set of lines that contains what its members
cite, all of them valid. What any of them states is true in every structure and under every
valuation that satisfies the premises among them and the assumptions open at that line. -/
theorem verify_sound {drafts : List (Draft Formula)} {document : Document Formula}
    (hbuild : Document.build drafts = .ok document) (calculus : Calculus)
    (statement : Statement Formula) {S : Set Nat} (hclosed : document.ClosedUnderCitation S)
    (hvalid : document.ValidOn calculus statement S) {line : Line Formula}
    (hline : line ∈ document.lines) (hS : line.number ∈ S) :
    Entails.{u} (document.premisesIn S ∪ document.assumptionsAt line.scope) line.formula :=
  Document.entails_of_validOn (Document.build_eq_ok_iff.mp hbuild).1 hclosed hvalid hline hS

open Formula in
/-- A proof that renames a bound variable under an existential, with one wrong line. -/
def renamedBound : Document Formula where
  lines :=
    [⟨⟨forSome "x" (atom "P" ["x"]), .premise, [], 0⟩, 1, []⟩,
     ⟨⟨atom "P" ["c"], .assumption, [], 1⟩, 2, [2]⟩,
     ⟨⟨forSome "y" (atom "P" ["y"]), .forSomeIntro, [.line 2], 1⟩, 3, [2]⟩,
     ⟨⟨bottom, .contradictionElim, [.line 3], 1⟩, 4, [2]⟩,
     ⟨⟨forSome "y" (atom "P" ["y"]), .reiteration, [.line 3], 1⟩, 5, [2]⟩,
     ⟨⟨forSome "y" (atom "P" ["y"]), .forSomeElim, [.line 1, .subproof 2 5], 0⟩, 6, []⟩]

/-- The wrong line does not keep the last line of `renamedBound` from following from its premise. -/
theorem renamedBound_sound :
    Entails.{0} (renamedBound.premisesIn {n | n ≠ 4} ∪ renamedBound.assumptionsAt .root)
      (.forSome "y" (.atom "P" ["y"])) := by
  have hbuild : Document.build (renamedBound.lines.map Line.toDraft) = .ok renamedBound := by decide
  have hclosed : renamedBound.ClosedUnderCitation {n | n ≠ 4} := by
    simp [Document.ClosedUnderCitation, renamedBound, Citation.Within]
  have hvalid : renamedBound.ValidOn .predicate ⟨none, none⟩ {n | n ≠ 4} := by
    show ∀ line ∈ renamedBound.lines, line.number ≠ 4 → _
    decide
  have hline :
      ⟨⟨.forSome "y" (.atom "P" ["y"]), .forSomeElim, [.line 1, .subproof 2 5], 0⟩, 6, []⟩ ∈
      renamedBound.lines := by decide
  exact verify_sound hbuild .predicate ⟨none, none⟩ hclosed hvalid hline (show 6 ≠ 4 by decide)

end NaturalDeduction
