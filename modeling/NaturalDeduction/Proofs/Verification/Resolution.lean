import Mathlib.Data.List.Forall2
import NaturalDeduction.Proofs.Verification.Context

/-!
# What a citation refers to

`resolve` looks a citation up in the finished document and then asks the frames whether it may be
seen. `Refers` says the same about lines, numbers and scopes alone. In this form it is plain that
the lines behind a line do not matter to it, although where a subproof ends is only known at the
end of the document: a citation succeeds only if the subproof was closed before, and what is
closed stays closed.

## Main definitions

* `Refers`: what a citation stands for at a place of a proof

## Main results

* `resolve_eq_ok_iff`, `judge_eq_valid_iff`: resolution and validity in terms of `Refers`
* `refers_append_iff`, `judge_append_eq_valid_iff`: lines behind a line do not matter to it
-/

namespace NaturalDeduction

/-- What a citation stands for in the line with a given number and scope. A line is cited for
its formula, a subproof for its assumption and for its last line, which has to be a line of
its own level. -/
inductive Refers (lines : List (Line Formula)) (number : Nat) (scope : Scope) :
    Citation → Cited Formula → Prop
  | line {l : Line Formula} (hl : l ∈ lines) (hlt : l.number < number)
      (hscope : l.scope <:+ scope) :
    Refers lines number scope (.line l.number) (.line ⟨.line l.number, l.formula⟩)
  | subproof {opening closing : Line Formula} {outer : Scope} (hopening : opening ∈ lines)
    (hclosing : closing ∈ lines) (hrule : opening.rule = .assumption)
    (hscope : opening.scope = opening.number :: outer) (houter : outer <:+ scope)
    (hlevel : closing.scope = opening.scope) (hlt : closing.number < number)
    (hlast : ∀ l ∈ lines, closing.number < l.number → opening.number ∉ l.scope) :
    Refers lines number scope (.subproof opening.number closing.number)
      (.subproof ⟨opening.formula, closing.formula⟩)

/-! ### Resolution -/

section Resolve

variable {document : Document Formula} {progress : Progress} {line : Line Formula}

/-- No citation fails with the verdict that the line is valid. -/
theorem resolve_ne_valid {citation : Citation} :
    resolve document progress line citation ≠ .error .valid := by
  cases citation <;> simp only [resolve] <;> repeat' split
  all_goals simp

theorem resolveAll_ne_valid {citations : List Citation} :
    resolveAll document progress line citations ≠ .error .valid := by
  induction citations with
  | nil => simp [resolveAll]
  | cons citation citations ih =>
    rw [resolveAll]
    cases hfirst : resolve document progress line citation with
    | error verdict =>
      rintro ⟨rfl⟩
      exact resolve_ne_valid hfirst
    | ok cited =>
      cases hrest : resolveAll document progress line citations with
      | error verdict => exact fun he => ih (hrest.trans he)
      | ok rest => simp

/-- Resolution asks the progress only which scopes are open. -/
theorem resolve_congr_of_isVisible {progress' : Progress}
    (h : ∀ s, progress'.isVisible s = progress.isVisible s) (citation : Citation) :
    resolve document progress' line citation = resolve document progress line citation := by
  have hvisible : progress'.isVisible = progress.isVisible := funext h
  cases citation with
  | line n => simp only [resolve, hvisible]
  | subproof first last => simp only [resolve, hvisible]

/-- Citations that are resolved alike one by one are resolved alike in order. -/
theorem resolveAll_congr {document' : Document Formula} {progress' : Progress}
    {line' : Line Formula} {citations : List Citation}
    (h : ∀ c ∈ citations, resolve document' progress' line' c = resolve document progress line c) :
    resolveAll document' progress' line' citations =
      resolveAll document progress line citations := by
  induction citations with
  | nil => rfl
  | cons citation others ih =>
    rw [List.forall_mem_cons] at h
    rw [resolveAll, resolveAll, h.1, ih h.2]

/-- Resolution succeeds exactly where a citation refers to something, and yields that. -/
theorem resolve_eq_ok_iff (h : LaidOut 1 .root document.lines)
    (hvisible : ∀ s, progress.isVisible s = true ↔ s <:+ line.scope) {citation : Citation}
    {cited : Cited Formula} :
    resolve document progress line citation = .ok cited ↔
      Refers document.lines line.number line.scope citation cited := by
  constructor
  · intro hok
    cases citation with
    | line n =>
      simp only [resolve] at hok
      split at hok
      · cases hok
      · next l hl =>
        obtain ⟨hmem, rfl⟩ := (Document.line?_eq_some_iff h).mp hl
        split at hok
        · cases hok
        · next hcond =>
          obtain rfl := Except.ok.inj hok
          simp only [Bool.not_eq_true', not_or, Nat.not_le, Bool.not_eq_false] at hcond
          exact .line hmem hcond.1 ((hvisible _).mp hcond.2)
    | subproof first last =>
      simp only [resolve] at hok
      split at hok
      · next scope opening closing hscope hopening hclosing =>
        obtain ⟨hopen, rfl⟩ := (Document.line?_eq_some_iff h).mp hopening
        obtain ⟨hclose, rfl⟩ := (Document.line?_eq_some_iff h).mp hclosing
        obtain ⟨other, hother, hnumber, hrule, rfl, hlast⟩ :=
          (Document.subproof?_eq_some_iff h).mp hscope
        obtain rfl := h.eq_of_number_eq hother hopen hnumber
        obtain ⟨outer, houter⟩ := h.exists_scope_eq_cons hother hrule
        obtain ⟨-, -, -, -, hend⟩ := (Document.lastIn?_eq_some_iff h).mp hlast
        split at hok
        · cases hok
        · next hcond =>
          split at hok
          · cases hok
          · next hlevel =>
            obtain rfl := Except.ok.inj hok
            simp only [houter, Scope.parent?, Option.any_some, Bool.not_eq_true',
              not_or, Nat.not_le, Bool.not_eq_false] at hcond
            exact .subproof hother hclose hrule houter ((hvisible _).mp hcond.2)
              (not_not.mp hlevel) hcond.1 hend
      · cases hok
  · intro hrefers
    cases hrefers with
    | @line l hl hlt hscope =>
      have hfound := (Document.line?_eq_some_iff h).mpr ⟨hl, rfl⟩
      simp [resolve, hfound, Nat.not_le.mpr hlt, (hvisible _).mpr hscope]
    | @subproof opening closing outer hopening hclosing hrule hscope houter hlevel hlt hlast =>
      have hlastIn : document.lastIn? opening.number = some closing.number :=
        (Document.lastIn?_eq_some_iff h).mpr
          ⟨closing, hclosing, rfl, by simp [hlevel, hscope], hlast⟩
      have hfound := (Document.subproof?_eq_some_iff h).mpr
        ⟨opening, hopening, rfl, hrule, rfl, hlastIn⟩
      have hfirst := (Document.line?_eq_some_iff h).mpr ⟨hopening, rfl⟩
      have hsecond := (Document.line?_eq_some_iff h).mpr ⟨hclosing, rfl⟩
      simp [resolve, hfound, hfirst, hsecond, Nat.not_le.mpr hlt, hlevel, hscope, Scope.parent?,
        (hvisible _).mpr houter]

theorem resolveAll_eq_ok_iff (h : LaidOut 1 .root document.lines)
    (hvisible : ∀ s, progress.isVisible s = true ↔ s <:+ line.scope) {citations : List Citation}
    {cited : List (Cited Formula)} :
    resolveAll document progress line citations = .ok cited ↔
      List.Forall₂ (Refers document.lines line.number line.scope) citations cited := by
  induction citations generalizing cited with
  | nil => simp [resolveAll, eq_comm]
  | cons citation citations ih =>
    rw [List.forall₂_cons_left_iff]
    simp only [← resolve_eq_ok_iff h hvisible, ← ih, resolveAll]
    cases resolve document progress line citation with
    | error => simp
    | ok first =>
      cases resolveAll document progress line citations with
      | error => simp
      | ok rest => simp [eq_comm]

/-- Everything that a line cites is referred to by one of its citations. -/
theorem exists_refers_of_mem {lines : List (Line Formula)} {number : Nat} {scope : Scope}
    {citations : List Citation} {cited : List (Cited Formula)}
    (h : List.Forall₂ (Refers lines number scope) citations cited) {x : Cited Formula}
    (hx : x ∈ cited) :
    ∃ citation ∈ citations, Refers lines number scope citation x := by
  induction h with
  | nil => simp at hx
  | @cons citation first citations others hfirst _ ih =>
    rcases List.mem_cons.mp hx with rfl | hx
    · exact ⟨citation, List.mem_cons_self, hfirst⟩
    · obtain ⟨other, hother, hrefers⟩ := ih hx
      exact ⟨other, List.mem_cons_of_mem _ hother, hrefers⟩

end Resolve

/-! ### Validity -/

/-- The step that a line is judged by, once it is known what it cites. -/
def Line.step {α : Type} (calculus : Calculus) (premises : Option (List α)) (progress : Progress)
    (line : Line α) (cited : List (Cited α)) : Step α :=
  { rule := line.rule
    conclusion := line.formula
    cited
    depth := line.depth
    contextNames := progress.contextNames
    premises
    afterDerivation := progress.afterDerivation
    quantifiers := calculus.hasQuantifiers }

section Judge

variable {calculus : Calculus} {premises : Option (List Formula)} {document : Document Formula}
  {progress : Progress} {line : Line Formula}

/-- A line is valid exactly if its citations refer to something and its rule
justifies it by that. -/
theorem judge_eq_valid_iff (h : LaidOut 1 .root document.lines)
    (hvisible : ∀ s, progress.isVisible s = true ↔ s <:+ line.scope) :
    judge calculus premises document progress line = .valid ↔
      ∃ cited, List.Forall₂ (Refers document.lines line.number line.scope) line.citations cited ∧
        (line.step calculus premises progress cited).check = .ok () := by
  simp only [← resolveAll_eq_ok_iff h hvisible, judge]
  cases hall : resolveAll document progress line line.citations with
  | error verdict =>
    simp only [reduceCtorEq, false_and, exists_false, iff_false]
    rintro rfl
    exact resolveAll_ne_valid hall
  | ok cited =>
    simp only [Except.ok.injEq, exists_eq_left', Line.step]
    cases Step.check _ <;> simp

end Judge

/-! ### Later lines do not matter -/

section Append

variable {lines others : List (Line Formula)} {line : Line Formula}

/-- What a line cites is settled by the lines up to it. -/
theorem refers_append_iff (h : LaidOut 1 .root (lines ++ others)) (hline : line ∈ lines)
    {citation : Citation} {cited : Cited Formula} :
    Refers (lines ++ others) line.number line.scope citation cited ↔
      Refers lines line.number line.scope citation cited := by
  have hmem {l : Line Formula} (hl : l ∈ lines ++ others) (hlt : l.number < line.number) :
      l ∈ lines := by
    obtain ⟨hlines, hothers⟩ := laidOut_append.mp h
    have := hlines.number_lt hline
    refine (List.mem_append.mp hl).resolve_right fun hl => ?_
    have := hothers.number_le hl
    omega
  constructor
  · intro hrefers
    cases hrefers with
    | line hl hlt hscope => exact .line (hmem hl hlt) hlt hscope
    | @subproof opening closing outer hopening hclosing hrule hscope houter hlevel hlt hlast =>
      have hopen : opening.number ∈ closing.scope := by
        rw [hlevel, hscope]
        exact List.mem_cons_self
      have hle := h.le_number_of_mem_scope hclosing hopen
      exact .subproof (hmem hopening (Nat.lt_of_le_of_lt hle hlt)) (hmem hclosing hlt) hrule hscope
        houter hlevel hlt fun l hl => hlast l (List.mem_append_left _ hl)
  · intro hrefers
    cases hrefers with
    | line hl hlt hscope => exact .line (List.mem_append_left _ hl) hlt hscope
    | @subproof opening closing outer hopening hclosing hrule hscope houter hlevel hlt hlast =>
      have hopen : opening.number ∈ closing.scope := by
        rw [hlevel, hscope]
        exact List.mem_cons_self
      have hle := (laidOut_append.mp h).1.le_number_of_mem_scope hclosing hopen
      refine .subproof (List.mem_append_left _ hopening) (List.mem_append_left _ hclosing) hrule
        hscope houter hlevel hlt fun l hl hafter => ?_
      rcases List.mem_append.mp hl with hl' | hl'
      · exact hlast l hl' hafter
      · -- the subproof is closed at the citing line, which stands before `l`
        have hbefore := (laidOut_append.mp h).1.number_lt hline
        have hbehind := (laidOut_append.mp h).2.number_le hl'
        exact h.notMem_scope_of_le (List.mem_append_left _ hline) hl (by omega)
          (hlast line hline hlt) (by omega)

/-- **Validity is settled by the lines up to a line.** -/
theorem judge_append_eq_valid_iff {calculus : Calculus} {premises : Option (List Formula)}
    {progress : Progress} (h : LaidOut 1 .root (lines ++ others)) (hline : line ∈ lines)
    (hvisible : ∀ s, progress.isVisible s = true ↔ s <:+ line.scope) :
    judge calculus premises ⟨lines ++ others⟩ progress line = .valid ↔
      judge calculus premises ⟨lines⟩ progress line = .valid := by
  have hrefers : Refers (lines ++ others) line.number line.scope =
      Refers lines line.number line.scope :=
    funext fun _ => funext fun _ => propext (refers_append_iff h hline)
  rw [@judge_eq_valid_iff calculus premises ⟨lines ++ others⟩ _ _ h hvisible,
    @judge_eq_valid_iff calculus premises ⟨lines⟩ _ _ (laidOut_append.mp h).1 hvisible, hrefers]

end Append

end NaturalDeduction
