import NaturalDeduction.Proofs.Verification.Resolution

/-!
# Exchanging one line of a proof

A line is replaced by another at the same depth. If both are derived by some rule, or if both make
the same premise or assumption, then all that the other lines see of it is its formula, and only
those see it that use it. So a step that goes wrong does not spoil what does not rest on it.

## What a line leaves behind

A verdict depends on the other lines in three ways, and each has its lemma here. Where a line stands
follows from the depths and from which lines are assumptions (`LaidOut.redraft`). What is known on
arriving at it follows from the premises and assumptions before it, and from whether anything has
been derived (`Progress.after_redraft`). What its citations refer to follows from the formulas and
scopes of the lines that they name (`resolve_redraft`).

The formula of a line inside a cited subproof is not among these, unless the subproof begins
or ends with it.

## Main definitions

* `Draft.IsDerived`: neither a premise nor an assumption
* `Draft.Replaces`: a line that may take the place of another
* `Document.Uses`: a line cites a line, or a subproof that ends with it

## Main results

* `verdict?_redraft`: the verdicts on the other lines after one line has been replaced
* `verify_contains_faults`: what becomes of a proof when a derived line goes wrong
-/

namespace NaturalDeduction

variable {α : Type}

/-! ### Lines that may take the place of others -/

/-- The line is neither a premise nor an assumption. -/
def Draft.IsDerived (draft : Draft α) : Prop := draft.rule ≠ .premise ∧ draft.rule ≠ .assumption

/-- A line that may take the place of another: it is as deep, and both are derived or both make the
same premise or assumption. -/
structure Draft.Replaces (draft' draft : Draft α) : Prop where
  depth : draft'.depth = draft.depth
  alike : draft.IsDerived ∧ draft'.IsDerived ∨
    draft'.rule = draft.rule ∧ draft'.formula = draft.formula

/-- The line with another content in its place. -/
def Line.redraft (line : Line α) (draft' : Draft α) : Line α := { line with toDraft := draft' }

namespace Draft.Replaces

variable {draft draft' : Draft α}

theorem assumption_iff (h : draft'.Replaces draft) :
    draft'.rule = .assumption ↔ draft.rule = .assumption := by
  rcases h.alike with ⟨hderived, hderived'⟩ | ⟨hrule, -⟩
  · exact iff_of_false hderived'.2 hderived.2
  · rw [hrule]

/-- The place of a line does not depend on its content. -/
theorem place_eq (h : draft'.Replaces draft) (number : Nat) (current : Scope) :
    draft'.place number current = draft.place number current := by
  rw [Draft.place, Draft.place, h.depth, if_congr h.assumption_iff rfl rfl]

end Draft.Replaces

/-! ### Where the lines stand -/

section Layout

variable {before after : List (Line α)} {line : Line α} {draft' : Draft α}

/-- The other lines keep their places. -/
theorem LaidOut.redraft {number : Nat} {current : Scope}
    (h : LaidOut number current (before ++ line :: after))
    (hreplaces : draft'.Replaces line.toDraft) :
    LaidOut number current (before ++ line.redraft draft' :: after) := by
  rw [laidOut_append] at h ⊢
  obtain ⟨hbefore, hnumber, hplace, hafter⟩ := h
  exact ⟨hbefore, hnumber, (hreplaces.place_eq _ _).trans hplace, hafter⟩

/-- Where the one proof is a document, so is the other, and they differ in one line. -/
theorem Document.exists_redraft_of_build {drafts others : List (Draft α)} {draft : Draft α}
    {document : Document α} (hbuild : Document.build (drafts ++ draft :: others) = .ok document)
    (hreplaces : draft'.Replaces draft) :
    ∃ before line after, LaidOut 1 .root (before ++ line :: after) ∧ line.toDraft = draft ∧
      line.number = drafts.length + 1 ∧ document = ⟨before ++ line :: after⟩ ∧
      Document.build (drafts ++ draft' :: others) =
        .ok ⟨before ++ line.redraft draft' :: after⟩ := by
  obtain ⟨lines⟩ := document
  obtain ⟨hlaid, hdrafts⟩ := Document.build_eq_ok_iff.mp hbuild
  obtain ⟨before, rest, rfl, rfl, hrest⟩ := List.map_eq_append_iff.mp hdrafts
  obtain ⟨line, after, rfl, rfl, rfl⟩ := List.map_eq_cons_iff.mp hrest
  refine ⟨before, line, after, hlaid, rfl, ?_, rfl, ?_⟩
  · rw [(hlaid.place_of_eq rfl).1, List.length_map, Nat.add_comm]
  · refine Document.build_eq_ok_iff.mpr ⟨hlaid.redraft hreplaces, ?_⟩
    rw [List.map_append, List.map_cons]
    rfl

/-- Subproofs end where they ended. -/
theorem Document.lastIn?_redraft (first : Nat) :
    (Document.mk (before ++ line.redraft draft' :: after)).lastIn? first =
      (Document.mk (before ++ line :: after)).lastIn? first := by
  -- only numbers and scopes are looked at
  have hplaces (lines : List (Line α)) : (Document.mk lines).lastIn? first =
      ((lines.map fun l => (l.number, l.scope)).findRev? (first ∈ ·.2)).map (·.1) := by
    simp only [lastIn?, List.findRev?_eq_find?_reverse, ← List.map_reverse, List.find?_map,
      Option.map_map]
    rfl
  rw [hplaces, hplaces, List.map_append, List.map_append]
  rfl

/-- Lines with other numbers are found as before. -/
theorem Document.line?_redraft_of_ne (h : LaidOut 1 .root (before ++ line :: after))
    (hreplaces : draft'.Replaces line.toDraft) {n : Nat} (hn : n ≠ line.number) :
    (Document.mk (before ++ line.redraft draft' :: after)).line? n =
      (Document.mk (before ++ line :: after)).line? n := by
  refine Option.ext fun other => ?_
  rw [line?_eq_some_iff (h.redraft hreplaces), line?_eq_some_iff h]
  refine and_congr_left fun hnumber => ?_
  have hline : other ≠ line := by
    rintro rfl
    exact hn hnumber.symm
  have hline' : other ≠ line.redraft draft' := by
    rintro rfl
    exact hn hnumber.symm
  simp only [List.mem_append, List.mem_cons, hline, hline', false_or]

theorem Document.line?_redraft_self (h : LaidOut 1 .root (before ++ line :: after))
    (hreplaces : draft'.Replaces line.toDraft) :
    (Document.mk (before ++ line.redraft draft' :: after)).line? line.number =
      some (line.redraft draft') :=
  (line?_eq_some_iff (h.redraft hreplaces)).mpr ⟨by simp, rfl⟩

/-- Subproofs are found as before. -/
theorem Document.subproof?_redraft (h : LaidOut 1 .root (before ++ line :: after))
    (hreplaces : draft'.Replaces line.toDraft) (first last : Nat) :
    (Document.mk (before ++ line.redraft draft' :: after)).subproof? first last =
      (Document.mk (before ++ line :: after)).subproof? first last := by
  by_cases hfirst : first = line.number
  · subst hfirst
    have hself : (Document.mk (before ++ line :: after)).line? line.number = some line :=
      (line?_eq_some_iff h).mpr ⟨by simp, rfl⟩
    rw [subproof?, subproof?, line?_redraft_self h hreplaces, hself, lastIn?_redraft]
    exact if_congr (and_congr_left fun _ => hreplaces.assumption_iff) rfl rfl
  · rw [subproof?, subproof?, line?_redraft_of_ne h hreplaces hfirst, lastIn?_redraft]

/-- Every line but the replaced one is found as it was; of that one all may be different
but its place. -/
theorem Document.exists_line?_redraft (h : LaidOut 1 .root (before ++ line :: after))
    (hreplaces : draft'.Replaces line.toDraft) {other : Line α}
    (hother : other ∈ before ++ line :: after)
    (hformula : other.number = line.number → draft'.formula = line.formula) :
    ∃ other', (Document.mk (before ++ line.redraft draft' :: after)).line? other.number =
      some other' ∧
      other'.formula = other.formula ∧ other'.scope = other.scope := by
  by_cases hnumber : other.number = line.number
  · obtain rfl := h.eq_of_number_eq hother (by simp) hnumber
    exact ⟨_, line?_redraft_self h hreplaces, hformula rfl, rfl⟩
  · rw [line?_redraft_of_ne h hreplaces hnumber]
    exact ⟨other, (line?_eq_some_iff h).mpr ⟨hother, rfl⟩, rfl, rfl⟩

end Layout

/-! ### What is known on arriving at a line -/

namespace Progress

variable {line : Line Formula} {draft' : Draft Formula}

/-- **The step.** A line that takes the place of another leaves the same for the next one. -/
theorem advance_redraft (hreplaces : draft'.Replaces line.toDraft) (progress : Progress) :
    progress.advance (line.redraft draft') = progress.advance line := by
  rcases hreplaces.alike with ⟨hderived, hderived'⟩ | ⟨hrule, hformula⟩
  · simp only [advance, enter, leave, enterWith, leaveWith, Line.redraft, hreplaces.depth,
      hderived.1, hderived.2, hderived'.1, hderived'.2, if_false]
  · simp only [advance, enter, leave, enterWith, leaveWith, Line.redraft, hreplaces.depth,
      hrule, hformula]

/-- **The run.** What is known behind the line is the same. -/
theorem after_redraft (hreplaces : draft'.Replaces line.toDraft) (premises : Option (List Formula))
    (before others : List (Line Formula)) :
    after premises (before ++ line.redraft draft' :: others) =
      after premises (before ++ line :: others) := by
  simp only [after, List.foldl_append, List.foldl_cons, advance_redraft hreplaces]

end Progress

/-! ### What citations refer to -/

/-- What is cited ends with line `k`: it is this line, or a subproof of which this is
the last line. -/
def Document.EndsAt (document : Document α) (k : Nat) : Citation → Prop
  | .line n => n = k
  | .subproof first last => last = k ∧ (document.subproof? first last).isSome = true

instance (document : Document α) (k : Nat) : DecidablePred (document.EndsAt k)
  | .line n => inferInstanceAs (Decidable (n = k))
  | .subproof first last =>
    inferInstanceAs (Decidable (last = k ∧ (document.subproof? first last).isSome = true))

/-- A line cites line `k`, or a subproof that ends with it. -/
def Document.Uses (document : Document α) (line : Line α) (k : Nat) : Prop :=
  ∃ citation ∈ line.citations, document.EndsAt k citation

instance (document : Document α) (line : Line α) (k : Nat) : Decidable (document.Uses line k) :=
  inferInstanceAs (Decidable (∃ citation ∈ line.citations, document.EndsAt k citation))

section Resolve

variable {before after : List (Line Formula)} {line other : Line Formula} {draft' : Draft Formula}
  {progress : Progress}

/-- A citation refers to what it did, unless it is of the line that was replaced and that states
another formula now. -/
theorem resolve_redraft (h : LaidOut 1 .root (before ++ line :: after))
    (hreplaces : draft'.Replaces line.toDraft) {citation : Citation}
    (hseen : Document.EndsAt ⟨before ++ line :: after⟩ line.number citation →
      draft'.formula = line.formula) :
    resolve ⟨before ++ line.redraft draft' :: after⟩ progress other citation =
      resolve ⟨before ++ line :: after⟩ progress other citation := by
  have hself : (Document.mk (before ++ line :: after)).line? line.number = some line :=
    (Document.line?_eq_some_iff h).mpr ⟨by simp, rfl⟩
  cases citation with
  | line n =>
    rw [resolve, resolve]
    cases hn : (Document.mk (before ++ line :: after)).line? n with
    | none =>
      have hne : n ≠ line.number := by
        rintro rfl
        cases hself.symm.trans hn
      rw [Document.line?_redraft_of_ne h hreplaces hne, hn]
    | some cited =>
      obtain ⟨hcited, rfl⟩ := (Document.line?_eq_some_iff h).mp hn
      obtain ⟨cited', hcited', hformula, hscope⟩ :=
        Document.exists_line?_redraft h hreplaces hcited hseen
      simp only [hcited', hformula, hscope]
  | subproof first last =>
    rw [resolve, resolve, Document.subproof?_redraft h hreplaces]
    cases hsubproof : (Document.mk (before ++ line :: after)).subproof? first last with
    | none => rfl
    | some scope =>
      obtain ⟨opening, hopening, rfl, hrule, -, hlast⟩ :=
        (Document.subproof?_eq_some_iff h).mp hsubproof
      obtain ⟨closing, hclosing, rfl, -⟩ := (Document.lastIn?_eq_some_iff h).mp hlast
      -- an assumption keeps its formula in any case
      have hassumed : opening.number = line.number → draft'.formula = line.formula := by
        intro hnumber
        obtain rfl := h.eq_of_number_eq hopening (by simp) hnumber
        exact (hreplaces.alike.resolve_left fun hderived => hderived.1.2 hrule).2
      obtain ⟨opening', hopening', hfirst, -⟩ :=
        Document.exists_line?_redraft h hreplaces hopening hassumed
      obtain ⟨closing', hclosing', hsecond, hscope⟩ :=
        Document.exists_line?_redraft h hreplaces hclosing
          fun hnumber => hseen ⟨hnumber, by rw [hsubproof, Option.isSome_some]⟩
      rw [hopening', hclosing', (Document.line?_eq_some_iff h).mpr ⟨hopening, rfl⟩,
        (Document.line?_eq_some_iff h).mpr ⟨hclosing, rfl⟩]
      simp only [hfirst, hsecond, hscope]

/-- Where a line is replaced by one with the same formula, citations refer to what they did. -/
theorem refers_redraft (h : LaidOut 1 .root (before ++ line :: after))
    (hreplaces : draft'.Replaces line.toDraft) (hformula : draft'.formula = line.formula)
    (hvisible : ∀ s, progress.isVisible s = true ↔ s <:+ line.scope) {citation : Citation}
    {cited : Cited Formula} :
    Refers (before ++ line.redraft draft' :: after) line.number line.scope citation cited ↔
      Refers (before ++ line :: after) line.number line.scope citation cited := by
  have hdocument :=
    @resolve_eq_ok_iff ⟨before ++ line :: after⟩ progress line h hvisible citation cited
  have hdocument' := @resolve_eq_ok_iff ⟨before ++ line.redraft draft' :: after⟩ progress line
    (h.redraft hreplaces) hvisible citation cited
  rw [← hdocument, ← hdocument', resolve_redraft h hreplaces fun _ => hformula]

end Resolve

/-! ### Verdicts -/

section Verdicts

variable {statement statement' : Statement Formula} {before after : List (Line Formula)}
  {line other : Line Formula} {draft' : Draft Formula}

/-- **Verdicts on the other lines** stay as they are, unless they use the line that was replaced and
it states another formula now. -/
theorem verdict?_redraft (calculus : Calculus)
    (hpremises : statement'.premises = statement.premises)
    (h : LaidOut 1 .root (before ++ line :: after)) (hreplaces : draft'.Replaces line.toDraft)
    (hother : other ∈ before ++ line :: after) (hne : other.number ≠ line.number)
    (hseen : Document.Uses ⟨before ++ line :: after⟩ other line.number →
      draft'.formula = line.formula) :
    (verify calculus statement' ⟨before ++ line.redraft draft' :: after⟩).verdict? other.number =
      (verify calculus statement ⟨before ++ line :: after⟩).verdict? other.number := by
  -- the line is arrived at with the same progress, whether it stands before or behind the other one
  obtain ⟨read, read', rest, rest', hl, hl', hprogress⟩ : ∃ read read' rest rest',
      before ++ line :: after = read ++ other :: rest ∧
      before ++ line.redraft draft' :: after = read' ++ other :: rest' ∧
      Progress.after statement.premises read' = Progress.after statement.premises read := by
    rcases List.mem_append.mp hother with hbefore | hafter
    · obtain ⟨read, rest, rfl⟩ := List.append_of_mem hbefore
      exact ⟨read, read, _, _, List.append_assoc _ _ _, List.append_assoc _ _ _, rfl⟩
    · have hmem : other ∈ after :=
        (List.mem_cons.mp hafter).resolve_left fun heq => hne (congrArg Line.number heq)
      obtain ⟨between, rest, rfl⟩ := List.append_of_mem hmem
      exact ⟨before ++ line :: between, before ++ line.redraft draft' :: between, rest, rest,
        by simp, by simp, Progress.after_redraft hreplaces _ _ _⟩
  have hresolve : ∀ c ∈ other.citations,
      resolve ⟨before ++ line.redraft draft' :: after⟩
        ((Progress.after statement.premises read).enter other) other c =
      resolve ⟨before ++ line :: after⟩
        ((Progress.after statement.premises read).enter other) other c :=
    fun c hc => resolve_redraft h hreplaces fun hends => hseen ⟨c, hc, hends⟩
  have hverdict :
      (verify calculus statement ⟨before ++ line :: after⟩).verdict? other.number = some _ :=
    verdict?_verify h hl
  have hverdict' : (verify calculus statement' ⟨before ++ line.redraft draft' :: after⟩).verdict?
      other.number = some _ := verdict?_verify (h.redraft hreplaces) hl'
  rw [hverdict, hverdict', hpremises, hprogress, judge, judge, resolveAll_congr hresolve]

/-- The other lines have verdicts, and these agree. -/
theorem exists_verdict?_redraft (calculus : Calculus)
    (hpremises : statement'.premises = statement.premises)
    (h : LaidOut 1 .root (before ++ line :: after)) (hreplaces : draft'.Replaces line.toDraft)
    (hother : other ∈ before ++ line :: after) (hne : other.number ≠ line.number)
    (hseen : Document.Uses ⟨before ++ line :: after⟩ other line.number →
      draft'.formula = line.formula) :
    ∃ verdict,
      (verify calculus statement ⟨before ++ line :: after⟩).verdict? other.number = some verdict ∧
      (verify calculus statement' ⟨before ++ line.redraft draft' :: after⟩).verdict? other.number =
        some verdict := by
  obtain ⟨verdict, hverdict⟩ : ∃ verdict,
      (verify calculus statement ⟨before ++ line :: after⟩).verdict? other.number = some verdict :=
    exists_verdict?_verify h hother
  have hsame := verdict?_redraft calculus hpremises h hreplaces hother hne hseen
  exact ⟨verdict, hverdict, hsame.trans hverdict⟩

end Verdicts

/-- **A faulty step only affects the lines that use it.** Let a proof be given in two versions that
differ in one line, which is derived at the same depth in both. A line that neither cites that line
nor a subproof that ends with it gets the same verdict in both; and if that line states the same
formula in both versions, all other lines get the same verdicts. -/
theorem verify_contains_faults (calculus : Calculus) (statement statement' : Statement Formula)
    (hpremises : statement'.premises = statement.premises) {before after : List (Draft Formula)}
    {draft draft' : Draft Formula} {document document' : Document Formula}
    (hbuild : Document.build (before ++ draft :: after) = .ok document)
    (hbuild' : Document.build (before ++ draft' :: after) = .ok document')
    (hdepth : draft'.depth = draft.depth) (hderived : draft.IsDerived)
    (hderived' : draft'.IsDerived) :
    let k := before.length + 1
    let Agree (line : Line Formula) : Prop := ∃ verdict,
      (verify calculus statement document).verdict? line.number = some verdict ∧
        (verify calculus statement' document').verdict? line.number = some verdict
    (∀ line ∈ document.lines, line.number ≠ k → ¬ document.Uses line k → Agree line) ∧
      (draft'.formula = draft.formula → ∀ line ∈ document.lines, line.number ≠ k → Agree line) := by
  intro k Agree
  have hreplaces : draft'.Replaces draft := ⟨hdepth, .inl ⟨hderived, hderived'⟩⟩
  obtain ⟨first, line, rest, hlaid, rfl, hnumber, rfl, hredraft⟩ :=
    Document.exists_redraft_of_build hbuild hreplaces
  obtain rfl : document' = _ := Except.ok.inj (hbuild'.symm.trans hredraft)
  have hk : line.number = k := hnumber
  have hagree {other : Line Formula} (hother : other ∈ first ++ line :: rest)
      (hne : other.number ≠ k)
      (hseen : Document.Uses ⟨first ++ line :: rest⟩ other k → draft'.formula = line.formula) :
      Agree other :=
    exists_verdict?_redraft calculus hpremises hlaid hreplaces hother (hk ▸ hne) (hk ▸ hseen)
  exact ⟨fun other hother hne huses => hagree hother hne fun h => absurd h huses,
    fun hformula other hother hne => hagree hother hne fun _ => hformula⟩

/-- A proof whose third line is to be filled in. -/
def roundabout (third : Draft Formula) : List (Draft Formula) :=
  [⟨.atom "P" [], .premise, [], 0⟩, ⟨.atom "Q" [], .assumption, [], 1⟩] ++ third ::
    [⟨.atom "Q" [], .andElim, [.line 3], 1⟩,
     ⟨.implies (.atom "Q" []) (.atom "Q" []), .impliesIntro, [.subproof 2 4], 0⟩]

/-- Where `Q ∧ P` should be introduced, line 2 is repeated. If this is to yield `P`, the line that
takes a conjunction apart goes wrong as well, but not the subproof around both; if it is to yield
`Q ∧ P`, nothing else goes wrong. -/
theorem roundabout_contains_faults :
    let p : Formula := .atom "P" []
    let q : Formula := .atom "Q" []
    ∃ intended strayed hasty,
      Document.build (roundabout ⟨.and q p, .andIntro, [.line 2, .line 1], 1⟩) = .ok intended ∧
      Document.build (roundabout ⟨p, .reiteration, [.line 2], 1⟩) = .ok strayed ∧
      Document.build (roundabout ⟨.and q p, .reiteration, [.line 2], 1⟩) = .ok hasty ∧
      (verify .propositional ⟨none, none⟩ intended).isValid = true ∧
      (verify .propositional ⟨none, none⟩ strayed).invalidLines.map Prod.fst = [3, 4] ∧
      (verify .propositional ⟨none, none⟩ strayed).verdict? 5 = some .valid ∧
      (verify .propositional ⟨none, none⟩ hasty).invalidLines.map Prod.fst = [3] ∧
      (verify .propositional ⟨none, none⟩ hasty).verdict? 4 = some .valid := by
  intro p q
  have hintended : Document.build (roundabout ⟨.and q p, .andIntro, [.line 2, .line 1], 1⟩) =
      .ok _ := rfl
  have hstrayed : Document.build (roundabout ⟨p, .reiteration, [.line 2], 1⟩) = .ok _ := rfl
  have hhasty : Document.build (roundabout ⟨.and q p, .reiteration, [.line 2], 1⟩) = .ok _ := rfl
  refine ⟨_, _, _, hintended, hstrayed, hhasty, by decide, by decide, ?_, by decide, ?_⟩
  · obtain ⟨hunused, -⟩ :=
      verify_contains_faults .propositional ⟨none, none⟩ ⟨none, none⟩ rfl hintended
      hstrayed rfl ⟨nofun, nofun⟩ ⟨nofun, nofun⟩
    obtain ⟨verdict, hverdict, hverdict'⟩ := hunused
      ⟨⟨.implies q q, .impliesIntro, [.subproof 2 4], 0⟩, 5, []⟩ (by decide) (by decide) (by decide)
    obtain rfl : verdict = .valid := Option.some.inj (hverdict.symm.trans (by decide))
    exact hverdict'
  · obtain ⟨-, hsame⟩ :=
      verify_contains_faults .propositional ⟨none, none⟩ ⟨none, none⟩ rfl hintended
      hhasty rfl ⟨nofun, nofun⟩ ⟨nofun, nofun⟩
    obtain ⟨verdict, hverdict, hverdict'⟩ := hsame rfl
      ⟨⟨q, .andElim, [.line 3], 1⟩, 4, [2]⟩ (by decide) (by decide)
    obtain rfl : verdict = .valid := Option.some.inj (hverdict.symm.trans (by decide))
    exact hverdict'

end NaturalDeduction
