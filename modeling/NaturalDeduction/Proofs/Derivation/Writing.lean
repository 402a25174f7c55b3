import NaturalDeduction.Proofs.Verification.Resolution
import NaturalDeduction.Proofs.Verification.Rules

/-!
# Writing proofs line by line

How a proof can be continued so that all of its lines stay valid. A proof is written in some scope,
which is the scope of the last line or one around it. What is written there may close what lies
deeper, and may open subproofs of its own, but it leaves the scope itself open and everything
around it untouched.

## Why nothing has to be renumbered

Lines are only ever added at the end. A subproof that could be cited in a scope can be cited in it
after any continuation in that scope (`Discharges.of_continues`), so the parts of a derivation can
be written one after the other, each with the numbers that it happens to get.

## Main definitions

* `Accepted`: a proof all of whose lines are valid
* `Continues`: a proof has been continued in a scope
* `States`, `Discharges`: what a line or a subproof offers to citations in a scope
* `Ready`: in a scope some hypotheses are available, and no names are fixed but theirs
* `Writes`: a proof can be continued by a line in a scope

## Main results

* `Ready.derive`: a derived line can be written
* `Ready.subproof`: a subproof can be written
-/

namespace NaturalDeduction

variable {calculus : Calculus} {premises : List Formula}

/-! ### Accepted proofs -/

/-- A proof written line by line, each of them valid where it stands. -/
inductive Accepted (calculus : Calculus) (premises : List Formula) : List (Line Formula) → Prop
  | nil : Accepted calculus premises []
  | concat {lines line} (h : Accepted calculus premises lines)
    (hnumber : line.number = lines.length + 1)
    (hplace : line.toDraft.place line.number (scopeAfter .root lines) = .ok line.scope)
    (hvalid : judge calculus (some premises) ⟨lines ++ [line]⟩
      ((Progress.after (some premises) lines).enter line) line = .valid) :
    Accepted calculus premises (lines ++ [line])

namespace Accepted

variable {lines : List (Line Formula)}

theorem laidOut (h : Accepted calculus premises lines) : LaidOut 1 .root lines := by
  induction h with
  | nil => trivial
  | concat _ hnumber hplace _ ih =>
    exact laidOut_concat.mpr ⟨ih, by rw [hnumber, Nat.add_comm], hplace⟩

/-- A line can be written if its rule accepts what it cites whenever the frames are as
they should be. -/
theorem write (h : Accepted calculus premises lines) {line : Line Formula}
    {cited : List (Cited Formula)} (hnumber : line.number = lines.length + 1)
    (hplace : line.toDraft.place line.number (scopeAfter .root lines) = .ok line.scope)
    (hcites : List.Forall₂ (Refers (lines ++ [line]) line.number line.scope) line.citations cited)
    (hcheck : ∀ progress : Progress,
      progress.Mirrors (some premises) lines (lines ++ [line]) line.scope →
        (line.step calculus (some premises) progress cited).check = .ok ()) :
    Accepted calculus premises (lines ++ [line]) := by
  have hlaid : LaidOut 1 .root (lines ++ [line]) :=
    laidOut_concat.mpr ⟨h.laidOut, by rw [hnumber, Nat.add_comm], hplace⟩
  have hmirrors : ((Progress.after (some premises) lines).enter line).Mirrors (some premises) lines
      (lines ++ [line]) line.scope := Progress.mirrors_enter hlaid rfl
  refine h.concat hnumber hplace ?_
  exact (judge_eq_valid_iff hlaid fun _ => hmirrors.isVisible_iff).mpr
    ⟨cited, hcites, hcheck _ hmirrors⟩

/-- The lines of an accepted proof are valid in every document that begins with them. -/
theorem all_isValid (h : Accepted calculus premises lines) (others : List (Line Formula))
    (hlaid : LaidOut 1 .root (lines ++ others)) :
    (judgeLines calculus (some premises) ⟨lines ++ others⟩ (.start (some premises)) lines).all
      Verdict.isValid = true := by
  induction h generalizing others with
  | nil => rfl
  | @concat lines line h hnumber hplace hvalid ih =>
    have hall := ih ([line] ++ others) (by rwa [← List.append_assoc])
    rw [← List.append_assoc] at hall
    have hline := (judge_append_eq_valid_iff hlaid (by simp) fun _ =>
      (Progress.mirrors_enter (laidOut_append.mp hlaid).1 rfl).isVisible_iff).mpr hvalid
    rw [judgeLines_append, List.all_append, hall, Bool.true_and, judgeLines, judgeLines,
      List.all_cons, List.all_nil, Bool.and_true]
    exact Verdict.isValid_iff.mpr hline

end Accepted

/-! ### Continuing a proof in a scope -/

/-- `others` continues `lines`. The added lines are no premises, and lie in subproofs of `scope` and
in new ones only. -/
def Continues (scope : Scope) (lines others : List (Line Formula)) : Prop :=
  ∃ added, others = lines ++ added ∧
    ∀ line ∈ added, line.rule ≠ .premise ∧ ∀ f ∈ line.scope, f ∈ scope ∨ lines.length < f

namespace Continues

variable {scope : Scope} {lines others last : List (Line Formula)} {line : Line Formula}

theorem refl (scope : Scope) (lines : List (Line Formula)) : Continues scope lines lines :=
  ⟨[], by simp, by simp⟩

theorem concat (hpremise : line.rule ≠ .premise)
    (hscope : ∀ f ∈ line.scope, f ∈ scope ∨ lines.length < f) :
    Continues scope lines (lines ++ [line]) := by
  refine ⟨[line], rfl, fun other hother => ?_⟩
  obtain rfl := List.mem_singleton.mp hother
  exact ⟨hpremise, hscope⟩

theorem subset (h : Continues scope lines others) : lines ⊆ others := by
  obtain ⟨added, rfl, -⟩ := h
  exact List.subset_append_left _ _

/-- What is written in a new subproof continues the proof around it. -/
theorem trans_of_subset {inner : Scope} (h : Continues scope lines others)
    (hinner : ∀ f ∈ inner, f ∈ scope ∨ lines.length < f) (h' : Continues inner others last) :
    Continues scope lines last := by
  obtain ⟨added, rfl, hadded⟩ := h
  obtain ⟨added', rfl, hadded'⟩ := h'
  refine ⟨added ++ added', List.append_assoc _ _ _, fun line hline => ?_⟩
  rcases List.mem_append.mp hline with hline | hline
  · exact hadded line hline
  · obtain ⟨hpremise, hscope⟩ := hadded' line hline
    refine ⟨hpremise, fun f hf => ?_⟩
    rcases hscope f hf with hf | hf
    · exact hinner f hf
    · rw [List.length_append] at hf
      exact .inr (by omega)

theorem trans (h : Continues scope lines others) (h' : Continues scope others last) :
    Continues scope lines last :=
  h.trans_of_subset (fun _ => .inl) h'

end Continues

/-! ### What can be cited in a scope -/

/-- A line that can be cited in the scope states `φ`. -/
def States (scope : Scope) (lines : List (Line Formula)) (φ : Formula) : Prop :=
  ∃ line ∈ lines, line.scope <:+ scope ∧ line.formula = φ

/-- A closed subproof directly inside the scope leads from one formula to another. -/
inductive Discharges (scope : Scope) (lines : List (Line Formula)) : Formula → Formula → Prop
  | intro {opening closing : Line Formula} (hopening : opening ∈ lines) (hclosing : closing ∈ lines)
    (hrule : opening.rule = .assumption) (hscope : opening.scope = opening.number :: scope)
    (hnot : opening.number ∉ scope) (hlevel : closing.scope = opening.scope)
    (hlast : ∀ line ∈ lines, closing.number < line.number → opening.number ∉ line.scope) :
    Discharges scope lines opening.formula closing.formula

/-- What a citation stands for in a line that is written next, in the scope. -/
def CanCite (scope : Scope) (lines : List (Line Formula)) (citation : Citation)
    (cited : Cited Formula) :
    Prop :=
  ∀ line, line.number = lines.length + 1 → line.scope = scope →
    Refers (lines ++ [line]) line.number line.scope citation cited

section Cite

variable {scope : Scope} {lines others : List (Line Formula)} {φ ψ : Formula}

theorem States.of_continues (h : States scope lines φ) (hcontinues : Continues scope lines others) :
    States scope others φ := by
  obtain ⟨line, hline, hscope, hφ⟩ := h
  exact ⟨line, hcontinues.subset hline, hscope, hφ⟩

theorem States.canCite (h : States scope lines φ) (hlaid : LaidOut 1 .root lines) :
    ∃ n, CanCite scope lines (.line n) (.line ⟨.line n, φ⟩) := by
  obtain ⟨line, hline, hscope, rfl⟩ := h
  refine ⟨line.number, fun next hnumber hnext => ?_⟩
  have hlt := hlaid.number_lt hline
  exact .line (List.mem_append_left _ hline) (by omega) (hnext ▸ hscope)

/-- A subproof stays closed, since no added line lies in it. -/
theorem Discharges.of_continues (h : Discharges scope lines φ ψ) (hlaid : LaidOut 1 .root lines)
    (hcontinues : Continues scope lines others) : Discharges scope others φ ψ := by
  obtain @⟨opening, closing, hopening, hclosing, hrule, hscope, hnot, hlevel, hlast⟩ := h
  refine .intro (hcontinues.subset hopening)
    (hcontinues.subset hclosing) hrule hscope hnot hlevel ?_
  obtain ⟨added, rfl, hadded⟩ := hcontinues
  intro line hline hlt
  rcases List.mem_append.mp hline with hline | hline
  · exact hlast line hline hlt
  · intro hmem
    have hle := hlaid.number_lt hopening
    rcases (hadded line hline).2 _ hmem with hmem | hmem
    · exact hnot hmem
    · omega

theorem Discharges.canCite (h : Discharges scope lines φ ψ) (hlaid : LaidOut 1 .root lines) :
    ∃ first last, CanCite scope lines (.subproof first last) (.subproof ⟨φ, ψ⟩) := by
  obtain @⟨opening, closing, hopening, hclosing, hrule, hscope, hnot, hlevel, hlast⟩ := h
  refine ⟨opening.number, closing.number, fun next hnumber hnext => ?_⟩
  have hlt := hlaid.number_lt hclosing
  refine .subproof (List.mem_append_left _ hopening) (List.mem_append_left _ hclosing) hrule hscope
    (hnext ▸ List.suffix_refl _) hlevel (by omega) fun line hline hbehind => ?_
  rcases List.mem_append.mp hline with hline | hline
  · exact hlast line hline hbehind
  · obtain rfl := List.mem_singleton.mp hline
    rwa [hnext]

end Cite

/-! ### Writing in a scope -/

/-- The proof can go on in the scope: it is still open, the hypotheses are stated, and every name
that is fixed is the name of a hypothesis. -/
structure Ready (calculus : Calculus) (premises Γ : List Formula) (scope : Scope)
    (lines : List (Line Formula)) : Prop where
  accepted : Accepted calculus premises lines
  isOpen : scope <:+ scopeAfter .root lines
  states : ∀ φ ∈ Γ, States scope lines φ
  names : ∀ n, FixedName (some premises) lines lines scope n → ∃ φ ∈ Γ, n ∈ φ.freeNames

/-- The proof can be continued in the scope by lines of which the last states `φ` in the scope. -/
def Writes (calculus : Calculus) (premises Γ : List Formula) (scope : Scope)
    (lines : List (Line Formula)) (φ : Formula) : Prop :=
  ∃ before line, Ready calculus premises Γ scope (before ++ [line]) ∧
    Continues scope lines (before ++ [line]) ∧ line.scope = scope ∧ line.formula = φ

theorem Writes.of_continues {Γ : List Formula} {scope : Scope} {lines others : List (Line Formula)}
    {φ : Formula} (h : Writes calculus premises Γ scope others φ)
    (hcontinues : Continues scope lines others) : Writes calculus premises Γ scope lines φ := by
  obtain ⟨before, line, hready, hrest, hscope, hφ⟩ := h
  exact ⟨before, line, hready, hcontinues.trans hrest, hscope, hφ⟩

namespace Ready

variable {Γ : List Formula} {scope : Scope} {lines others : List (Line Formula)} {φ ψ : Formula}

/-- The numbers in the scope are those of lines. -/
theorem le_length (h : Ready calculus premises Γ scope lines) {f : Nat} (hf : f ∈ scope) :
    f ≤ lines.length := by
  have := h.accepted.laidOut.scopeAfter_lt (by simp) f (h.isOpen.mem hf)
  omega

/-- The next number is not in the scope. -/
theorem notMem (h : Ready calculus premises Γ scope lines) : lines.length + 1 ∉ scope :=
  fun hmem => Nat.not_succ_le_self _ (h.le_length hmem)

/-- **A continuation that leaves the scope open** leaves the hypotheses and the fixed names as they
are. -/
theorem of_continues (h : Ready calculus premises Γ scope lines)
    (hcontinues : Continues scope lines others) (haccepted : Accepted calculus premises others)
    (hopen : scope <:+ scopeAfter .root others) :
    Ready calculus premises Γ scope others where
  accepted := haccepted
  isOpen := hopen
  states φ hφ := (h.states φ hφ).of_continues hcontinues
  names n hn := by
    obtain ⟨added, rfl, hadded⟩ := hcontinues
    apply h.names n
    rcases hn with hdeclared | ⟨line, hline, hrule, hdepth, hn⟩ | ⟨line, hline, hscope, hn⟩
    · exact .inl hdeclared
    · refine .inr (.inl ⟨line, ?_, hrule, hdepth, hn⟩)
      exact (List.mem_append.mp hline).resolve_right fun hmem => (hadded line hmem).1 hrule
    · refine .inr (.inr ⟨line, ?_, hscope, hn⟩)
      refine (List.mem_append.mp hline).resolve_right fun hmem => ?_
      -- an added line has a number that is too large for the scope
      have hle := h.le_length hscope
      have hge := (laidOut_append.mp haccepted.laidOut).2.number_le hmem
      omega

/-- **Writing a derived line.** What it cites has to be available, and its rule has to accept it
whatever the fixed names are, provided that they are names of hypotheses. -/
theorem derive (h : Ready calculus premises Γ scope lines) {rule : Rule} {citations : List Citation}
    {cited : List (Cited Formula)} (hrule : rule ≠ .premise ∧ rule ≠ .assumption)
    (hcites : List.Forall₂ (CanCite scope lines) citations cited)
    (hcheck : ∀ context after, (∀ n ∈ context, ∃ γ ∈ Γ, n ∈ γ.freeNames) →
      Step.check ⟨rule, φ, cited, scope.length, context, some premises, after,
        calculus.hasQuantifiers⟩ = .ok ()) :
    Writes calculus premises Γ scope lines φ := by
  obtain ⟨line, hline⟩ : ∃ line : Line Formula,
      line = ⟨⟨φ, rule, citations, scope.length⟩, lines.length + 1, scope⟩ := ⟨_, rfl⟩
  have hnumber : line.number = lines.length + 1 := by rw [hline]
  have hscope : line.scope = scope := by rw [hline]
  have hplace : line.toDraft.place line.number (scopeAfter .root lines) = .ok line.scope := by
    rw [hline]
    exact Draft.place_of_suffix hrule.2 rfl h.isOpen
  have hcites' : List.Forall₂ (Refers (lines ++ [line]) line.number line.scope) line.citations
      cited := by
    have hcitations : line.citations = citations := by rw [hline]
    rw [hcitations]
    exact hcites.imp fun _ _ hcan => hcan line hnumber hscope
  have haccepted : Accepted calculus premises (lines ++ [line]) := by
    refine h.accepted.write hnumber hplace hcites' fun progress hmirrors => ?_
    have hnames : ∀ n ∈ progress.contextNames, ∃ γ ∈ Γ, n ∈ γ.freeNames := by
      intro n hn
      rw [hmirrors.mem_contextNames_iff, hscope] at hn
      exact h.names n ((fixedName_concat_of_notMem (hnumber ▸ h.notMem)).mp hn)
    have hpassed := hcheck progress.contextNames progress.afterDerivation hnames
    rw [hline]
    exact hpassed
  have hcontinues : Continues scope lines (lines ++ [line]) := by
    refine .concat ?_ fun f hf => .inl (hscope ▸ hf)
    rw [hline]
    exact hrule.1
  exact ⟨lines, line, h.of_continues hcontinues haccepted (by rw [scopeAfter_concat, hscope]),
    hcontinues, hscope, by rw [hline]⟩

/-- **Opening a subproof.** Its assumption becomes a hypothesis, and the names of the assumption
become fixed. -/
theorem assume (h : Ready calculus premises Γ scope lines) (φ : Formula) :
    ∃ opening : Line Formula, opening.rule = .assumption ∧ opening.formula = φ ∧
      opening.number = lines.length + 1 ∧ opening.scope = opening.number :: scope ∧
      Ready calculus premises (φ :: Γ) opening.scope (lines ++ [opening]) := by
  obtain ⟨opening, hopening⟩ : ∃ opening : Line Formula, opening =
      ⟨⟨φ, .assumption, [], scope.length + 1⟩, lines.length + 1, (lines.length + 1) :: scope⟩ :=
    ⟨_, rfl⟩
  have hrule : opening.rule = .assumption := by rw [hopening]
  have hφ : opening.formula = φ := by rw [hopening]
  have hnumber : opening.number = lines.length + 1 := by rw [hopening]
  have hscope : opening.scope = opening.number :: scope := by rw [hopening]
  have hplace : opening.toDraft.place opening.number (scopeAfter .root lines) =
      .ok opening.scope := by
    rw [hopening]
    exact Draft.place_assumption_of_suffix rfl rfl h.isOpen
  have hcites : List.Forall₂ (Refers (lines ++ [opening]) opening.number opening.scope)
      opening.citations [] := by
    rw [hopening]
    exact .nil
  have haccepted : Accepted calculus premises (lines ++ [opening]) := by
    refine h.accepted.write hnumber hplace hcites fun progress _ => ?_
    rw [hopening]
    show Step.checkAssumption ([] : List (Cited Formula)) = .ok ()
    exact Step.checkAssumption_eq_ok_iff.mpr ⟨rfl, rfl⟩
  refine ⟨opening, hrule, hφ, hnumber, hscope, haccepted, ?_, ?_, ?_⟩
  · rw [scopeAfter_concat]
  · intro ψ hψ
    rcases List.mem_cons.mp hψ with rfl | hψ
    · exact ⟨opening, by simp, List.suffix_refl _, hφ⟩
    · obtain ⟨line, hline, hvisible, hψ⟩ := h.states ψ hψ
      exact ⟨line, List.mem_append_left _ hline,
        hvisible.trans (hscope ▸ List.suffix_cons _ _), hψ⟩
  · intro n hn
    have hother : ∀ other ∈ lines, other.number ≠ opening.number := fun other hother => by
      have := h.accepted.laidOut.number_lt hother
      omega
    rw [fixedName_concat_premiseLines, or_iff_left (by simp [hrule]), hscope,
      fixedName_cons hother] at hn
    rcases hn with hn | hn
    · obtain ⟨γ, hγ, hn⟩ := h.names n hn
      exact ⟨γ, List.mem_cons_of_mem _ hγ, hn⟩
    · exact ⟨φ, List.mem_cons_self, hφ ▸ hn⟩

/-- **Writing a subproof.** -/
theorem subproof (h : Ready calculus premises Γ scope lines)
    (hwrites : ∀ inner others, Ready calculus premises (φ :: Γ) inner others →
      Writes calculus premises (φ :: Γ) inner others ψ) :
    ∃ others, Ready calculus premises Γ scope others ∧ Continues scope lines others ∧
      Discharges scope others φ ψ := by
  obtain ⟨opening, hrule, rfl, hnumber, hscope, hready⟩ := h.assume φ
  obtain ⟨before, closing, hready', hcontinues, hlevel, rfl⟩ := hwrites _ _ hready
  have hinner : ∀ f ∈ opening.scope, f ∈ scope ∨ lines.length < f := by
    intro f hf
    rw [hscope] at hf
    rcases List.mem_cons.mp hf with rfl | hf
    · exact .inr (by omega)
    · exact .inl hf
  have hopened : Continues scope lines (lines ++ [opening]) := by
    refine .concat ?_ hinner
    rw [hrule]
    decide
  have hall : Continues scope lines (before ++ [closing]) :=
    hopened.trans_of_subset hinner hcontinues
  have hlaid := hready'.accepted.laidOut
  have hopen : scope <:+ scopeAfter .root (before ++ [closing]) := by
    rw [scopeAfter_concat, hlevel, hscope]
    exact List.suffix_cons _ _
  have hlast : ∀ line ∈ before ++ [closing], closing.number < line.number →
      opening.number ∉ line.scope := by
    -- no line stands behind the last
    intro line hline hlt
    have hclosing := (hlaid.place_of_eq rfl).1
    have hle := hlaid.number_lt hline
    rw [List.length_append, List.length_singleton] at hle
    omega
  exact ⟨before ++ [closing], h.of_continues hall hready'.accepted hopen, hall,
    .intro (hcontinues.subset (by simp)) (by simp) hrule hscope (hnumber ▸ h.notMem) hlevel hlast⟩

/-- Writing a line as a part of a longer proof. -/
theorem line (h : Ready calculus premises Γ scope lines)
    (hwrites : ∀ others, Ready calculus premises Γ scope others →
      Writes calculus premises Γ scope others φ) :
    ∃ others, Ready calculus premises Γ scope others ∧ Continues scope lines others ∧
      States scope others φ := by
  obtain ⟨before, line, hready, hcontinues, hscope, hφ⟩ := hwrites lines h
  exact ⟨_, hready, hcontinues, line, by simp, hscope ▸ List.suffix_refl _, hφ⟩

end Ready

end NaturalDeduction
