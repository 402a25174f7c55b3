import NaturalDeduction.Proofs.Formula.Openings

/-!
# The reader recognises the grammar

Reading a text yields a formula exactly if the text writes that formula, so a text
writes at most one.

## Implementation notes

Both directions have to look at what follows a phrase. The reader is only known to be right where a
formula can end (`MayFollow`): in front of anything else it may have broken off the body of a
quantifier too early, which is harmless, since then the whole reading fails. The grammar is only
matched where no operator goes on with the phrase (`StopsAt`): elsewhere the reader goes on.

A level that groups to the left is a left recursion in the grammar and a loop in the reader. The
loop is described by what it makes of a phrase that it has read (`Recognises`, where the reading of
the whole level is reduced to the loop at the end of the phrase).

## Main results

* `phrase_of_yields`: what is read is written
* `Phrase.recognises`: what is written is read
* `Formula.parse_eq_ok_iff`, `Formula.parse_recognises`: both, for whole texts
-/

namespace NaturalDeduction

/-! ### What is read is written -/

/-- What can follow a formula in a text that writes one. -/
def MayFollow (s : List Char) : Prop :=
  EndsPhrase s ∨ ∃ (c : Connective) (rest : List Char), (Symbol.connective c).Token s rest

/-- Behind the body of a quantifier no connective is left. -/
theorem endsPhrase_of_mayFollow {s : List Char} (h : MayFollow s) (hstop : NoSign Level.all s) :
    EndsPhrase s := by
  refine h.resolve_right ?_
  rintro ⟨c, rest, hsign⟩
  obtain ⟨level, hlevel, rfl⟩ : ∃ level ∈ Level.all, level.connective = c := by
    cases c <;> decide
  exact Symbol.read?_eq_none_iff.mp (hstop level hlevel) rest hsign

/-- The levels that the reader takes for a rank. -/
def Rank.levels : Rank → List Level
  | biconditional => Level.all
  | implication => Level.all.drop 1
  | disjunction => Level.all.drop 2
  | conjunction => Level.all.drop 3
  | prefixed => []

section Sound

variable {calculus : Calculus} {c : Connective} {rank tight : Rank} {φ left : Formula}
  {s s₀ rest : List Char} {n : Nat}

/-- What is read in texts shorter than `n` is written there. -/
def SoundBelow (calculus : Calculus) (n : Nat) : Prop :=
  ∀ (s : List Char), s.length < n → ∀ (rank : Rank) (φ : Formula) (rest : List Char),
    Yields (readOperation calculus rank.levels s) φ rest → MayFollow rest →
      Phrase calculus rank s φ rest

theorem SoundBelow.prefixed (below : SoundBelow calculus n) (hs : s.length < n)
    (h : Yields (readPrefixed calculus s) φ rest) (hrest : MayFollow rest) :
    Phrase calculus .prefixed s φ rest := by
  refine below s hs .prefixed φ rest ?_ hrest
  rwa [Rank.levels, readOperation_nil]

theorem phrase_of_yields_readPrefixed (below : SoundBelow calculus s.length)
    (h : Yields (readPrefixed calculus s) φ rest) (hrest : MayFollow rest) :
    Phrase calculus .prefixed s φ rest := by
  cases opening s with
  | not sign =>
    rw [readPrefixed_of_not sign, yields_passOn_iff] at h
    obtain ⟨ψ, hinner, rfl⟩ := h
    exact .not sign (below.prefixed sign.length_lt hinner hrest)
  | quantifier sign =>
    obtain ⟨hcalculus, x, s₂, bound, ψ, hbody, rfl⟩ := (yields_quantifier_iff sign).mp h
    have hgreedy := endsPhrase_of_mayFollow hrest (noSign_of_yields hbody)
    rw [← hcalculus] at hbody
    exact .quantified hcalculus sign bound (separator_skipSeparator s₂)
      (below _ (length_skipSeparator_lt sign bound) .biconditional _ _ hbody hrest) hgreedy
  | openParen sign =>
    obtain ⟨s₂, hinner, hclose⟩ := (yields_openParen_iff sign).mp h
    exact .parentheses sign
      (below _ sign.length_lt .biconditional _ _ hinner (.inl (.inr ⟨_, hclose⟩))) hclose
  | bottom sign =>
    obtain ⟨rfl, rfl⟩ := (yields_bottom sign).unique h
    exact .bottom sign
  | top sign =>
    obtain ⟨rfl, rfl⟩ := (yields_top sign).unique h
    exact .top sign
  | atom free =>
    have hfree := not_beginsReserved_of_free free
    rw [readPrefixed_of_free free] at h
    obtain ⟨p, ⟨hname, -, rfl⟩ | ⟨s₁, args, hcalculus, hname, hargs, rfl⟩⟩ :=
      yields_readAtom_iff.mp h
    · exact .letter hname hfree
    · exact .application hcalculus hname hfree hargs

/-- A level that groups to the right is read as it is written. -/
theorem phrase_of_yields_right (hlevels : rank.levels = ⟨c, .right⟩ :: tight.levels)
    (lift : ∀ {φ s rest}, Phrase calculus tight s φ rest → Phrase calculus rank s φ rest)
    (join : ∀ {φ ψ s s₁ s₂ rest}, Phrase calculus tight s φ s₁ →
      (Symbol.connective c).Token s₁ s₂ → Phrase calculus rank s₂ ψ rest →
        Phrase calculus rank s (.binary c φ ψ) rest)
    (below : SoundBelow calculus s.length)
    (operand : ∀ φ rest, Yields (readOperation calculus tight.levels s) φ rest → MayFollow rest →
      Phrase calculus tight s φ rest)
    (h : Yields (readOperation calculus rank.levels s) φ rest) (hrest : MayFollow rest) :
    Phrase calculus rank s φ rest := by
  rw [hlevels] at h
  obtain ⟨ψ, s₁, hleft, ⟨rfl, rfl, -⟩ | ⟨s₂, χ, hsign, hright, rfl⟩⟩ := yields_right_iff.mp h
  · exact lift (operand _ _ hleft hrest)
  · rw [← hlevels] at hright
    exact join (operand _ _ hleft (.inr ⟨c, s₂, hsign⟩)) hsign
      (below _ (Nat.lt_trans hsign.length_lt hleft.length_lt) _ _ _ hright hrest)

/-- A chain that begins with a phrase is read as it is written. -/
theorem phrase_of_yields_chain
    (join : ∀ {φ ψ s s₁ s₂ rest}, Phrase calculus rank s φ s₁ →
      (Symbol.connective c).Token s₁ s₂ → Phrase calculus tight s₂ ψ rest →
        Phrase calculus rank s (.binary c φ ψ) rest)
    (below : SoundBelow calculus s₀.length) (hs : s.length < s₀.length)
    (first : MayFollow s → Phrase calculus rank s₀ left s)
    (h : Yields (readChain calculus c tight.levels left s) φ rest) (hrest : MayFollow rest) :
    Phrase calculus rank s₀ φ rest := by
  induction hn : s.length using Nat.strongRecOn generalizing s left with
  | _ n ih =>
    subst hn
    rcases yields_chain_iff.mp h with ⟨rfl, rfl, -⟩ | ⟨s₁, ψ, s₂, hsign, hright, hchain⟩
    · exact first hrest
    · have hlt : s₂.length < s.length := Nat.lt_trans hright.length_lt hsign.length_lt
      refine ih _ hlt (Nat.lt_trans hlt hs) (fun hs₂ => ?_) hchain rfl
      exact join (first (.inr ⟨c, s₁, hsign⟩)) hsign
        (below _ (Nat.lt_trans hsign.length_lt hs) _ _ _ hright hs₂)

/-- A level that groups to the left is read as it is written. -/
theorem phrase_of_yields_left (hlevels : rank.levels = ⟨c, .left⟩ :: tight.levels)
    (lift : ∀ {φ s rest}, Phrase calculus tight s φ rest → Phrase calculus rank s φ rest)
    (join : ∀ {φ ψ s s₁ s₂ rest}, Phrase calculus rank s φ s₁ →
      (Symbol.connective c).Token s₁ s₂ → Phrase calculus tight s₂ ψ rest →
        Phrase calculus rank s (.binary c φ ψ) rest)
    (below : SoundBelow calculus s.length)
    (operand : ∀ φ rest, Yields (readOperation calculus tight.levels s) φ rest → MayFollow rest →
      Phrase calculus tight s φ rest)
    (h : Yields (readOperation calculus rank.levels s) φ rest) (hrest : MayFollow rest) :
    Phrase calculus rank s φ rest := by
  rw [hlevels] at h
  obtain ⟨ψ, s₁, hleft, hchain⟩ := yields_left_iff.mp h
  exact phrase_of_yields_chain join below hleft.length_lt
    (fun hs₁ => lift (operand _ _ hleft hs₁)) hchain hrest

/-- **What is read is written**, where a formula can end. -/
theorem phrase_of_yields (h : Yields (readOperation calculus rank.levels s) φ rest)
    (hrest : MayFollow rest) : Phrase calculus rank s φ rest := by
  have sound (n : Nat) : SoundBelow calculus n := by
    induction n with
    | zero => exact fun s hs => absurd hs (Nat.not_lt_zero _)
    | succ n ih =>
      intro s hs rank φ rest h hrest
      have below : SoundBelow calculus s.length :=
        fun s' hs' => ih s' (Nat.lt_of_lt_of_le hs' (Nat.le_of_lt_succ hs))
      -- one rank after the other, tightest first
      have prefixed (φ rest) (h : Yields (readOperation calculus Rank.prefixed.levels s) φ rest)
          (hrest : MayFollow rest) : Phrase calculus .prefixed s φ rest := by
        rw [Rank.levels, readOperation_nil] at h
        exact phrase_of_yields_readPrefixed below h hrest
      have conjunction (φ rest)
          (h : Yields (readOperation calculus Rank.conjunction.levels s) φ rest)
          (hrest : MayFollow rest) : Phrase calculus .conjunction s φ rest :=
        phrase_of_yields_left rfl .ofPrefixed .and below prefixed h hrest
      have disjunction (φ rest)
          (h : Yields (readOperation calculus Rank.disjunction.levels s) φ rest)
          (hrest : MayFollow rest) : Phrase calculus .disjunction s φ rest :=
        phrase_of_yields_left rfl .ofConjunction .or below conjunction h hrest
      have implication (φ rest)
          (h : Yields (readOperation calculus Rank.implication.levels s) φ rest)
          (hrest : MayFollow rest) : Phrase calculus .implication s φ rest :=
        phrase_of_yields_right rfl .ofDisjunction .implies below disjunction h hrest
      cases rank with
      | biconditional =>
        exact phrase_of_yields_right rfl .ofImplication .iff below implication h hrest
      | implication => exact implication φ rest h hrest
      | disjunction => exact disjunction φ rest h hrest
      | conjunction => exact conjunction φ rest h hrest
      | prefixed => exact prefixed φ rest h hrest
  exact sound _ s (Nat.lt_succ_self _) rank φ rest h hrest

end Sound

/-! ### What is written is read -/

section Complete

variable {calculus : Calculus} {c : Connective} {rank tight : Rank} {φ ψ : Formula}
  {s s₁ s₂ rest : List Char}

/-- Neither a sign of the rank nor an argument list goes on with a phrase that ends here. -/
def StopsAt (rank : Rank) (rest : List Char) : Prop :=
  NoSign rank.levels rest ∧ rest.head? ≠ some '('

theorem StopsAt.tighter {level : Level} (h : StopsAt rank rest)
    (hlevels : rank.levels = level :: tight.levels) : StopsAt tight rest :=
  ⟨fun l hl => h.1 l (hlevels ▸ List.mem_cons_of_mem level hl), h.2⟩

/-- Where a symbol stands that is no parenthesis, no argument list does. -/
theorem Symbol.Token.head?_ne {symbol : Symbol} (h : symbol.Token s rest)
    (hne : symbol ≠ .openParen) (hdot : symbol ≠ .dot) : s.head? ≠ some '(' := by
  intro hhead
  obtain ⟨t, rfl⟩ := List.head?_eq_some_iff.mp hhead
  have hopen : Symbol.openParen.Token ('(' :: t) t :=
    ⟨_, Text.Blanks.refl _, ['('], by decide, rfl, fun hword => absurd hword.1 (by decide)⟩
  exact hne (h.unique hopen hdot nofun).1

/-- A rank stops in front of the sign of a looser one. -/
theorem stopsAt_of_sign (h : (Symbol.connective c).Token s rest)
    (hloose : ∀ level ∈ rank.levels, level.connective ≠ c) : StopsAt rank s := by
  refine ⟨fun level hlevel => ?_, h.head?_ne nofun nofun⟩
  refine h.read?_eq_none ?_ nofun nofun
  intro heq
  exact hloose level hlevel (Symbol.connective.inj heq).symm

theorem stopsAt_of_close (h : Symbol.closeParen.Token s rest) : StopsAt rank s :=
  ⟨fun _ _ => h.read?_eq_none nofun nofun nofun, h.head?_ne nofun nofun⟩

theorem stopsAt_of_endsPhrase (h : EndsPhrase s) : StopsAt rank s := by
  rcases h with hend | ⟨rest, hclose⟩
  · refine ⟨fun level _ => Symbol.read?_eq_none_iff.mpr fun rest hsign => ?_, fun hhead => ?_⟩
    · obtain ⟨spelling, hspelling, hs, -⟩ := Symbol.token_iff.mp hsign
      rw [hend.skipBlanks_eq] at hs
      exact Symbol.spellings_ne_nil hspelling (List.append_eq_nil_iff.mp hs.symm).1
    · obtain ⟨t, rfl⟩ := List.head?_eq_some_iff.mp hhead
      obtain ⟨blanks, hblanks, hs⟩ := hend
      rw [List.append_nil] at hs
      exact absurd (hblanks '(' (hs ▸ List.mem_cons_self)) (by decide)
  · exact stopsAt_of_close hclose

/-- What the reader makes of a phrase. Where the phrase may be the first part of a chain, it goes on
with the chain behind the phrase. -/
def Recognises (calculus : Calculus) (s : List Char) (φ : Formula) (rest : List Char) : Rank → Prop
  | .disjunction =>
    StopsAt .conjunction rest → ∀ χ rest',
      Yields (readChain calculus .or Rank.conjunction.levels φ rest) χ rest' →
        Yields (readOperation calculus Rank.disjunction.levels s) χ rest'
  | .conjunction =>
    StopsAt .prefixed rest → ∀ χ rest',
      Yields (readChain calculus .and Rank.prefixed.levels φ rest) χ rest' →
        Yields (readOperation calculus Rank.conjunction.levels s) χ rest'
  | rank => StopsAt rank rest → Yields (readOperation calculus rank.levels s) φ rest

theorem Recognises.yields (h : Recognises calculus s φ rest rank) (hstop : StopsAt rank rest) :
    Yields (readOperation calculus rank.levels s) φ rest := by
  cases rank with
  | disjunction =>
    have hsign := hstop.1 ⟨.or, .left⟩ (by decide)
    exact h (hstop.tighter rfl) φ rest (yields_chain_iff.mpr (.inl ⟨rfl, rfl, hsign⟩))
  | conjunction =>
    have hsign := hstop.1 ⟨.and, .left⟩ (by decide)
    exact h (hstop.tighter rfl) φ rest (yields_chain_iff.mpr (.inl ⟨rfl, rfl, hsign⟩))
  | biconditional | implication | prefixed => exact h hstop

/-- A level that groups to the right reads a single operand. -/
theorem yields_right_of_operand (rank : Rank) (h : Recognises calculus s φ rest tight)
    (hlevels : rank.levels = ⟨c, .right⟩ :: tight.levels) (hstop : StopsAt rank rest) :
    Yields (readOperation calculus rank.levels s) φ rest := by
  have hsign := hstop.1 ⟨c, .right⟩ (hlevels ▸ List.mem_cons_self)
  rw [hlevels]
  exact yields_right_iff.mpr ⟨φ, rest, h.yields (hstop.tighter hlevels), .inl ⟨rfl, rfl, hsign⟩⟩

/-- A level that groups to the right reads its sign between two operands. -/
theorem yields_right_of_sign (rank : Rank) (hlevels : rank.levels = ⟨c, .right⟩ :: tight.levels)
    (hloose : ∀ level ∈ tight.levels, level.connective ≠ c)
    (hleft : Recognises calculus s φ s₁ tight) (hsign : (Symbol.connective c).Token s₁ s₂)
    (hright : Yields (readOperation calculus rank.levels s₂) ψ rest) :
    Yields (readOperation calculus rank.levels s) (.binary c φ ψ) rest := by
  rw [hlevels] at hright ⊢
  exact yields_right_iff.mpr
    ⟨φ, s₁, hleft.yields (stopsAt_of_sign hsign hloose), .inr ⟨s₂, ψ, hsign, hright, rfl⟩⟩

/-- What begins with a formula begins with a token that a formula can begin with. -/
theorem Phrase.beginsFormula (h : Phrase calculus rank s φ rest) : BeginsFormula s := by
  induction h with
  | iff _ _ _ ih | implies _ _ _ ih | or _ _ _ ih | and _ _ _ ih => exact ih
  | ofImplication _ ih | ofDisjunction _ ih | ofConjunction _ ih | ofPrefixed _ ih => exact ih
  | not sign | bottom sign | top sign => exact .inl ⟨_, _, rfl, sign⟩
  | quantified _ sign => exact .inl ⟨_, _, rfl, sign⟩
  | parentheses opening => exact .inl ⟨_, _, rfl, opening⟩
  | letter name => exact .inr ⟨_, _, name⟩
  | application _ name => exact .inr ⟨_, _, name⟩

/-- **What is written is read**, where the phrase ends for the reader too. -/
theorem Phrase.recognises (h : Phrase calculus rank s φ rest) :
    Recognises calculus s φ rest rank := by
  induction h with
  | iff left sign right ihl ihr =>
    exact fun hstop => yields_right_of_sign .biconditional rfl (by decide) ihl sign (ihr hstop)
  | ofImplication h ih =>
    exact fun hstop => yields_right_of_operand .biconditional ih rfl hstop
  | implies left sign right ihl ihr =>
    exact fun hstop => yields_right_of_sign .implication rfl (by decide) ihl sign (ihr hstop)
  | ofDisjunction h ih =>
    exact fun hstop => yields_right_of_operand .implication ih rfl hstop
  | or left sign right ihl ihr =>
    intro hstop χ rest' hchain
    exact ihl (stopsAt_of_sign sign (by decide)) χ rest'
      (yields_chain_iff.mpr (.inr ⟨_, _, _, sign, ihr.yields hstop, hchain⟩))
  | ofConjunction h ih =>
    intro hstop χ rest' hchain
    exact yields_left_iff.mpr ⟨_, _, ih.yields hstop, hchain⟩
  | and left sign right ihl ihr =>
    intro hstop χ rest' hchain
    exact ihl (stopsAt_of_sign sign (by decide)) χ rest'
      (yields_chain_iff.mpr (.inr ⟨_, _, _, sign, ihr.yields hstop, hchain⟩))
  | ofPrefixed h ih =>
    intro hstop χ rest' hchain
    exact yields_left_iff.mpr ⟨_, _, ih.yields hstop, hchain⟩
  | not sign inner ih =>
    intro hstop
    rw [Rank.levels, readOperation_nil]
    have hinner := ih hstop
    rw [Rank.levels, readOperation_nil] at hinner
    exact yields_not sign hinner
  | quantified predicate sign bound separator body greedy ih =>
    intro _
    subst predicate
    rw [Rank.levels, readOperation_nil]
    have hbody := ih (stopsAt_of_endsPhrase greedy)
    rw [← skipSeparator_eq_of_separator separator body.beginsFormula] at hbody
    exact yields_quantified sign bound hbody
  | parentheses opening inner close ih =>
    intro _
    rw [Rank.levels, readOperation_nil]
    exact yields_parentheses opening (ih (stopsAt_of_close close)) close
  | bottom sign =>
    intro _
    rw [Rank.levels, readOperation_nil]
    exact yields_bottom sign
  | top sign =>
    intro _
    rw [Rank.levels, readOperation_nil]
    exact yields_top sign
  | letter name free =>
    intro hstop
    rw [Rank.levels, readOperation_nil]
    exact yields_atom name free (yields_readAtom_iff.mpr ⟨_, .inl ⟨name, hstop.2, rfl⟩⟩)
  | application predicate name free arguments =>
    intro _
    rw [Rank.levels, readOperation_nil]
    exact yields_atom name free
      (yields_readAtom_iff.mpr ⟨_, .inr ⟨_, _, predicate, name, arguments, rfl⟩⟩)

end Complete

/-! ### Whole texts -/

namespace Formula

variable {calculus : Calculus} {φ : Formula} {text : String}

/-- What is read is the same whether or not errors are located. -/
theorem parse_eq_ok_iff_read :
    Formula.parse calculus text = .ok φ ↔ Formula.read calculus text.toList = .ok φ := by
  rw [Formula.parse]
  cases Formula.read calculus text.toList with
  | error stuck => exact iff_of_false nofun nofun
  | ok ψ => exact ⟨fun h => congrArg _ (Except.ok.inj h), fun h => congrArg _ (Except.ok.inj h)⟩

/-- An error is where the reading of the text is stuck. -/
theorem parse_eq_error_iff {error : SyntaxError} : Formula.parse calculus text = .error error ↔
    ∃ stuck, Formula.read calculus text.toList = .error stuck ∧
      error = stuck.locate text.toList := by
  rw [Formula.parse]
  cases Formula.read calculus text.toList with
  | error stuck =>
    constructor
    · intro h
      exact ⟨stuck, rfl, (Except.error.inj h).symm⟩
    · rintro ⟨_, h, rfl⟩
      obtain rfl := Except.error.inj h
      rfl
  | ok φ =>
    constructor
    · intro h
      cases h
    · rintro ⟨stuck, h, -⟩
      cases h

/-- A text is read if nothing but blanks is left of it. -/
theorem parse_eq_ok_iff_yields : Formula.parse calculus text = .ok φ ↔
    ∃ rest, Yields (readOperation calculus Level.all text.toList) φ rest ∧
      Text.skipBlanks rest = [] := by
  rw [parse_eq_ok_iff_read, Formula.read]
  cases hread : readOperation calculus Level.all text.toList with
  | error stuck =>
    constructor
    · intro h
      cases h
    · rintro ⟨rest, hyields, -⟩
      exact absurd hyields not_yields_error
  | ok parsed =>
    cases hrest : Text.skipBlanks parsed.rest with
    | nil =>
      simp only [hrest, Except.ok.injEq, yields_ok_iff]
      constructor
      · rintro rfl
        exact ⟨parsed.rest, ⟨rfl, rfl⟩, hrest⟩
      · rintro ⟨_, ⟨rfl, -⟩, -⟩
        rfl
    | cons c t =>
      simp only [hrest, yields_ok_iff]
      constructor
      · intro h
        cases h
      · rintro ⟨_, ⟨-, rfl⟩, hend⟩
        rw [hrest] at hend
        cases hend

/-- A text is read as a formula exactly if it writes that formula. -/
theorem parse_eq_ok_iff :
    Formula.parse calculus text = .ok φ ↔ φ.WrittenAs calculus text.toList := by
  rw [parse_eq_ok_iff_yields]
  constructor
  · rintro ⟨rest, hyields, hend⟩
    have hblanks : Text.Blanks rest [] := hend ▸ Text.blanks_skipBlanks rest
    have hyields : Yields (readOperation calculus Rank.biconditional.levels text.toList) φ rest :=
      hyields
    exact ⟨rest, phrase_of_yields hyields (.inl (.inl hblanks)), hblanks⟩
  · rintro ⟨rest, hphrase, hblanks⟩
    exact ⟨rest, hphrase.recognises (stopsAt_of_endsPhrase (.inl hblanks)), hblanks.skipBlanks_eq⟩

/-- **The reader accepts exactly the grammar, and the grammar is unambiguous.** -/
theorem parse_recognises (calculus : Calculus) (text : String) :
    (∀ φ, Formula.parse calculus text = .ok φ ↔ φ.WrittenAs calculus text.toList) ∧
      ∀ φ ψ : Formula, φ.WrittenAs calculus text.toList ∧
        ψ.WrittenAs calculus text.toList → φ = ψ := by
  refine ⟨fun φ => parse_eq_ok_iff, ?_⟩
  rintro φ ψ ⟨hφ, hψ⟩
  have hok : Except.ok φ = Except.ok ψ :=
    (parse_eq_ok_iff.mpr hφ).symm.trans (parse_eq_ok_iff.mpr hψ)
  exact Except.ok.inj hok

end Formula

end NaturalDeduction
