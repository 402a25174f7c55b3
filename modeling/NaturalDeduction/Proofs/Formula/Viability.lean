import Mathlib.Control.Monad.Basic
import NaturalDeduction.Proofs.Formula.Rendering
import NaturalDeduction.Proofs.Formula.Seams

/-!
# The text in front of an error can be completed

An error points at the first token that a formula cannot go on with: what stands in front of it is
the beginning of some formula in the same calculus.

## How a text is completed

Wherever the reader is stuck, little is missing. Where a formula has to begin it is `⊤`, where a
variable is missing it is `x⊤`, in an argument list it is `x)`, and in parentheses it is `)`. The
places that the reader has passed by then ask for nothing else, since all of them are content with
the end of the phrase: a level has its operand, a chain may stop, and the body of a quantifier is
its formula. Only parentheses want to be closed, one behind the other.

So a completion is something that does in front of every end of a phrase (`Completable`), and it is
found at the place where the reader is stuck and handed outwards, over the tokens and operands that
were read before. Cutting the text at the error and going on with a blank changes none of these,
since no word runs across the cut.

## Main definitions

* `Completable`: cut at a place, a text has a completion
* `Readable`: there is something to read

## Main results

* `completable_of_stuck`: wherever the reader is stuck, there is a completion
* `Formula.parse_error_points`: what holds of every error
-/

namespace NaturalDeduction

open Text

/-- In front of `r` the text can be cut, and there is something to put behind the cut and a blank
that makes `P` hold, in front of anything that ends a phrase. -/
def Completable (P : List Char → List Char → Prop) (s r : List Char) : Prop :=
  skipBlanks r = r ∧ ∃ a t, s = a ++ r ∧ Seam a r ∧
    ∀ e, EndsPhrase e → ∃ rest, Blanks rest e ∧ P (a ++ ' ' :: (t ++ e)) rest

section Completions

variable {P Q : List Char → List Char → Prop} {r s s₁ e rest : List Char}

theorem EndsPhrase.of_blanks (h : EndsPhrase e) (hblanks : Blanks rest e) : EndsPhrase rest := by
  rcases h with hend | ⟨s, hclose⟩
  · exact .inl (hblanks.trans hend)
  · refine .inr ⟨s, ?_⟩
    rw [Symbol.token_iff, hblanks.skipBlanks_eq]
    exact Symbol.token_iff.mp hclose

/-- What makes `P` hold makes `Q` hold if that follows where a phrase ends. -/
theorem Completable.mono (h : Completable P s r)
    (hPQ : ∀ {s' rest'}, EndsPhrase rest' → P s' rest' → Q s' rest') : Completable Q s r := by
  obtain ⟨hr, a, t, hs, ha, h⟩ := h
  refine ⟨hr, a, t, hs, ha, fun e he => ?_⟩
  obtain ⟨rest, hblanks, hP⟩ := h e he
  exact ⟨rest, hblanks, hPQ (he.of_blanks hblanks) hP⟩

/-- The next token can be replaced by a text that does in front of every end of a phrase. -/
theorem completable_here (t : List Char) (s : List Char)
    (h : ∀ {s' e}, EndsPhrase e → Blanks s' (t ++ e) → P s' e) :
    Completable P s (skipBlanks s) := by
  obtain ⟨blanks, hblanks, hs⟩ := blanks_skipBlanks s
  refine ⟨skipBlanks_skipBlanks s, blanks, t, hs, seam_of_isBlank hblanks _, fun e he => ?_⟩
  exact ⟨e, Blanks.refl e, h he (Blanks.trans ⟨blanks, hblanks, rfl⟩ (blanks_cons_of_space _))⟩

/-- Behind something that survives the cut, the text is completed as it is there. -/
theorem Survives.completable (hP : Survives r P s s₁) (hQ : Completable Q s₁ r) :
    Completable (fun s' rest' => ∃ s₁', P s' s₁' ∧ Q s₁' rest') s r := by
  obtain ⟨hr, a₁, t, hs₁, ha₁, hQ⟩ := hQ
  obtain ⟨a₀, hs, hseam, -, hP⟩ := hP a₁ hs₁ ha₁
  refine ⟨hr, a₀, t, hs, hseam, fun e he => ?_⟩
  obtain ⟨rest, hblanks, hQ⟩ := hQ e he
  exact ⟨rest, hblanks, _, hP _, hQ⟩

theorem Separator.completable (hseparator : Separator s s₁) (hQ : Completable Q s₁ r) :
    Completable (fun s' rest' => ∃ s₁', Separator s' s₁' ∧ Q s₁' rest') s r := by
  obtain rfl | hsurvives := hseparator.eq_or_survives (r := r)
  · exact hQ.mono fun _ hQ => ⟨_, .none, hQ⟩
  · exact hsurvives.completable hQ

theorem closeParen_token (hs : Blanks s (')' :: rest)) : Symbol.closeParen.Token s rest :=
  Symbol.token_of_sign (by decide) (by decide) hs

/-- In parentheses the completion closes them. -/
theorem Completable.closed (h : Completable P s r) :
    Completable (fun s' rest' => ∃ s₁', P s' s₁' ∧ Symbol.closeParen.Token s₁' rest') s r := by
  obtain ⟨hr, a, t, hs, ha, h⟩ := h
  refine ⟨hr, a, t ++ [')'], hs, ha, fun e he => ?_⟩
  obtain ⟨rest, hblanks, hP⟩ := h (')' :: e) (.inr ⟨e, closeParen_token (Blanks.refl _)⟩)
  refine ⟨e, Blanks.refl e, rest, ?_, closeParen_token hblanks⟩
  rwa [List.append_assoc]

/-- A parenthesis that follows at once survives. -/
theorem survives_adjacentParen (s : List Char) :
    Survives r (fun s' rest' => s' = '(' :: rest') ('(' :: s) s := by
  rintro a rfl ha
  exact ⟨'(' :: a, rfl, seam_cons_of_sign (by decide) ha, ⟨'(', List.mem_cons_self, by decide⟩,
    fun t => rfl⟩

/-- The name of an atom survives as one. -/
theorem survives_predicate {p : Name} (hname : NameToken p s s₁) (hfree : ¬BeginsReserved s) :
    Survives r (fun s' rest' => NameToken p s' rest' ∧ ¬BeginsReserved s') s s₁ := by
  intro a hs₁ ha
  obtain ⟨a₀, rfl, hseam, hsolid, hname⟩ := hname.survives a hs₁ ha
  exact ⟨a₀, rfl, hseam, hsolid, fun t => ⟨hname t, not_beginsReserved_gap hfree hsolid hseam t⟩⟩

end Completions

/-! ### Where the reader is stuck -/

/-- A formula can be read here. -/
def Readable (calculus : Calculus) (levels : List Level) (s rest : List Char) : Prop :=
  ∃ φ, Yields (readOperation calculus levels s) φ rest

/-- Readings of texts shorter than `n` can be completed where they are stuck. -/
def CompletableBelow (calculus : Calculus) (n : Nat) : Prop :=
  ∀ s : List Char, s.length < n → ∀ (levels : List Level) (stuck : Stuck),
    readOperation calculus levels s = .error stuck →
      Completable (Readable calculus levels) s stuck.rest

section Stuck

variable {calculus : Calculus} {c : Connective} {levels tighter : List Level}
  {φ left : Formula} {x : Name}
  {stuck : Stuck} {s s₁ rest : List Char} {n : Nat}

theorem readable_nil_iff :
    Readable calculus [] s rest ↔ ∃ φ, Yields (readPrefixed calculus s) φ rest := by
  rw [Readable]
  simp only [readOperation_nil]

/-- In front of the end of a phrase, a level is content with a single operand. -/
theorem Readable.cons (h : Readable calculus tighter s rest) (hends : EndsPhrase rest)
    (level : Level) :
    Readable calculus (level :: tighter) s rest := by
  obtain ⟨φ, hleft⟩ := h
  have hnone (c : Connective) := connective_read?_of_endsPhrase (c := c) hends
  obtain ⟨c, associativity⟩ := level
  cases associativity with
  | left =>
    exact ⟨φ, yields_left_iff.mpr ⟨φ, rest, hleft, yields_chain_iff.mpr (.inl ⟨rfl, rfl, hnone c⟩)⟩⟩
  | right => exact ⟨φ, yields_right_iff.mpr ⟨φ, rest, hleft, .inl ⟨rfl, rfl, hnone c⟩⟩⟩

theorem readable_top (hs : Blanks s ('⊤' :: rest)) (hends : EndsPhrase rest) (levels : List Level) :
    Readable calculus levels s rest := by
  induction levels with
  | nil =>
    exact readable_nil_iff.mpr ⟨.top, yields_top (Symbol.token_of_sign (by decide) (by decide) hs)⟩
  | cons level tighter ih => exact ih.cons hends level

theorem nameToken_x (hs : Blanks s ('x' :: rest)) (hrest : continuesName rest = false) :
    NameToken "x" s rest :=
  ⟨⟨'x', [], by decide, by decide, nofun⟩, hs, hrest⟩

/-- A reading that is over can be followed by nothing. -/
theorem completable_behind (h : Yields (readOperation calculus levels s) φ s₁) :
    Completable (fun s' rest' => Yields (readOperation calculus levels s') φ rest') s
      (skipBlanks s₁) := by
  obtain ⟨blanks, hblanks, hs₁⟩ := blanks_skipBlanks s₁
  obtain ⟨a, hs, hseam, -, hkept⟩ := yields_kept (hs₁ ▸ h) (seam_of_isBlank hblanks _)
  refine ⟨skipBlanks_skipBlanks s₁, a, [], hs, hseam, fun e he => ?_⟩
  have hrest : Blanks (blanks ++ ' ' :: e) e :=
    Blanks.trans ⟨blanks, hblanks, rfl⟩ (blanks_cons_of_space e)
  exact ⟨_, hrest, hkept e (.inr (he.of_blanks hrest))⟩

/-- An argument list can be completed wherever it is stuck. -/
theorem completable_arguments (h : readArguments s = .error stuck) :
    Completable (fun s' rest' => ∃ xs, Arguments s' xs rest') s stuck.rest := by
  induction hn : s.length using Nat.strongRecOn generalizing s with
  | _ n ih =>
    subst hn
    rcases stuck_readArguments_iff.mp h with
      ⟨-, rfl⟩ | ⟨x, s₁, hname, ⟨-, -, rfl⟩ | ⟨s₂, hcomma, hothers⟩⟩
    · refine completable_here ['x', ')'] s fun _ hs => ?_
      exact ⟨_, .last (nameToken_x hs (continuesName_of_sign (by decide)))
        (closeParen_token (Blanks.refl _))⟩
    · have hclose : Completable Symbol.closeParen.Token s₁ (skipBlanks s₁) :=
        completable_here [')'] s₁ fun _ hs => closeParen_token hs
      refine (hname.survives.completable hclose).mono fun _ => ?_
      rintro ⟨s₁, hname, hclose⟩
      exact ⟨_, .last hname hclose⟩
    · have hothers := ih _ (Nat.lt_trans hcomma.length_lt hname.length_lt) hothers rfl
      refine (hname.survives.completable (hcomma.survives.completable hothers)).mono fun _ => ?_
      rintro ⟨s₁, hname, s₂, hcomma, xs, hothers⟩
      exact ⟨_, .more hname hcomma hothers⟩

theorem completable_atom
    (free : ∀ symbol : Symbol, symbol.beginsFormula = true → symbol.read? s = none)
    (h : readPrefixed calculus s = .error stuck) :
    Completable (Readable calculus []) s stuck.rest := by
  rw [readPrefixed_of_free free] at h
  obtain ⟨-, rfl⟩ | ⟨p, s₁, hname, s₂, rfl, ⟨rfl, rfl⟩ | ⟨rfl, hargs⟩⟩ := stuck_readAtom_iff.mp h
  · exact completable_here ['⊤'] s fun hends hs => readable_top hs hends []
  · -- without the argument list the name is a letter
    have hblank : Completable (fun s' rest' => s' = rest' ∧ s'.head? ≠ some '(') ('(' :: s₂)
        (skipBlanks ('(' :: s₂)) := by
      rw [skipBlanks_cons (by decide)]
      refine ⟨skipBlanks_cons (by decide), [], [], rfl, seam_nil _, fun e _ => ?_⟩
      exact ⟨' ' :: e, blanks_cons_of_space e, rfl, by simp⟩
    refine ((survives_predicate hname (not_beginsReserved_of_free free)).completable hblank).mono
      fun _ => ?_
    rintro ⟨_, ⟨hname, hfree⟩, rfl, hhead⟩
    exact readable_nil_iff.mpr
      ⟨_, yields_atom hname hfree (yields_readAtom_iff.mpr ⟨p, .inl ⟨hname, hhead, rfl⟩⟩)⟩
  · have hlist := (survives_adjacentParen s₂).completable (completable_arguments hargs)
    refine ((survives_predicate hname (not_beginsReserved_of_free free)).completable hlist).mono
      fun _ => ?_
    rintro ⟨_, ⟨hname, hfree⟩, s₂, rfl, xs, hargs⟩
    have hatom := yields_readAtom_iff.mpr ⟨p, .inr ⟨s₂, xs, rfl, hname, hargs, rfl⟩⟩
    exact readable_nil_iff.mpr ⟨_, yields_atom hname hfree hatom⟩

theorem completable_quantifier {q : Quantifier} (below : CompletableBelow calculus s.length)
    (sign : (Symbol.quantifier q).Token s s₁) (h : readPrefixed calculus s = .error stuck) :
    Completable (Readable calculus []) s stuck.rest := by
  rcases (stuck_quantifier_iff sign).mp h with ⟨-, rfl⟩ | ⟨rfl, hstuck⟩
  · exact completable_here ['⊤'] s fun hends hs => readable_top hs hends []
  · have hvariable :
        Completable (fun s' rest' => ∃ x s₂, NameToken x s' s₂ ∧ ∃ s₃, Separator s₂ s₃ ∧
        Readable .predicate Level.all s₃ rest') s₁ stuck.rest := by
      rcases hstuck with ⟨-, rfl⟩ | ⟨x, s₂, bound, hbody⟩
      · refine completable_here ['x', '⊤'] s₁ fun hends hs => ?_
        exact ⟨"x", _, nameToken_x hs (continuesName_of_sign (by decide)), _, .none,
          readable_top (Blanks.refl _) hends Level.all⟩
      · have hbody := below _ (length_skipSeparator_lt sign bound) Level.all stuck hbody
        exact (bound.survives.completable ((separator_skipSeparator s₂).completable hbody)).mono
          fun _ h => ⟨x, h⟩
    refine (sign.survives.completable hvariable).mono fun _ => ?_
    rintro ⟨s₁, hsign, x, s₂, hbound, s₃, hseparator, ψ, hbody⟩
    rw [← skipSeparator_eq_of_separator hseparator (beginsFormula_of_yields hbody)] at hbody
    exact readable_nil_iff.mpr ⟨_, yields_quantified hsign hbound hbody⟩

theorem completable_readPrefixed (below : CompletableBelow calculus s.length)
    (h : readPrefixed calculus s = .error stuck) :
    Completable (Readable calculus []) s stuck.rest := by
  cases opening s with
  | not sign =>
    rw [readPrefixed_of_not sign, passOn_eq_error_iff, ← readOperation_nil] at h
    refine (sign.survives.completable (below _ sign.length_lt [] stuck h)).mono fun _ => ?_
    rintro ⟨s₁, hsign, hinner⟩
    obtain ⟨φ, hinner⟩ := readable_nil_iff.mp hinner
    exact readable_nil_iff.mpr ⟨_, yields_not hsign hinner⟩
  | quantifier sign => exact completable_quantifier below sign h
  | @openParen s₁ sign =>
    have hinner : Completable (Readable calculus Level.all) s₁ stuck.rest := by
      rcases (stuck_openParen_iff sign).mp h with hinner | ⟨φ, s₂, hinner, -, rfl⟩
      · exact below _ sign.length_lt Level.all stuck hinner
      · exact (completable_behind hinner).mono fun _ h => ⟨φ, h⟩
    refine (sign.survives.completable hinner.closed).mono fun _ => ?_
    rintro ⟨s₁, hsign, s₂, ⟨φ, hinner⟩, hclose⟩
    exact readable_nil_iff.mpr ⟨φ, yields_parentheses hsign hinner hclose⟩
  | @bottom s₁ sign =>
    have hread : Yields (readPrefixed calculus s) .bottom s₁ := yields_bottom sign
    rw [h] at hread
    exact absurd hread not_yields_error
  | @top s₁ sign =>
    have hread : Yields (readPrefixed calculus s) .top s₁ := yields_top sign
    rw [h] at hread
    exact absurd hread not_yields_error
  | atom free => exact completable_atom free h

/-- A chain that is stuck goes on with its sign, and can be completed behind that. -/
theorem exists_completable_chain (below : CompletableBelow calculus n) (hs : s.length < n)
    (h : readChain calculus c tighter left s = .error stuck) :
    ∃ s₁, (Symbol.connective c).Token s s₁ ∧ Completable (fun s' rest' => ∃ ψ s₂ φ,
      Yields (readOperation calculus tighter s') ψ s₂ ∧
        Yields (readChain calculus c tighter (.binary c left ψ) s₂) φ rest') s₁ stuck.rest := by
  induction hn : s.length using Nat.strongRecOn generalizing s left with
  | _ m ih =>
    subst hn
    obtain ⟨s₁, hsign, ⟨stuck', hright, rfl⟩ | ⟨ψ, s₂, hright, hchain⟩⟩ := stuck_chain_iff.mp h
    · refine ⟨s₁, hsign, (below s₁ (Nat.lt_trans hsign.length_lt hs) tighter stuck' hright).mono ?_⟩
      rintro s' rest' hends ⟨ψ, hright⟩
      exact ⟨ψ, rest', _, hright,
        yields_chain_iff.mpr (.inl ⟨rfl, rfl, connective_read?_of_endsPhrase hends⟩)⟩
    · have hlt : s₂.length < s.length := Nat.lt_trans hright.length_lt hsign.length_lt
      obtain ⟨s₃, hnext, hcompletable⟩ := ih _ hlt (Nat.lt_trans hlt hs) hchain rfl
      refine ⟨s₁, hsign, ((survives_operand hright hnext).completable hcompletable).mono
        fun _ => ?_⟩
      rintro ⟨s₃, ⟨s₂, hright, hnext⟩, χ, s₄, φ, hoperand, hchain⟩
      exact ⟨ψ, s₂, φ, hright, yields_chain_iff.mpr (.inr ⟨s₃, χ, s₄, hnext, hoperand, hchain⟩)⟩

/-- **Wherever the reader is stuck, the text up to there can be completed.** -/
theorem completable_of_stuck (h : readOperation calculus levels s = .error stuck) :
    Completable (Readable calculus levels) s stuck.rest := by
  induction hn : s.length using Nat.strongRecOn generalizing s levels stuck with
  | _ n ih =>
    subst hn
    have below : CompletableBelow calculus s.length := fun s' hs' _ _ h => ih _ hs' h rfl
    induction levels generalizing stuck with
    | nil =>
      rw [readOperation_nil] at h
      exact completable_readPrefixed below h
    | cons level tighter ihl =>
      obtain ⟨c, associativity⟩ := level
      cases associativity with
      | left =>
        rcases stuck_left_iff.mp h with hleft | ⟨ψ, s₁, hleft, hchain⟩
        · exact (ihl hleft).mono fun hends h => h.cons hends _
        · obtain ⟨s₂, hsign, hcompletable⟩ := exists_completable_chain below hleft.length_lt hchain
          refine ((survives_operand hleft hsign).completable hcompletable).mono fun _ => ?_
          rintro ⟨s₂, ⟨s₁, hleft, hsign⟩, χ, s₃, φ, hright, hchain⟩
          exact ⟨φ, yields_left_iff.mpr
            ⟨ψ, s₁, hleft, yields_chain_iff.mpr (.inr ⟨s₂, χ, s₃, hsign, hright, hchain⟩)⟩⟩
      | right =>
        rcases stuck_right_iff.mp h with hleft | ⟨ψ, s₁, hleft, s₂, hsign, stuck', hright, rfl⟩
        · exact (ihl hleft).mono fun hends h => h.cons hends _
        · have hright := below s₂ (Nat.lt_trans hsign.length_lt hleft.length_lt) _ stuck' hright
          refine ((survives_operand hleft hsign).completable hright).mono fun _ => ?_
          rintro ⟨s₂, ⟨s₁, hleft, hsign⟩, χ, hright⟩
          exact ⟨_, yields_right_iff.mpr ⟨ψ, s₁, hleft, .inr ⟨s₂, χ, hsign, hright, rfl⟩⟩⟩

end Stuck

/-! ### Whole texts -/

section Texts

variable {calculus : Calculus} {stuck : Stuck} {error : SyntaxError} {text : String}
  {a s : List Char}

/-- What is left where the reading of a text is stuck can be replaced so that the text is read. -/
theorem exists_read_of_stuck (h : Formula.read calculus s = .error stuck) :
    skipBlanks stuck.rest = stuck.rest ∧
      ∃ a t φ, s = a ++ stuck.rest ∧ Formula.parse calculus (String.ofList (a ++ t)) = .ok φ := by
  have hcompletable : Completable (Readable calculus Level.all) s stuck.rest := by
    rw [Formula.read] at h
    cases hread : readOperation calculus Level.all s with
    | error other =>
      rw [hread] at h
      exact Except.error.inj h ▸ completable_of_stuck hread
    | ok parsed =>
      have hyields : Yields (readOperation calculus Level.all s) parsed.value parsed.rest :=
        ⟨parsed.length_lt, hread⟩
      have hrest : stuck.rest = skipBlanks parsed.rest := by
        simp only [hread] at h
        split at h
        · cases h
        · exact (congrArg Stuck.rest (Except.error.inj h)).symm
      exact hrest ▸ (completable_behind hyields).mono fun _ h => ⟨_, h⟩
  obtain ⟨hrest, a, t, hs, -, h⟩ := hcompletable
  obtain ⟨rest, hblanks, φ, hyields⟩ := h [] (.inl (Blanks.refl _))
  refine ⟨hrest, a, ' ' :: (t ++ []), φ, hs, Formula.parse_eq_ok_iff_yields.mpr ⟨rest, ?_, ?_⟩⟩
  · rwa [String.toList_ofList]
  · exact hblanks.skipBlanks_eq

theorem Text.utf8ByteSize_ofList (s : List Char) :
    (String.ofList s).utf8ByteSize = utf8Length s := by
  induction s with
  | nil => rfl
  | cons c s ih =>
    rw [String.ofList_cons, String.utf8ByteSize_append, String.utf8ByteSize_singleton, ih]
    rfl

theorem Text.utf8Length_append (s t : List Char) :
    utf8Length (s ++ t) = utf8Length s + utf8Length t := by
  rw [← utf8ByteSize_ofList, String.ofList_append, String.utf8ByteSize_append, utf8ByteSize_ofList,
    utf8ByteSize_ofList]

/-- A reader that is stuck in front of what is left points there. -/
theorem position_locate (stuck : Stuck) (a : List Char) :
    (stuck.locate (a ++ stuck.rest)).position = (String.ofList a).utf8ByteSize := by
  rw [Stuck.locate, utf8Length_append, utf8ByteSize_ofList, Nat.add_sub_cancel]

/-- The span of an error is one character, or empty at the end of the text. -/
theorem stop_locate (stuck : Stuck) (a : List Char) :
    (stuck.locate (a ++ stuck.rest)).stop =
      (String.ofList a ++ String.ofList (stuck.rest.take 1)).utf8ByteSize := by
  rw [SyntaxError.stop, position_locate, String.utf8ByteSize_append,
    utf8ByteSize_ofList (stuck.rest.take 1), Stuck.locate]
  cases stuck.rest with
  | nil => rfl
  | cons c rest => rfl

theorem stop_eq_position_iff (stuck : Stuck) (a : List Char) :
    (stuck.locate (a ++ stuck.rest)).stop = (stuck.locate (a ++ stuck.rest)).position ↔
      (stuck.locate (a ++ stuck.rest)).position = utf8Length (a ++ stuck.rest) := by
  rw [stop_locate, position_locate, String.utf8ByteSize_append, utf8Length_append,
    utf8ByteSize_ofList a, utf8ByteSize_ofList (stuck.rest.take 1)]
  cases stuck.rest with
  | nil => exact iff_of_true rfl rfl
  | cons c rest =>
    have hpos := c.utf8Size_pos
    have hone : utf8Length [c] = c.utf8Size := rfl
    have hrest : utf8Length (c :: rest) = c.utf8Size + utf8Length rest := rfl
    rw [List.take_succ_cons, List.take_zero, hone, hrest]
    omega

/-- **Errors point at the first token that the formula cannot go on with.** They point at a
character that is no blank, or at the end of the text, and what stands in front of it is the
beginning of a formula. -/
theorem Formula.parse_error_points (h : Formula.parse calculus text = .error error) :
    ∃ before after : String, text = before ++ after ∧
      (error.position = before.utf8ByteSize ∧ error.position ≤ text.utf8ByteSize ∧
        (⟨error.position⟩ : String.Pos.Raw).IsValid text) ∧
      (error.found = after.toList.head? ∧ ∀ c, error.found = some c → isBlank c = false) ∧
      (error.stop = (before ++ String.ofList (after.toList.take 1)).utf8ByteSize ∧
        (error.stop = error.position ↔ error.position = text.utf8ByteSize)) ∧
      ∃ continuation φ, Formula.parse calculus (before ++ continuation) = .ok φ := by
  obtain ⟨stuck, hread, rfl⟩ := parse_eq_error_iff.mp h
  obtain ⟨hblank, a, t, φ, hs, hparse⟩ := exists_read_of_stuck hread
  have htext : text = String.ofList a ++ String.ofList stuck.rest := by
    rw [← String.ofList_append, ← hs, String.ofList_toList]
  have hposition := hs ▸ position_locate stuck a
  have hsize : text.utf8ByteSize = utf8Length text.toList := by
    rw [← utf8ByteSize_ofList, String.ofList_toList]
  refine ⟨String.ofList a, String.ofList stuck.rest, htext, ⟨hposition, ?_, ?_⟩, ⟨?_, ?_⟩,
    ⟨?_, ?_⟩, ?_⟩
  · rw [hposition, htext, String.utf8ByteSize_append]
    exact Nat.le_add_right _ _
  · exact String.Pos.Raw.isValid_iff_exists_append.mpr ⟨_, _, htext, congrArg _ hposition⟩
  · rw [String.toList_ofList]
    rfl
  · intro c hc
    obtain ⟨rest, hrest⟩ := List.head?_eq_some_iff.mp hc
    exact isBlank_of_skipBlanks_eq_cons (hblank.trans hrest)
  · rw [String.toList_ofList]
    exact hs ▸ stop_locate stuck a
  · rw [hsize]
    exact hs ▸ stop_eq_position_iff stuck a
  · exact ⟨String.ofList t, φ, by rwa [← String.ofList_append]⟩

/-- An argument is missing behind a comma. Positions count bytes, and the quantifier takes
three of them. -/
theorem Formula.missing_argument_completed :
    Formula.parse .predicate "∀x.P(x, ) ∧" = .error ⟨10, .name, some ')'⟩ ∧
      ∃ before after : String, "∀x.P(x, ) ∧" = before ++ after ∧ before.utf8ByteSize = 10 ∧
        ∃ continuation φ, Formula.parse .predicate (before ++ continuation) = .ok φ := by
  have hparse : Formula.parse .predicate "∀x.P(x, ) ∧" = .error ⟨10, .name, some ')'⟩ := by
    decide +kernel
  obtain ⟨before, after, htext, ⟨hposition, -, -⟩, -, -, hviable⟩ := parse_error_points hparse
  exact ⟨hparse, before, after, htext, hposition.symm, hviable⟩

end Texts

end NaturalDeduction
