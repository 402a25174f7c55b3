import NaturalDeduction.Formula.Printer
import NaturalDeduction.Proofs.Formula.Recognition

/-!
# Reading what was written

The canonical text of a formula writes that formula again. The proof stays in the grammar: it builds
a phrase along the formula and leaves it to the reader to recognise it.

## What has to be shown

The printer leaves parentheses out in three places, and each has its own reason.

* An operand that is an atom, a constant or a negation chain over them ends where a blank or a
  parenthesis follows. A blank is enough to keep the letter `_` in `_ ∨ P` from being read as the
  beginning of `_|_`.
* A negation takes a quantification without parentheses, and a quantification any body. Both reach
  as far as they can, so nothing but a closing parenthesis may follow: that is why such formulas get
  parentheses as operands.
* The names in an argument list and behind a quantifier may be any identifiers, while a predicate
  may not be called `forall` or `exists`, which begin a quantification there.

## Main definitions

* `Formula.HasIdentifiers`: every name of the formula can be written in its place
* `Formula.IsPropositional`: the formula has neither quantifiers nor argument lists
* `Formula.Rereads`: the canonical text writes the formula, wherever it may stand

## Main results

* `Formula.rereads`: canonical texts write their formulas
* `Formula.parse_render_eq`: reading undoes writing
* `Formula.writable_of_parse`: whatever is read can be written
-/

namespace NaturalDeduction

/-! ### Formulas that can be written -/

namespace Formula

/-- Every name is an identifier, and no predicate is called like a quantifier. -/
def HasIdentifiers : Formula → Prop
  | atom p args => IsIdentifier p ∧ p ≠ "forall" ∧ p ≠ "exists" ∧ ∀ x ∈ args, IsIdentifier x
  | not φ => φ.HasIdentifiers
  | binary _ φ ψ => φ.HasIdentifiers ∧ ψ.HasIdentifiers
  | quantified _ x φ => IsIdentifier x ∧ φ.HasIdentifiers
  | bottom | top => True

/-- There is neither a quantifier nor an argument list. -/
def IsPropositional : Formula → Prop
  | atom _ args => args = []
  | not φ => φ.IsPropositional
  | binary _ φ ψ => φ.IsPropositional ∧ ψ.IsPropositional
  | quantified .. => False
  | bottom | top => True

end Formula

/-! ### Tokens of a canonical text -/

section Tokens

variable {p x : Name} {s rest rest' : List Char}

/-- No name goes on with a sign. -/
theorem continuesName_of_sign {c : Char} (hc : isNameChar c = false) :
    continuesName (c :: rest) = false := hc

/-- A symbol is written by any of its spellings that is a sign and not a word. -/
theorem Symbol.token_of_sign {symbol : Symbol} {c : Char} (h : [c] ∈ symbol.spellings)
    (hc : isNameChar c = false) (hs : Text.Blanks s (c :: rest)) : symbol.Token s rest :=
  ⟨_, hs, [c], h, rfl, fun hword => absurd hword.1 (by simp [hc])⟩

/-- The spellings of a symbol that is read before a name: two words, two signs that a name can
begin, and signs that no name begins. -/
theorem Symbol.spelling_of_isReserved {symbol : Symbol} {spelling : List Char}
    (h : spelling ∈ symbol.spellings) (hreserved : symbol.isReserved = true) :
    (spelling = "forall".toList ∨ spelling = "exists".toList) ∨ spelling = "_|_".toList ∨
      spelling.head?.any isNameStart = false := by
  have table : ∀ symbol ∈ all, symbol.isReserved = true → ∀ spelling ∈ symbol.spellings,
      (spelling = "forall".toList ∨ spelling = "exists".toList) ∨ spelling = "_|_".toList ∨
        spelling.head?.any isNameStart = false := by decide +kernel
  exact table symbol (mem_all symbol) hreserved spelling h

/-- A name is not mistaken for a quantifier or a constant unless it is one, or the lower half of a
typed contradiction. -/
theorem NameToken.not_beginsReserved (h : NameToken p s rest) (hforall : p ≠ "forall")
    (hexists : p ≠ "exists") (hbar : rest.head? ≠ some '|') : ¬BeginsReserved s := by
  rintro ⟨symbol, rest', hreserved, htoken⟩
  obtain ⟨⟨c, tail, htext, hc, -⟩, hs, -⟩ := nameToken_iff.mp h
  obtain ⟨spelling, hspelling, hs', hends⟩ := Symbol.token_iff.mp htoken
  rcases Symbol.spelling_of_isReserved hspelling hreserved with hword | rfl | hsign
  · -- the name would be the word itself, since both go on as far as they can
    have same {word : Name} (hidentifier : IsIdentifier word) (hword : spelling = word.toList)
        (hlast : word.toList.getLast?.any isNameChar = true) : p = word := by
      subst hword
      have hstop : continuesName rest' = false := by
        rw [← Bool.not_eq_true]
        exact fun hgoes => hends ⟨hlast, hgoes⟩
      exact (h.unique (nameToken_iff.mpr ⟨hidentifier, hs', hstop⟩)).1
    rcases hword with hword | hword
    · exact hforall
        (same ⟨'f', "orall".toList, by decide, by decide, List.all_eq_true.mp (by decide)⟩ hword
        (by decide))
    · exact hexists
        (same ⟨'e', "xists".toList, by decide, by decide, List.all_eq_true.mp (by decide)⟩ hword
        (by decide))
  · have hunderscore : NameToken "_" s ('|' :: '_' :: rest') :=
      nameToken_iff.mpr
        ⟨⟨'_', [], by decide, by decide, nofun⟩, hs', continuesName_of_sign (by decide)⟩
    rw [(h.unique hunderscore).2] at hbar
    exact hbar rfl
  · cases spelling with
    | nil => exact Symbol.spellings_ne_nil hspelling rfl
    | cons d spelling =>
      rw [hs, htext, List.cons_append, List.cons_append, List.cons.injEq] at hs'
      rw [← hs'.1] at hsign
      simp [hc] at hsign

/-- The words of the quantifiers are reserved. -/
theorem beginsReserved_of_word {q : Quantifier} (hx : x.toList ∈ (Symbol.quantifier q).spellings)
    (h : NameToken x s rest) : BeginsReserved s := by
  obtain ⟨-, hblanks, hstop⟩ := h
  refine ⟨.quantifier q, rest, rfl, _, hblanks, _, hx, rfl, ?_⟩
  exact fun hword => absurd hword.2 (by simp [hstop])

/-- Of an identifier that is not mistaken for something else, a sentence letter or a
predicate can be made. -/
theorem NameToken.hasIdentifiers (h : NameToken p s rest) (free : ¬BeginsReserved s)
    {args : List Name} (hargs : ∀ x ∈ args, IsIdentifier x) :
    (Formula.atom p args).HasIdentifiers := by
  refine ⟨h.1, ?_, ?_, hargs⟩
  · rintro rfl
    exact free (beginsReserved_of_word (q := .forAll) (by decide) h)
  · rintro rfl
    exact free (beginsReserved_of_word (q := .forSome) (by decide) h)

end Tokens

/-! ### What is read can be written -/

section Writable

variable {calculus : Calculus} {rank : Rank} {φ : Formula} {args : List Name} {s rest : List Char}

theorem Arguments.isIdentifier (h : Arguments s args rest) : ∀ x ∈ args, IsIdentifier x := by
  induction h with
  | last name close => simpa using name.1
  | more name comma others ih => exact List.forall_mem_cons.mpr ⟨name.1, ih⟩

theorem Phrase.hasIdentifiers (h : Phrase calculus rank s φ rest) : φ.HasIdentifiers := by
  induction h with
  | iff _ _ _ ihl ihr | implies _ _ _ ihl ihr | or _ _ _ ihl ihr | and _ _ _ ihl ihr =>
    exact ⟨ihl, ihr⟩
  | ofImplication _ ih | ofDisjunction _ ih | ofConjunction _ ih | ofPrefixed _ ih => exact ih
  | not _ _ ih | parentheses _ _ _ ih => exact ih
  | quantified _ _ bound _ _ _ ih => exact ⟨bound.1, ih⟩
  | bottom | top => trivial
  | letter name free => exact name.hasIdentifiers free nofun
  | application _ name free arguments => exact name.hasIdentifiers free arguments.isIdentifier

theorem Phrase.isPropositional (h : Phrase .propositional rank s φ rest) : φ.IsPropositional := by
  induction h with
  | iff _ _ _ ihl ihr | implies _ _ _ ihl ihr | or _ _ _ ihl ihr | and _ _ _ ihl ihr =>
    exact ⟨ihl, ihr⟩
  | ofImplication _ ih | ofDisjunction _ ih | ofConjunction _ ih | ofPrefixed _ ih => exact ih
  | not _ _ ih | parentheses _ _ _ ih => exact ih
  | quantified predicate | application predicate => exact absurd predicate nofun
  | bottom | top => trivial
  | letter => exact rfl

end Writable

/-! ### Canonical texts are writings -/

section Rereading

variable {calculus : Calculus} {c : Connective} {φ ψ : Formula} {s s₁ s₂ rest : List Char}

/-- A blank, a closing parenthesis or nothing follows. -/
def EndsOperand (rest : List Char) : Prop := ∀ c ∈ rest.head?, c = ' ' ∨ c = ')'

/-- A closing parenthesis or nothing follows. -/
def EndsFormula (rest : List Char) : Prop := ∀ c ∈ rest.head?, c = ')'

theorem EndsFormula.endsOperand (h : EndsFormula rest) : EndsOperand rest :=
  fun c hc => .inr (h c hc)

theorem endsFormula_close (rest : List Char) : EndsFormula (')' :: rest) := by
  simp [EndsFormula]

theorem EndsFormula.endsPhrase (h : EndsFormula rest) : EndsPhrase rest := by
  cases rest with
  | nil => exact .inl (Text.Blanks.refl [])
  | cons c rest =>
    obtain rfl : c = ')' := h c rfl
    exact .inr ⟨rest, Symbol.token_of_sign (by decide) (by decide) (Text.Blanks.refl _)⟩

/-- A name ends in front of what may follow an operand. -/
theorem EndsOperand.nameToken {x : Name} (h : EndsOperand rest) (hx : IsIdentifier x)
    (hs : Text.Blanks s (x.toList ++ rest)) : NameToken x s rest := by
  refine ⟨hx, hs, ?_⟩
  cases rest with
  | nil => rfl
  | cons c rest =>
    refine continuesName_of_sign ?_
    rcases h c rfl with rfl | rfl <;> decide

theorem EndsOperand.head?_ne (h : EndsOperand rest) : rest.head? ≠ some '|' := by
  intro hbar
  rcases h '|' hbar with hc | hc <;> exact absurd hc (by decide)

/-- A phrase that holds together tightly is a phrase of any rank. -/
theorem Phrase.ofRank (h : Phrase calculus .prefixed s φ rest) (rank : Rank) :
    Phrase calculus rank s φ rest := by
  have hconjunction := Phrase.ofPrefixed h
  have hdisjunction := Phrase.ofConjunction hconjunction
  have himplication := Phrase.ofDisjunction hdisjunction
  cases rank with
  | biconditional => exact .ofImplication himplication
  | implication => exact himplication
  | disjunction => exact hdisjunction
  | conjunction => exact hconjunction
  | prefixed => exact h

/-- Any connective may stand between two operands that hold together tightly. -/
theorem Phrase.binary (left : Phrase calculus .prefixed s φ s₁)
    (sign : (Symbol.connective c).Token s₁ s₂) (right : Phrase calculus .prefixed s₂ ψ rest) :
    Phrase calculus .biconditional s (.binary c φ ψ) rest := by
  cases c with
  | and =>
    exact .ofImplication (.ofDisjunction (.ofConjunction (.and (left.ofRank _) sign right)))
  | or => exact .ofImplication (.ofDisjunction (.or (left.ofRank _) sign (right.ofRank _)))
  | implies => exact .ofImplication (.implies (left.ofRank _) sign (right.ofRank _))
  | iff => exact .iff (left.ofRank _) sign (right.ofRank _)

theorem Connective.sign_mem_spellings (c : Connective) :
    [c.sign] ∈ (Symbol.connective c).spellings ∧ isNameChar c.sign = false := by
  cases c <;> decide

theorem Quantifier.sign_mem_spellings (q : Quantifier) :
    [q.sign] ∈ (Symbol.quantifier q).spellings ∧ isNameChar q.sign = false := by
  cases q <;> decide

theorem blanks_cons_of_space (s : List Char) : Text.Blanks (' ' :: s) s :=
  ⟨[' '], List.forall_mem_singleton.mpr (by decide), rfl⟩

/-- The written argument list is an argument list. -/
theorem arguments_writeNames {args : List Name} (hne : args ≠ [])
    (hargs : ∀ x ∈ args, IsIdentifier x)
    (hs : Text.Blanks s (Formula.writeNames args ++ ')' :: rest)) : Arguments s args rest := by
  induction args generalizing s with
  | nil => exact absurd rfl hne
  | cons x others ih =>
    obtain ⟨hx, hothers⟩ := List.forall_mem_cons.mp hargs
    cases others with
    | nil =>
      refine .last ((endsFormula_close rest).endsOperand.nameToken hx hs) ?_
      exact Symbol.token_of_sign (by decide) (by decide) (Text.Blanks.refl _)
    | cons y others =>
      rw [Formula.writeNames, List.append_assoc, List.append_assoc] at hs
      · refine .more ⟨hx, hs, continuesName_of_sign (by decide)⟩
          (Symbol.token_of_sign (by decide) (by decide) (Text.Blanks.refl _)) ?_
        exact ih nofun hothers (blanks_cons_of_space _)
      · exact nofun

namespace Formula

/-- The canonical text writes the formula, in front of whatever may follow it there. -/
structure Rereads (calculus : Calculus) (φ : Formula) : Prop where
  /-- Without parentheses of its own, a formula that is not simple reaches as far as it can. -/
  tight {s rest : List Char} (hs : Text.Blanks s (φ.write ++ rest)) :
    φ.isBinary = false → φ.isSimple = true ∧ EndsOperand rest ∨ EndsFormula rest →
      Phrase calculus .prefixed s φ rest
  whole {s rest : List Char} (hs : Text.Blanks s (φ.write ++ rest)) (hrest : EndsFormula rest) :
    Phrase calculus .biconditional s φ rest

/-- A formula without a binary connective on the outside holds together tightly at any rank. -/
theorem rereads_of_tight (tight : ∀ {s rest : List Char}, Text.Blanks s (φ.write ++ rest) →
    φ.isSimple = true ∧ EndsOperand rest ∨ EndsFormula rest → Phrase calculus .prefixed s φ rest) :
    Rereads calculus φ where
  tight hs _ hrest := tight hs hrest
  whole hs hrest := (tight hs (.inr hrest)).ofRank _

/-- In parentheses a formula stands anywhere. -/
theorem Rereads.parenthesized (h : Rereads calculus φ)
    (hs : Text.Blanks s ('(' :: φ.write ++ [')'] ++ rest)) :
    Phrase calculus .prefixed s φ rest := by
  rw [List.append_assoc] at hs
  refine .parentheses (Symbol.token_of_sign (by decide) (by decide) hs)
    (h.whole (Text.Blanks.refl _) (endsFormula_close rest)) ?_
  exact Symbol.token_of_sign (by decide) (by decide) (Text.Blanks.refl _)

theorem isBinary_eq_false_of_isSimple (h : φ.isSimple = true) : φ.isBinary = false := by
  cases φ with
  | binary => cases h
  | _ => rfl

/-- A formula is written as an operand. -/
theorem Rereads.operand (h : Rereads calculus φ)
    (hs : Text.Blanks s (parenthesizeIf (!φ.isSimple) φ.write ++ rest)) (hrest : EndsOperand rest) :
    Phrase calculus .prefixed s φ rest := by
  cases hsimple : φ.isSimple with
  | true =>
    rw [hsimple, Bool.not_true, parenthesizeIf, if_neg nofun] at hs
    exact h.tight hs (isBinary_eq_false_of_isSimple hsimple) (.inl ⟨hsimple, hrest⟩)
  | false =>
    rw [hsimple, Bool.not_false, parenthesizeIf, if_pos rfl] at hs
    exact h.parenthesized hs

theorem rereads_atom {p : Name} {args : List Name} (hnames : (atom p args).HasIdentifiers)
    (hcalculus : calculus = .propositional → args = []) : Rereads calculus (atom p args) := by
  obtain ⟨hp, hforall, hexists, hargs⟩ := hnames
  refine rereads_of_tight fun {s rest} hs hrest => ?_
  replace hrest : EndsOperand rest := hrest.elim (·.2) (·.endsOperand)
  cases args with
  | nil =>
    have hname : NameToken p s rest := hrest.nameToken hp hs
    exact .letter hname (hname.not_beginsReserved hforall hexists hrest.head?_ne)
  | cons x others =>
    have hname : NameToken p s ('(' :: (writeNames (x :: others) ++ ')' :: rest)) :=
      ⟨hp, by simpa [write] using hs, continuesName_of_sign (by decide)⟩
    have hpredicate : calculus = .predicate := by
      cases calculus with
      | propositional => cases hcalculus rfl
      | predicate => rfl
    refine .application hpredicate hname (hname.not_beginsReserved hforall hexists (by simp)) ?_
    exact arguments_writeNames nofun hargs (Text.Blanks.refl _)

theorem rereads_not (h : Rereads calculus φ) : Rereads calculus (not φ) := by
  refine rereads_of_tight fun {s rest} hs hrest => ?_
  refine .not (Symbol.token_of_sign (by decide) (by decide) hs) ?_
  cases hbinary : φ.isBinary with
  | true =>
    refine h.parenthesized ?_
    simpa [parenthesizeIf] using Text.Blanks.refl _
  | false =>
    refine h.tight ?_ hbinary hrest
    simpa [parenthesizeIf] using Text.Blanks.refl _

theorem rereads_binary (hφ : Rereads calculus φ) (hψ : Rereads calculus ψ) :
    Rereads calculus (binary c φ ψ) where
  tight _ hbinary _ := nomatch hbinary
  whole {s rest} hs hrest := by
    rw [write, List.append_assoc, List.append_assoc] at hs
    have hsign := c.sign_mem_spellings
    refine .binary (hφ.operand hs (by simp [EndsOperand]))
      (Symbol.token_of_sign hsign.1 hsign.2 (blanks_cons_of_space _)) ?_
    exact hψ.operand (blanks_cons_of_space _) hrest.endsOperand

theorem rereads_quantified {q : Quantifier} {x : Name} (hx : IsIdentifier x)
    (h : Rereads .predicate φ) : Rereads .predicate (quantified q x φ) := by
  refine rereads_of_tight fun {s rest} hs hrest => ?_
  replace hrest : EndsFormula rest := hrest.resolve_left fun hsimple => absurd hsimple.1 nofun
  have hsign := q.sign_mem_spellings
  rw [write, List.append_assoc] at hs
  have hname : NameToken x (x.toList ++ (' ' :: φ.write ++ rest)) (' ' :: φ.write ++ rest) :=
    ⟨hx, Text.Blanks.refl _, continuesName_of_sign (by decide)⟩
  refine .quantified rfl (Symbol.token_of_sign hsign.1 hsign.2 hs) hname .none ?_ hrest.endsPhrase
  exact h.whole (blanks_cons_of_space _) hrest

/-- **Canonical texts write their formulas.** -/
theorem rereads (hnames : φ.HasIdentifiers)
    (hcalculus : calculus = .propositional → φ.IsPropositional) : Rereads calculus φ := by
  induction φ with
  | atom p args => exact rereads_atom hnames hcalculus
  | not φ ih => exact rereads_not (ih hnames hcalculus)
  | binary c φ ψ ihφ ihψ =>
    exact rereads_binary (ihφ hnames.1 fun h => (hcalculus h).1)
      (ihψ hnames.2 fun h => (hcalculus h).2)
  | quantified q x φ ih =>
    cases calculus with
    | propositional => exact (hcalculus rfl).elim
    | predicate => exact rereads_quantified hnames.1 (ih hnames.2 nofun)
  | bottom =>
    exact rereads_of_tight fun hs _ => .bottom (Symbol.token_of_sign (by decide) (by decide) hs)
  | top => exact rereads_of_tight fun hs _ => .top (Symbol.token_of_sign (by decide) (by decide) hs)

/-! ### Whole texts -/

/-- Reading undoes writing. -/
theorem parse_render_eq (hnames : φ.HasIdentifiers)
    (hcalculus : calculus = .propositional → φ.IsPropositional) :
    Formula.parse calculus φ.render = .ok φ := by
  rw [parse_eq_ok_iff, render, String.toList_ofList]
  have hwhole : Phrase calculus .biconditional φ.write φ [] :=
    (rereads hnames hcalculus).whole (by simpa using Text.Blanks.refl _) (by simp [EndsFormula])
  exact ⟨[], hwhole, Text.Blanks.refl _⟩

/-- A bound name that looks like a quantifier, and a letter that looks like half a contradiction. -/
example :
    Formula.parse .predicate "∀forall _ ∨ ⊥" = .ok (forAll "forall" (or (atom "_" []) bottom)) := by
  have hrender : (forAll "forall" (or (atom "_" []) bottom)).render = "∀forall _ ∨ ⊥" := by
    decide +kernel
  rw [← hrender]
  refine parse_render_eq ⟨?_, ⟨?_, by decide, by decide, nofun⟩, trivial⟩ nofun
  · exact ⟨'f', "orall".toList, by decide, by decide, List.all_eq_true.mp (by decide)⟩
  · exact ⟨'_', [], by decide, by decide, nofun⟩

/-- Whatever is read can be written. -/
theorem writable_of_parse {text : String} (h : Formula.parse calculus text = .ok φ) :
    φ.HasIdentifiers ∧ (calculus = .propositional → φ.IsPropositional) := by
  obtain ⟨rest, hphrase, -⟩ := parse_eq_ok_iff.mp h
  refine ⟨hphrase.hasIdentifiers, ?_⟩
  rintro rfl
  exact hphrase.isPropositional

end Formula

end Rereading

end NaturalDeduction
