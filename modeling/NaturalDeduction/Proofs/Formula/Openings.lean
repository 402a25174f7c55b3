import NaturalDeduction.Proofs.Formula.Readers

/-!
# What a phrase opens with

The next token decides how the reader goes on where a formula has to begin, and there are six ways:
a negation, a quantifier, a parenthesis, the two constants, or none of them, which leaves an atom.
For each way the reader is given by an equation, or by what it reads and where it is stuck.

Readings that fail are described here to the same extent as readings that succeed. The
operators that stand between formulas are treated alike: `stuck_right_iff`, `stuck_left_iff`
and `stuck_chain_iff` say when a level is stuck, as `yields_right_iff` and its companions say
what a level reads.

## Main definitions

* `Opening`: the six ways
* `passOn`: the answer of a reader that makes a part of another one's answer

## Main results

* `opening`: one of the six ways it is
* `readPrefixed_of_not` and the lemmas of that form, `yields_quantifier_iff`,
  `stuck_quantifier_iff`, `yields_openParen_iff`, `stuck_openParen_iff`: what the
  reader makes of each
* `stuck_readArguments_iff`, `stuck_readAtom_iff`: where atoms are stuck
* `beginsFormula_of_yields`: a reading that succeeds begins with a token that a
  formula can begin with
-/

namespace NaturalDeduction

/-! ### Answers that are passed on -/

section PassOn

variable {α β : Type} {m n : Nat}

/-- The answer of a reader that hands on what another one has read, as `f` makes it a part of
something larger, and hands on as well where that one is stuck. -/
def passOn (f : α → β) (h : m ≤ n) (result : Except Stuck (Parsed α m)) :
    Except Stuck (Parsed β n) :=
  result.map fun parsed => (parsed.map f).widen h

theorem yields_passOn_iff {f : α → β} {h : m ≤ n} {result : Except Stuck (Parsed α m)} {b : β}
    {rest : List Char} :
    Yields (passOn f h result) b rest ↔ ∃ a, Yields result a rest ∧ b = f a := by
  cases result with
  | error stuck =>
    refine iff_of_false not_yields_error ?_
    rintro ⟨a, ha, -⟩
    exact not_yields_error ha
  | ok parsed =>
    have hpassed : passOn f h (.ok parsed) = .ok ((parsed.map f).widen h) := rfl
    rw [hpassed, yields_ok_iff]
    constructor
    · rintro ⟨rfl, rfl⟩
      exact ⟨parsed.value, yields_ok_iff.mpr ⟨rfl, rfl⟩, rfl⟩
    · rintro ⟨a, ha, rfl⟩
      obtain ⟨rfl, rfl⟩ := yields_ok_iff.mp ha
      exact ⟨rfl, rfl⟩

theorem passOn_eq_error_iff {f : α → β} {h : m ≤ n} {result : Except Stuck (Parsed α m)}
    {stuck : Stuck} : passOn f h result = .error stuck ↔ result = .error stuck := by
  cases result <;> simp [passOn, Except.map]

end PassOn

/-- An answer that is no failure is the only one. -/
theorem exists_yields_ok_iff {α : Type} {n : Nat} {parsed : Parsed α n} {P : α → List Char → Prop} :
    (∃ a rest, Yields (.ok parsed) a rest ∧ P a rest) ↔ P parsed.value parsed.rest := by
  simp only [yields_ok_iff]
  constructor
  · rintro ⟨_, _, ⟨rfl, rfl⟩, h⟩
    exact h
  · exact fun h => ⟨_, _, ⟨rfl, rfl⟩, h⟩

/-! ### Openings -/

/-- What the next token makes of a phrase that begins here. -/
inductive Opening (s : List Char) : Prop
  | not {s₁ : List Char} (sign : Symbol.not.Token s s₁)
  | quantifier {q : Quantifier} {s₁ : List Char} (sign : (Symbol.quantifier q).Token s s₁)
  | openParen {s₁ : List Char} (sign : Symbol.openParen.Token s s₁)
  | bottom {s₁ : List Char} (sign : Symbol.bottom.Token s s₁)
  | top {s₁ : List Char} (sign : Symbol.top.Token s s₁)
  /-- What is left is a name, or nothing that a formula begins with. -/
  | atom (free : ∀ symbol : Symbol, symbol.beginsFormula = true → symbol.read? s = none)

theorem opening (s : List Char) : Opening s := by
  by_cases h : ∃ (symbol : Symbol) (rest : List Char), symbol.beginsFormula = true ∧
    symbol.Token s rest
  · obtain ⟨symbol, rest, hbegins, htoken⟩ := h
    cases symbol with
    | not => exact .not htoken
    | quantifier q => exact .quantifier htoken
    | openParen => exact .openParen htoken
    | bottom => exact .bottom htoken
    | top => exact .top htoken
    | connective | closeParen | comma | dot => cases hbegins
  · exact .atom fun symbol hbegins =>
      Symbol.read?_eq_none_iff.mpr fun rest htoken => h ⟨symbol, rest, hbegins, htoken⟩

/-- Where no symbol opens a phrase, none that goes before a name does. -/
theorem not_beginsReserved_of_free {s : List Char}
    (free : ∀ symbol : Symbol, symbol.beginsFormula = true → symbol.read? s = none) :
    ¬BeginsReserved s :=
  not_beginsReserved (readQuantifier?_eq_none fun _ => free _ rfl) (free _ rfl) (free _ rfl)

section Readings

variable {calculus : Calculus} {q : Quantifier} {x : Name} {φ : Formula} {stuck : Stuck}
  {s s₁ s₂ rest : List Char}

theorem readPrefixed_of_not (sign : Symbol.not.Token s s₁) :
    readPrefixed calculus s =
      passOn .not (Nat.le_of_lt sign.length_lt) (readPrefixed calculus s₁) := by
  rw [readPrefixed, sign.read?]
  cases hinner : readPrefixed calculus s₁ <;> simp only [hinner] <;> rfl

theorem readQuantifier?_of_token (sign : (Symbol.quantifier q).Token s s₁) :
    readQuantifier? s = some (q, ⟨s₁, sign.length_lt⟩) :=
  readQuantifier?_eq_some_iff.mpr sign

theorem readPrefixed_of_quantifier_of_propositional (sign : (Symbol.quantifier q).Token s s₁) :
    readPrefixed .propositional s = .error (.before .formulaWithoutQuantifiers s) := by
  rw [readPrefixed, sign.read?_eq_none (b := .not) (by simp) (by simp) (by simp)]
  simp [readQuantifier?_of_token sign, Calculus.hasQuantifiers]

theorem readPrefixed_of_quantifier_of_no_name (sign : (Symbol.quantifier q).Token s s₁)
    (hname : readName? s₁ = none) :
    readPrefixed .predicate s = .error (.before .variableName s₁) := by
  rw [readPrefixed, sign.read?_eq_none (b := .not) (by simp) (by simp) (by simp)]
  simp [readQuantifier?_of_token sign, Calculus.hasQuantifiers, hname]

theorem length_skipSeparator_lt (sign : (Symbol.quantifier q).Token s s₁)
    (bound : NameToken x s₁ s₂) :
    (skipSeparator s₂).length < s.length :=
  Nat.lt_of_le_of_lt (length_skipSeparator_le s₂) (Nat.lt_trans bound.length_lt sign.length_lt)

theorem readPrefixed_of_quantifier (sign : (Symbol.quantifier q).Token s s₁)
    (bound : NameToken x s₁ s₂) :
    readPrefixed .predicate s =
      passOn (.quantified q x) (Nat.le_of_lt (length_skipSeparator_lt sign bound))
      (readOperation .predicate Level.all (skipSeparator s₂)) := by
  rw [readPrefixed, sign.read?_eq_none (b := .not) (by simp) (by simp) (by simp)]
  simp only [readQuantifier?_of_token sign, Calculus.hasQuantifiers, if_true, bound.readName?]
  cases readOperation .predicate Level.all (skipSeparator s₂) <;> rfl

/-- Behind a quantifier a variable is read and, in the predicate calculus, a body. -/
theorem yields_quantifier_iff (sign : (Symbol.quantifier q).Token s s₁) :
    Yields (readPrefixed calculus s) φ rest ↔ calculus = .predicate ∧ ∃ x s₂, NameToken x s₁ s₂ ∧
      ∃ ψ, Yields (readOperation .predicate Level.all (skipSeparator s₂)) ψ rest ∧
        φ = .quantified q x ψ := by
  cases calculus with
  | propositional =>
    rw [readPrefixed_of_quantifier_of_propositional sign]
    exact iff_of_false not_yields_error (by simp)
  | predicate =>
    cases hname : readName? s₁ with
    | none =>
      rw [readPrefixed_of_quantifier_of_no_name sign hname]
      refine iff_of_false not_yields_error ?_
      rintro ⟨-, x, s₂, bound, -⟩
      rw [bound.readName?] at hname
      cases hname
    | some found =>
      obtain ⟨x, s₂⟩ := found
      have bound := readName?_eq_some_iff.mp hname
      rw [exists_name_iff bound, readPrefixed_of_quantifier sign bound, yields_passOn_iff]
      simp

/-- A quantifier is stuck at its sign, which propositional logic does not have, at the variable
or in the body. -/
theorem stuck_quantifier_iff (sign : (Symbol.quantifier q).Token s s₁) :
    readPrefixed calculus s = .error stuck ↔
      (calculus = .propositional ∧ stuck = .before .formulaWithoutQuantifiers s) ∨
        (calculus = .predicate ∧ ((readName? s₁ = none ∧ stuck = .before .variableName s₁) ∨
          ∃ x s₂, NameToken x s₁ s₂ ∧
            readOperation .predicate Level.all (skipSeparator s₂) = .error stuck)) := by
  cases calculus with
  | propositional =>
    rw [readPrefixed_of_quantifier_of_propositional sign]
    simp [eq_comm]
  | predicate =>
    cases hname : readName? s₁ with
    | none =>
      rw [readPrefixed_of_quantifier_of_no_name sign hname]
      have hnone : ∀ x s₂, ¬NameToken x s₁ s₂ := by
        intro x s₂ bound
        rw [bound.readName?] at hname
        cases hname
      simp [hnone, eq_comm]
    | some found =>
      obtain ⟨x, s₂⟩ := found
      have bound := readName?_eq_some_iff.mp hname
      rw [exists_name_iff bound, readPrefixed_of_quantifier sign bound, passOn_eq_error_iff]
      simp

theorem readPrefixed_of_free
    (free : ∀ symbol : Symbol, symbol.beginsFormula = true → symbol.read? s = none) :
    readPrefixed calculus s = readAtom calculus s := by
  rw [readPrefixed, free .not rfl]
  simp only [readQuantifier?_eq_none fun q => free (.quantifier q) rfl, free .openParen rfl,
    free .bottom rfl, free .top rfl]

/-- In parentheses a formula is read up to the parenthesis that closes them. -/
theorem yields_openParen_iff (sign : Symbol.openParen.Token s s₁) :
    Yields (readPrefixed calculus s) φ rest ↔
      ∃ s₂, Yields (readOperation calculus Level.all s₁) φ s₂ ∧
        Symbol.closeParen.Token s₂ rest := by
  have hquantifier : readQuantifier? s = none :=
    readQuantifier?_eq_none fun q => sign.read?_eq_none (by simp) (by simp) (by simp)
  constructor
  · intro h
    rw [readPrefixed, sign.read?_eq_none (b := .not) (by simp) (by simp) (by simp)] at h
    simp only [hquantifier, sign.read?] at h
    split at h
    · exact absurd h not_yields_error
    · next inner hinner =>
      split at h
      · exact absurd h not_yields_error
      · next s₂ hclose =>
        obtain ⟨rfl, rfl⟩ := yields_ok_iff.mp h
        exact ⟨inner.rest, ⟨inner.length_lt, hinner⟩, Symbol.read?_eq_some_iff.mp hclose⟩
  · rintro ⟨s₂, hinner, hclose⟩
    exact yields_parentheses sign hinner hclose

/-- Behind a parenthesis the reader is stuck in the formula, or where nothing closes it. -/
theorem stuck_openParen_iff (sign : Symbol.openParen.Token s s₁) :
    readPrefixed calculus s = .error stuck ↔
      readOperation calculus Level.all s₁ = .error stuck ∨
        ∃ φ s₂, Yields (readOperation calculus Level.all s₁) φ s₂ ∧
          Symbol.closeParen.read? s₂ = none ∧ stuck = (Stuck.before .closeParen s₂).behind φ := by
  have hquantifier : readQuantifier? s = none :=
    readQuantifier?_eq_none fun q => sign.read?_eq_none (by simp) (by simp) (by simp)
  rw [readPrefixed, sign.read?_eq_none (b := .not) (by simp) (by simp) (by simp)]
  simp only [hquantifier, sign.read?]
  cases hinner : readOperation calculus Level.all s₁ with
  | error other => simp
  | ok inner =>
    simp only [reduceCtorEq, false_or]
    rw [exists_yields_ok_iff]
    cases hclose : Symbol.closeParen.read? inner.rest <;> simp [eq_comm]

end Readings

/-! ### Where an atom or a level is stuck -/

section Atoms

variable {calculus : Calculus} {stuck : Stuck} {s : List Char}

/-- An argument list is stuck where a name is missing, or behind a name. -/
theorem stuck_readArguments_iff : readArguments s = .error stuck ↔
    (readName? s = none ∧ stuck = .before .name s) ∨
      ∃ x s₁, NameToken x s s₁ ∧
        ((Symbol.comma.read? s₁ = none ∧ Symbol.closeParen.read? s₁ = none ∧
            stuck = .before .closeParen s₁) ∨
          ∃ s₂, Symbol.comma.Token s₁ s₂ ∧ readArguments s₂ = .error stuck) := by
  rw [readArguments]
  cases hname : readName? s with
  | none =>
    simp only [Except.error.injEq, true_and]
    constructor
    · exact fun h => .inl h.symm
    · rintro (rfl | ⟨x, s₁, htoken, -⟩)
      · rfl
      · rw [htoken.readName?] at hname
        cases hname
  | some read =>
    obtain ⟨x, s₁⟩ := read
    have htoken := readName?_eq_some_iff.mp hname
    simp only [reduceCtorEq, false_and, false_or]
    rw [exists_name_iff htoken]
    cases hcomma : Symbol.comma.read? s₁ with
    | none =>
      have hnone := Symbol.read?_eq_none_iff.mp hcomma
      simp only [true_and, hnone, false_and, exists_false, or_false]
      cases hclose : Symbol.closeParen.read? s₁ <;> simp [eq_comm]
    | some s₂ =>
      have hsign := Symbol.read?_eq_some_iff.mp hcomma
      simp only [reduceCtorEq, false_and, false_or]
      rw [Symbol.exists_token_iff hsign (by simp)]
      cases readArguments s₂ <;> simp

/-- An atom is stuck where no name stands, and otherwise in its argument list, which propositional
logic does not have. -/
theorem stuck_readAtom_iff : readAtom calculus s = .error stuck ↔
    (readName? s = none ∧ stuck = .before .formula s) ∨
      ∃ p s₁, NameToken p s s₁ ∧ ∃ s₂, s₁ = '(' :: s₂ ∧
        ((calculus = .propositional ∧ stuck = .before .connective s₁) ∨
          (calculus = .predicate ∧ readArguments s₂ = .error stuck)) := by
  rw [readAtom]
  cases hname : readName? s with
  | none =>
    simp only [Except.error.injEq, true_and]
    constructor
    · exact fun h => .inl h.symm
    · rintro (rfl | ⟨x, s₁, htoken, -⟩)
      · rfl
      · rw [htoken.readName?] at hname
        cases hname
  | some read =>
    obtain ⟨p, s₁⟩ := read
    simp only [reduceCtorEq, false_and, false_or]
    rw [exists_name_iff (readName?_eq_some_iff.mp hname)]
    cases hparen : readAdjacentParen? s₁.val with
    | none =>
      refine iff_of_false (by simp) ?_
      rintro ⟨s₂, hs₁, -⟩
      have hsome : readAdjacentParen? s₁.val = some ⟨s₂, by rw [hs₁]; exact length_lt_cons _ s₂⟩ :=
        readAdjacentParen?_eq_some_iff.mpr hs₁
      rw [hparen] at hsome
      cases hsome
    | some s₂ =>
      have hs₁ := readAdjacentParen?_eq_some_iff.mp hparen
      simp only [hs₁, List.cons.injEq, true_and, exists_eq_left']
      cases calculus with
      | propositional => simp [Calculus.hasQuantifiers, eq_comm]
      | predicate =>
        simp only [Calculus.hasQuantifiers, if_true]
        cases readArguments s₂ <;> simp

end Atoms

section Levels

variable {calculus : Calculus} {c : Connective} {tighter levels : List Level} {φ left : Formula}
  {stuck : Stuck} {s rest : List Char}

/-- A level that groups to the right is stuck in one of its operands. -/
theorem stuck_right_iff : readOperation calculus (⟨c, .right⟩ :: tighter) s = .error stuck ↔
    readOperation calculus tighter s = .error stuck ∨
      ∃ ψ s₁, Yields (readOperation calculus tighter s) ψ s₁ ∧
        ∃ s₂, (Symbol.connective c).Token s₁ s₂ ∧
        ∃ stuck', readOperation calculus (⟨c, .right⟩ :: tighter) s₂ = .error stuck' ∧
          stuck = stuck'.behind ψ := by
  rw [readOperation]
  cases hleft : readOperation calculus tighter s with
  | error other => simp
  | ok p =>
    simp only [reduceCtorEq, false_or]
    rw [exists_yields_ok_iff]
    cases hsign : (Symbol.connective c).read? p.rest with
    | none => simp [Symbol.read?_eq_none_iff.mp hsign]
    | some s₂ =>
      rw [Symbol.exists_token_iff (Symbol.read?_eq_some_iff.mp hsign) (by simp)]
      cases hright : readOperation calculus (⟨c, .right⟩ :: tighter) s₂ <;> simp [hright, eq_comm]

/-- A level that groups to the left is stuck in its first operand or in the chain behind it. -/
theorem stuck_left_iff : readOperation calculus (⟨c, .left⟩ :: tighter) s = .error stuck ↔
    readOperation calculus tighter s = .error stuck ∨
      ∃ ψ s₁, Yields (readOperation calculus tighter s) ψ s₁ ∧
        readChain calculus c tighter ψ s₁ = .error stuck := by
  rw [readOperation]
  cases hleft : readOperation calculus tighter s with
  | error other => simp
  | ok p =>
    simp only [reduceCtorEq, false_or]
    rw [exists_yields_ok_iff]
    cases readChain calculus c tighter p.value p.rest <;> simp

/-- A chain is stuck in the operand behind its sign or further on. -/
theorem stuck_chain_iff : readChain calculus c tighter left s = .error stuck ↔
    ∃ s₁, (Symbol.connective c).Token s s₁ ∧
      ((∃ stuck', readOperation calculus tighter s₁ = .error stuck' ∧ stuck = stuck'.behind left) ∨
        ∃ ψ s₂, Yields (readOperation calculus tighter s₁) ψ s₂ ∧
          readChain calculus c tighter (.binary c left ψ) s₂ = .error stuck) := by
  rw [readChain]
  cases hsign : (Symbol.connective c).read? s with
  | none => simp [Symbol.read?_eq_none_iff.mp hsign]
  | some s₁ =>
    rw [Symbol.exists_token_iff (Symbol.read?_eq_some_iff.mp hsign) (by simp)]
    cases hright : readOperation calculus tighter s₁ with
    | error other => simp [hright, eq_comm]
    | ok right =>
      rw [exists_yields_ok_iff]
      simp only [hright, reduceCtorEq, false_and, exists_false, false_or]
      cases readChain calculus c tighter (.binary c left right.value) right.rest <;> simp

/-- **A reading that succeeds begins as a formula can begin.** -/
theorem beginsFormula_of_yields (h : Yields (readOperation calculus levels s) φ rest) :
    BeginsFormula s := by
  induction levels generalizing φ rest with
  | nil =>
    rw [readOperation_nil] at h
    cases opening s with
    | not sign | openParen sign | bottom sign | top sign => exact .inl ⟨_, _, rfl, sign⟩
    | quantifier sign => exact .inl ⟨_, _, rfl, sign⟩
    | atom free =>
      rw [readPrefixed_of_free free] at h
      obtain ⟨p, ⟨hname, -, -⟩ | ⟨s₁, args, -, hname, -⟩⟩ := yields_readAtom_iff.mp h
      · exact .inr ⟨p, rest, hname⟩
      · exact .inr ⟨p, _, hname⟩
  | cons level tighter ih =>
    obtain ⟨c, associativity⟩ := level
    cases associativity with
    | left =>
      obtain ⟨ψ, s₁, hleft, -⟩ := yields_left_iff.mp h
      exact ih hleft
    | right =>
      obtain ⟨ψ, s₁, hleft, -⟩ := yields_right_iff.mp h
      exact ih hleft

end Levels

end NaturalDeduction
