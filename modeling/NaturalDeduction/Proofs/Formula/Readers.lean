import NaturalDeduction.Proofs.Formula.Tokens

/-!
# What the readers of formulas yield

The readers answer with what they have read, with what follows it and with a proof that this is
shorter, or else with the place where they are stuck. Here is what each of them has read when it is
not stuck, in terms of the tokens of the grammar and of the readers that it calls. Where they are
stuck, and what the next token makes of a phrase, is said in the file on openings; nothing behind
these two opens a reader.

## Main definitions

* `Yields`: what has been read, and what follows, without the proof
* `NoSign`: the next token is none of the signs of some levels

## Main results

* `yields_readAtom_iff`, `yields_left_iff`, `yields_right_iff`, `yields_chain_iff`
* `yields_not` and the lemmas of that form: what begins a phrase decides how it is read
* `noSign_of_yields`: where a reader of operations stops
-/

namespace NaturalDeduction

/-- The reader has read `a`, and `rest` follows. -/
def Yields {α : Type} {n : Nat} (result : Except Stuck (Parsed α n)) (a : α) (rest : List Char) :
    Prop :=
  ∃ h, result = .ok ⟨a, rest, h⟩

section Yields

variable {α : Type} {n : Nat} {a : α} {rest : List Char}

@[simp] theorem yields_ok_iff {p : Parsed α n} :
    Yields (.ok p) a rest ↔ p.value = a ∧ p.rest = rest := by
  obtain ⟨value, r, h⟩ := p
  constructor
  · rintro ⟨_, heq⟩
    obtain ⟨rfl, rfl⟩ := Parsed.mk.inj (Except.ok.inj heq)
    exact ⟨rfl, rfl⟩
  · rintro ⟨rfl, rfl⟩
    exact ⟨h, rfl⟩

@[simp] theorem not_yields_error {stuck : Stuck} :
    ¬Yields (.error stuck : Except Stuck (Parsed α n)) a rest :=
  nofun

/-- A reader has one answer. -/
theorem Yields.unique {result : Except Stuck (Parsed α n)} {b : α} {rest' : List Char}
    (h : Yields result a rest) (h' : Yields result b rest') : a = b ∧ rest = rest' := by
  obtain ⟨hlt, hresult⟩ := h
  rw [hresult] at h'
  exact yields_ok_iff.mp h'

theorem Yields.length_lt {result : Except Stuck (Parsed α n)} (h : Yields result a rest) :
    rest.length < n :=
  h.1

end Yields

/-! ### Argument lists and atoms -/

section Atoms

variable {calculus : Calculus} {φ : Formula} {xs : List Name} {s rest : List Char}

theorem arguments_of_yields (h : Yields (readArguments s) xs rest) : Arguments s xs rest := by
  induction hn : s.length using Nat.strongRecOn generalizing s xs with
  | _ n ih =>
    subst hn
    rw [readArguments] at h
    split at h
    · exact absurd h not_yields_error
    · next x s₁ hname =>
      have hname := readName?_eq_some_iff.mp hname
      split at h
      · next s₂ hcomma =>
        have hcomma := Symbol.read?_eq_some_iff.mp hcomma
        split at h
        · exact absurd h not_yields_error
        · next others hothers =>
          obtain ⟨rfl, rfl⟩ := yields_ok_iff.mp h
          have hlt := Nat.lt_trans s₂.property s₁.property
          exact .more hname hcomma (ih _ hlt (hothers ▸ yields_ok_iff.mpr ⟨rfl, rfl⟩) rfl)
      · split at h
        · exact absurd h not_yields_error
        · next s₂ hclose =>
          obtain ⟨rfl, rfl⟩ := yields_ok_iff.mp h
          exact .last hname (Symbol.read?_eq_some_iff.mp hclose)

theorem Arguments.yields (h : Arguments s xs rest) : Yields (readArguments s) xs rest := by
  induction h with
  | last name close =>
    rw [readArguments, name.readName?]
    simp only [close.read?_eq_none (b := .comma) nofun nofun nofun, close.read?]
    simp
  | more name comma others ih =>
    obtain ⟨h, hothers⟩ := ih
    rw [readArguments, name.readName?]
    simp only [comma.read?, hothers]
    simp

theorem hasQuantifiers_iff {calculus : Calculus} :
    calculus.hasQuantifiers = true ↔ calculus = .predicate := by
  cases calculus <;> decide

theorem readAdjacentParen?_eq_some_iff {r : Shorter s} :
    readAdjacentParen? s = some r ↔ s = '(' :: r.val := by
  cases s with
  | nil => exact iff_of_false nofun nofun
  | cons c t =>
    by_cases hc : c = '('
    · subst hc
      rw [readAdjacentParen?, Option.some_inj, Subtype.ext_iff, List.cons.injEq]
      exact ⟨fun h => ⟨rfl, h⟩, fun h => h.2⟩
    · have hnone : readAdjacentParen? (c :: t) = none := by
        simp [readAdjacentParen?, hc]
      rw [hnone]
      refine iff_of_false nofun fun h => hc (List.cons.inj h).1

theorem readAdjacentParen?_eq_none (h : s.head? ≠ some '(') : readAdjacentParen? s = none := by
  cases hr : readAdjacentParen? s with
  | none => rfl
  | some r => exact absurd (by rw [readAdjacentParen?_eq_some_iff.mp hr]; rfl) h

/-- An atom is read as its name and, where a parenthesis follows at once, its arguments. -/
theorem yields_readAtom_iff : Yields (readAtom calculus s) φ rest ↔
    ∃ p, (NameToken p s rest ∧ rest.head? ≠ some '(' ∧ φ = .atom p []) ∨
      ∃ s₁ args, calculus = .predicate ∧ NameToken p s ('(' :: s₁) ∧ Arguments s₁ args rest ∧
        φ = .atom p args := by
  constructor
  · intro h
    rw [readAtom] at h
    split at h
    · exact absurd h not_yields_error
    · next p s₁ hname =>
      have hname := readName?_eq_some_iff.mp hname
      refine ⟨p, ?_⟩
      split at h
      · next hparen =>
        obtain ⟨rfl, rfl⟩ := yields_ok_iff.mp h
        refine .inl ⟨hname, fun hhead => ?_, rfl⟩
        obtain ⟨t, ht⟩ : ∃ t, s₁.val = '(' :: t := List.head?_eq_some_iff.mp hhead
        have hsome : readAdjacentParen? s₁.val = some ⟨t, by rw [ht]; exact length_lt_cons _ t⟩ :=
          readAdjacentParen?_eq_some_iff.mpr ht
        rw [hparen] at hsome
        cases hsome
      · next s₂ hparen =>
        rw [readAdjacentParen?_eq_some_iff.mp hparen] at hname
        split at h
        · next hcalculus =>
          split at h
          · exact absurd h not_yields_error
          · next args hargs =>
            obtain ⟨rfl, rfl⟩ := yields_ok_iff.mp h
            exact .inr ⟨s₂, args.value, hasQuantifiers_iff.mp hcalculus, hname,
              arguments_of_yields ⟨args.length_lt, hargs⟩, rfl⟩
        · exact absurd h not_yields_error
  · rintro ⟨p, ⟨hname, hhead, rfl⟩ | ⟨s₁, args, rfl, hname, harguments, rfl⟩⟩
    · rw [readAtom, hname.readName?]
      simp [readAdjacentParen?_eq_none hhead]
    · obtain ⟨hlt, hread⟩ := harguments.yields
      have hparen : readAdjacentParen? ('(' :: s₁) = some ⟨s₁, length_lt_cons _ s₁⟩ :=
        readAdjacentParen?_eq_some_iff.mpr rfl
      rw [readAtom, hname.readName?]
      simp [hparen, Calculus.hasQuantifiers, hread]

end Atoms

theorem readQuantifier?_eq_some_iff {s : List Char} {q : Quantifier} {r : Shorter s} :
    readQuantifier? s = some (q, r) ↔ (Symbol.quantifier q).Token s r.val := by
  rw [← Symbol.read?_eq_some_iff, readQuantifier?]
  constructor
  · intro h
    obtain ⟨q', -, hq'⟩ := List.exists_of_findSome?_eq_some h
    obtain ⟨r', hr', heq⟩ := Option.map_eq_some_iff.mp hq'
    obtain ⟨rfl, rfl⟩ := Prod.mk.inj heq
    exact hr'
  · intro h
    have htoken := Symbol.read?_eq_some_iff.mp h
    cases q with
    | forAll => simp [h]
    | forSome =>
      have hnone := htoken.read?_eq_none (b := .quantifier .forAll) nofun nofun nofun
      simp [h, hnone]

theorem readQuantifier?_eq_none {s : List Char} (h : ∀ q, (Symbol.quantifier q).read? s = none) :
    readQuantifier? s = none := by
  simp [readQuantifier?, h]

/-- A text is free of reserved symbols if none of the readers of one finds anything. -/
theorem not_beginsReserved {s : List Char} (hquantifier : readQuantifier? s = none)
    (hbottom : Symbol.bottom.read? s = none) (htop : Symbol.top.read? s = none) :
    ¬BeginsReserved s := by
  rintro ⟨symbol, rest, hreserved, htoken⟩
  cases symbol with
  | quantifier q =>
    have hsome : readQuantifier? s = some (q, ⟨rest, htoken.length_lt⟩) :=
      readQuantifier?_eq_some_iff.mpr htoken
    rw [hquantifier] at hsome
    cases hsome
  | bottom => exact Symbol.read?_eq_none_iff.mp hbottom rest htoken
  | top => exact Symbol.read?_eq_none_iff.mp htop rest htoken
  | _ => cases hreserved

/-! ### Operations -/

section Operations

variable {calculus : Calculus} {c : Connective} {tighter : List Level} {φ left : Formula}
  {s rest : List Char}

/-- Without levels there is nothing but the operand. -/
theorem readOperation_nil (calculus : Calculus) (s : List Char) :
    readOperation calculus [] s = readPrefixed calculus s := by
  rw [readOperation]

/-- A level that groups to the right reads an operand and, behind its sign, itself again. -/
theorem yields_right_iff : Yields (readOperation calculus (⟨c, .right⟩ :: tighter) s) φ rest ↔
    ∃ ψ s₁, Yields (readOperation calculus tighter s) ψ s₁ ∧
      ((φ = ψ ∧ rest = s₁ ∧ (Symbol.connective c).read? s₁ = none) ∨
        ∃ s₂ χ, (Symbol.connective c).Token s₁ s₂ ∧
          Yields (readOperation calculus (⟨c, .right⟩ :: tighter) s₂) χ rest ∧
          φ = .binary c ψ χ) := by
  constructor
  · intro h
    rw [readOperation] at h
    split at h
    · exact absurd h not_yields_error
    · next p hp =>
      obtain ⟨ψ, s₁, hlt⟩ := p
      refine ⟨ψ, s₁, ⟨hlt, hp⟩, ?_⟩
      simp only at h
      split at h
      · next hnone =>
        obtain ⟨rfl, rfl⟩ := yields_ok_iff.mp h
        exact .inl ⟨rfl, rfl, hnone⟩
      · next s₂ hsign =>
        split at h
        · exact absurd h not_yields_error
        · next right hright =>
          obtain ⟨rfl, rfl⟩ := yields_ok_iff.mp h
          exact .inr
            ⟨s₂, right.value, Symbol.read?_eq_some_iff.mp hsign, ⟨right.length_lt, hright⟩, rfl⟩
  · rintro ⟨ψ, s₁, ⟨hlt, hp⟩, ⟨rfl, rfl, hnone⟩ | ⟨s₂, χ, hsign, ⟨hlt', hright⟩, rfl⟩⟩
    · rw [readOperation, hp]
      simp [hnone]
    · rw [readOperation, hp]
      simp [hsign.read?, hright]

/-- A level that groups to the left reads an operand and goes on with the chain. -/
theorem yields_left_iff : Yields (readOperation calculus (⟨c, .left⟩ :: tighter) s) φ rest ↔
    ∃ ψ s₁, Yields (readOperation calculus tighter s) ψ s₁ ∧
      Yields (readChain calculus c tighter ψ s₁) φ rest := by
  constructor
  · intro h
    rw [readOperation] at h
    split at h
    · exact absurd h not_yields_error
    · next p hp =>
      obtain ⟨ψ, s₁, hlt⟩ := p
      refine ⟨ψ, s₁, ⟨hlt, hp⟩, ?_⟩
      simp only at h
      split at h
      · exact absurd h not_yields_error
      · next chain hchain =>
        obtain ⟨rfl, rfl⟩ := yields_ok_iff.mp h
        exact ⟨chain.length_lt, hchain⟩
  · rintro ⟨ψ, s₁, ⟨hlt, hp⟩, ⟨hlt', hchain⟩⟩
    rw [readOperation, hp]
    simp [hchain, Parsed.widen]

/-- A chain ends where its sign does not stand, and otherwise goes on with one more operand. -/
theorem yields_chain_iff : Yields (readChain calculus c tighter left s) φ rest ↔
    (φ = left ∧ rest = s ∧ (Symbol.connective c).read? s = none) ∨
      ∃ s₁ ψ s₂, (Symbol.connective c).Token s s₁ ∧
        Yields (readOperation calculus tighter s₁) ψ s₂ ∧
        Yields (readChain calculus c tighter (.binary c left ψ) s₂) φ rest := by
  constructor
  · intro h
    rw [readChain] at h
    split at h
    · next hnone =>
      obtain ⟨rfl, rfl⟩ := yields_ok_iff.mp h
      exact .inl ⟨rfl, rfl, hnone⟩
    · next s₁ hsign =>
      split at h
      · exact absurd h not_yields_error
      · next right hright =>
        obtain ⟨ψ, s₂, hlt⟩ := right
        simp only at h
        split at h
        · exact absurd h not_yields_error
        · next chain hchain =>
          obtain ⟨rfl, rfl⟩ := yields_ok_iff.mp h
          exact .inr
            ⟨s₁, ψ, s₂, Symbol.read?_eq_some_iff.mp hsign, ⟨hlt, hright⟩, ⟨chain.length_lt, hchain⟩⟩
  · rintro (⟨rfl, rfl, hnone⟩ | ⟨s₁, ψ, s₂, hsign, ⟨hlt, hright⟩, ⟨hlt', hchain⟩⟩)
    · rw [readChain, hnone]
      simp
    · rw [readChain, hsign.read?]
      simp only [hright, hchain]
      simp [Parsed.widen]

end Operations

/-! ### What stands in front of an operand -/

section Prefixed

variable {calculus : Calculus} {φ : Formula} {x : Name} {s s₁ s₂ rest : List Char}

theorem yields_not (hsign : Symbol.not.Token s s₁)
    (hinner : Yields (readPrefixed calculus s₁) φ rest) :
    Yields (readPrefixed calculus s) (.not φ) rest := by
  obtain ⟨hlt, hinner⟩ := hinner
  rw [readPrefixed, hsign.read?]
  simp [hinner]

theorem yields_quantified {q : Quantifier} (hsign : (Symbol.quantifier q).Token s s₁)
    (hname : NameToken x s₁ s₂)
    (hbody : Yields (readOperation .predicate Level.all (skipSeparator s₂)) φ rest) :
    Yields (readPrefixed .predicate s) (.quantified q x φ) rest := by
  obtain ⟨hlt, hbody⟩ := hbody
  have hquantifier : readQuantifier? s = some (q, ⟨s₁, hsign.length_lt⟩) :=
    readQuantifier?_eq_some_iff.mpr hsign
  rw [readPrefixed, hsign.read?_eq_none (b := .not) nofun nofun nofun]
  simp only [hquantifier, Calculus.hasQuantifiers, if_true, hname.readName?, hbody]
  simp

theorem yields_parentheses (hopen : Symbol.openParen.Token s s₁)
    (hinner : Yields (readOperation calculus Level.all s₁) φ s₂)
    (hclose : Symbol.closeParen.Token s₂ rest) : Yields (readPrefixed calculus s) φ rest := by
  obtain ⟨hlt, hinner⟩ := hinner
  have hquantifier : readQuantifier? s = none :=
    readQuantifier?_eq_none fun q => hopen.read?_eq_none nofun nofun nofun
  rw [readPrefixed, hopen.read?_eq_none (b := .not) nofun nofun nofun]
  simp only [hquantifier, hopen.read?, hinner, hclose.read?]
  simp

theorem yields_bottom (hsign : Symbol.bottom.Token s rest) :
    Yields (readPrefixed calculus s) .bottom rest := by
  have hquantifier : readQuantifier? s = none :=
    readQuantifier?_eq_none fun q => hsign.read?_eq_none nofun nofun nofun
  rw [readPrefixed, hsign.read?_eq_none (b := .not) nofun nofun nofun]
  simp [hquantifier, hsign.read?_eq_none (b := .openParen) nofun nofun nofun, hsign.read?]

theorem yields_top (hsign : Symbol.top.Token s rest) :
    Yields (readPrefixed calculus s) .top rest := by
  have hquantifier : readQuantifier? s = none :=
    readQuantifier?_eq_none fun q => hsign.read?_eq_none nofun nofun nofun
  rw [readPrefixed, hsign.read?_eq_none (b := .not) nofun nofun nofun]
  simp [hquantifier, hsign.read?_eq_none (b := .openParen) nofun nofun nofun,
    hsign.read?_eq_none (b := .bottom) nofun nofun nofun, hsign.read?]

/-- Where a name stands and no reserved symbol, an atom is read. -/
theorem yields_atom (hname : NameToken x s s₁) (hfree : ¬BeginsReserved s)
    (h : Yields (readAtom calculus s) φ rest) : Yields (readPrefixed calculus s) φ rest := by
  have hnone (symbol : Symbol) : symbol.read? s = none :=
    Symbol.read?_eq_none_iff.mpr fun r htoken =>
      hfree ⟨symbol, r, hname.isReserved_of_token htoken, htoken⟩
  rw [readPrefixed, hnone .not]
  simp only [readQuantifier?_eq_none fun q => hnone (.quantifier q), hnone .openParen,
    hnone .bottom, hnone .top]
  exact h

end Prefixed

/-! ### What stops the reader -/

section Stops

variable {calculus : Calculus} {c : Connective} {tighter levels : List Level} {φ left : Formula}
  {s rest : List Char}

/-- None of the signs of the levels is the next token. -/
def NoSign (levels : List Level) (s : List Char) : Prop :=
  ∀ level ∈ levels, (Symbol.connective level.connective).read? s = none

/-- A chain goes on as long as its sign stands; its operands have taken the tighter signs. -/
theorem noSign_of_yields_chain
    (below : ∀ s', s'.length < s.length → ∀ φ rest,
      Yields (readOperation calculus tighter s') φ rest → NoSign tighter rest)
    (htighter : NoSign tighter s) (h : Yields (readChain calculus c tighter left s) φ rest) :
    (Symbol.connective c).read? rest = none ∧ NoSign tighter rest := by
  induction hn : s.length using Nat.strongRecOn generalizing s left with
  | _ n ih =>
    subst hn
    rcases yields_chain_iff.mp h with ⟨-, rfl, hnone⟩ | ⟨s₁, ψ, s₂, hsign, hright, hchain⟩
    · exact ⟨hnone, htighter⟩
    · have hlt : s₂.length < s.length := Nat.lt_trans hright.length_lt hsign.length_lt
      exact ih _ hlt (fun s' hs' => below s' (Nat.lt_trans hs' hlt))
        (below s₁ hsign.length_lt ψ s₂ hright) hchain rfl

/-- **A reader of operations stops only where none of its signs stands.** -/
theorem noSign_of_yields (h : Yields (readOperation calculus levels s) φ rest) :
    NoSign levels rest := by
  induction hn : s.length using Nat.strongRecOn generalizing s levels φ rest with
  | _ n ih =>
    subst hn
    induction levels generalizing φ rest with
    | nil => simp [NoSign]
    | cons level tighter ihl =>
      obtain ⟨c, associativity⟩ := level
      cases associativity with
      | left =>
        obtain ⟨ψ, s₁, hleft, hchain⟩ := yields_left_iff.mp h
        have below (s' : List Char) (hs' : s'.length < s₁.length) (χ : Formula) (r : List Char)
            (hχ : Yields (readOperation calculus tighter s') χ r) : NoSign tighter r :=
          ih _ (Nat.lt_trans hs' hleft.length_lt) hχ rfl
        exact List.forall_mem_cons.mpr (noSign_of_yields_chain below (ihl hleft) hchain)
      | right =>
        obtain ⟨ψ, s₁, hleft, ⟨-, rfl, hnone⟩ | ⟨s₂, χ, hsign, hright, -⟩⟩ := yields_right_iff.mp h
        · exact List.forall_mem_cons.mpr ⟨hnone, ihl hleft⟩
        · exact ih _ (Nat.lt_trans hsign.length_lt hleft.length_lt) hright rfl

end Stops

end NaturalDeduction
