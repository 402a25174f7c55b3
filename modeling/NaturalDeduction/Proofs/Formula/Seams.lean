import NaturalDeduction.Proofs.Formula.Recognition

/-!
# Cutting a text

A text can be cut in front of a token, and what stood behind the cut can be replaced by a blank and
anything else: what was read in front of the cut is still read in the same way.

## What could go wrong at a cut

A reader looks at what follows a token in order to find its end. A name goes on as far as it can, a
spelling that ends like a word is no symbol where the word goes on, and `_|_` is one symbol or three
tokens. None of this is disturbed at a place where no word runs across (`Seam`), since a blank ends
every token as well. But a reader also stops where no sign follows, and that is decided by what
stands behind the cut if only blanks stand in front of it. So `yields_kept` asks that something
solid is left in front of the cut, or else that what is put behind it ends the phrase.

## Main definitions

* `Seam`: a place where no word runs across
* `Kept`, `Survives`: what is the case in front of a seam, whatever stands behind it

## Main results

* `Symbol.Token.survives`, `NameToken.survives`, `Arguments.survives`: tokens in front of a seam
* `Symbol.Token.of_gap`: no other tokens come to stand there
* `yields_kept`: readings that end in front of a seam
-/

namespace NaturalDeduction

open Text

/-! ### Seams -/

/-- No word runs on from the end of `a` into `r`. -/
def Seam (a r : List Char) : Prop :=
  ¬(a.getLast?.any isNameChar = true ∧ continuesName r = true)

/-- There is more in a text than blanks. -/
def Solid (a : List Char) : Prop := ∃ c ∈ a, isBlank c = false

section Seams

variable {a b r s t u w : List Char}

theorem seam_nil (r : List Char) : Seam [] r := fun h => nomatch h.1

/-- What stands in front of the last character of a text does not matter. -/
theorem getLast?_append_cons (u : List Char) (c : Char) (a : List Char) :
    (u ++ c :: a).getLast? = (c :: a).getLast? := by
  simp [List.getLast?_eq_some_getLast]

theorem seam_cons_of_sign {c : Char} (hc : isNameChar c = false) (ha : Seam a r) :
    Seam (c :: a) r := by
  cases a with
  | nil => exact fun h => by simp [hc] at h
  | cons d a => exact fun h => ha (getLast?_append_cons [c] d a ▸ h)

theorem seam_of_isBlank (ha : ∀ c ∈ a, isBlank c = true) (r : List Char) : Seam a r := by
  rintro ⟨hname, -⟩
  obtain ⟨c, hc, hname⟩ := (Option.any_eq_true _ _).mp hname
  have hblank := ha c (List.mem_of_getLast? hc)
  rw [isBlank_of_isNameChar hname] at hblank
  cases hblank

/-- In front of a blank there is always a seam. -/
theorem seam_gap (a t : List Char) : Seam a (' ' :: t) := fun h => by
  have hgap : continuesName (' ' :: t) = false := by
    rw [continuesName, List.head?_cons, Option.any_some]
    decide
  rw [hgap] at h
  cases h.2

theorem Seam.append (hu : Seam u (a ++ r)) (ha : Seam a r) : Seam (u ++ a) r := by
  cases a with
  | nil => simpa using hu
  | cons c a => exact fun h => ha (getLast?_append_cons u c a ▸ h)

theorem Seam.of_append (h : Seam (u ++ a) r) : Seam a r := by
  cases a with
  | nil => exact seam_nil r
  | cons c a => exact fun ha => h ((getLast?_append_cons u c a).symm ▸ ha)

/-- A seam in front of something stays one if the rest behind that is changed. -/
theorem Seam.gap (hu : Seam u (a ++ r)) (t : List Char) : Seam u (a ++ ' ' :: t) := by
  cases a with
  | nil => exact seam_gap u t
  | cons c a => exact hu

theorem Seam.of_gap (hu : Seam u (a ++ ' ' :: t)) (ha : Seam (u ++ a) r) : Seam u (a ++ r) := by
  cases a with
  | nil => simpa using ha
  | cons c a => exact hu

theorem Solid.append_right (ha : Solid a) (b : List Char) : Solid (a ++ b) := by
  obtain ⟨c, hc, hblank⟩ := ha
  exact ⟨c, List.mem_append_left b hc, hblank⟩

theorem Solid.append_left (hb : Solid b) (a : List Char) : Solid (a ++ b) := by
  obtain ⟨c, hc, hblank⟩ := hb
  exact ⟨c, List.mem_append_right a hc, hblank⟩

/-- Where something solid stands, blanks are skipped up to that. -/
theorem Solid.skipBlanks_append (ha : Solid a) :
    ∃ blanks b, a = blanks ++ b ∧ ∀ x, skipBlanks (a ++ x) = b ++ x := by
  obtain ⟨c, hc, hblank⟩ := ha
  obtain ⟨blanks, hblanks, hsplit⟩ := blanks_skipBlanks a
  have hb : skipBlanks a ≠ [] := by
    intro hnil
    rw [hnil, List.append_nil] at hsplit
    rw [hblanks c (hsplit ▸ hc)] at hblank
    cases hblank
  refine ⟨blanks, skipBlanks a, hsplit, fun x => ?_⟩
  rw [skipBlanks, List.dropWhile_append, if_neg (by simpa [skipBlanks] using hb)]
  rfl

theorem solid_of_spelling {symbol : Symbol} (h : w ∈ symbol.spellings) : Solid w := by
  obtain ⟨c, tail, rfl, hc, -⟩ := Symbol.head_of_spelling h
  exact ⟨c, List.mem_cons_self, hc⟩

theorem IsIdentifier.solid {x : Name} (hx : IsIdentifier x) : Solid x.toList := by
  obtain ⟨c, tail, htext, hc, -⟩ := hx
  exact ⟨c, htext ▸ List.mem_cons_self, isBlank_of_isNameStart hc⟩

/-- A name ends where no word runs on from it. -/
theorem seam_name_iff {x : Name} (hx : IsIdentifier x) :
    Seam x.toList r ↔ continuesName r = false := by
  have hne : x.toList ≠ [] := by
    obtain ⟨c, tail, htext, -⟩ := hx
    simp [htext]
  have hlast : x.toList.getLast?.any isNameChar = true := by
    rw [List.getLast?_eq_some_getLast hne, Option.any_some]
    exact hx.isNameChar _ (List.getLast_mem hne)
  simp [Seam, hlast]

end Seams

/-! ### Tokens in front of a seam -/

/-- How `s` is related to a part of it that begins with `a`, a part in front of a seam with `r`:
the seam is one of `s` as well, and the relation stays if a blank and anything else is put in the
place of `r`. -/
def Kept (r : List Char) (P : List Char → List Char → Prop) (s a : List Char) : Prop :=
  ∃ a₀, s = a₀ ++ r ∧ Seam a₀ r ∧ Solid a₀ ∧ ∀ t, P (a₀ ++ ' ' :: t) (a ++ ' ' :: t)

/-- The relation of `s` to `rest` is kept at any seam with `r` in `rest`. -/
def Survives (r : List Char) (P : List Char → List Char → Prop) (s rest : List Char) : Prop :=
  ∀ a, rest = a ++ r → Seam a r → Kept r P s a

section Tokens

variable {symbol : Symbol} {x : Name} {xs : List Name} {a r s t w rest : List Char}

theorem Kept.mono {P Q : List Char → List Char → Prop} (h : Kept r P s a)
    (hPQ : ∀ {s' rest'}, P s' rest' → Q s' rest') : Kept r Q s a := by
  obtain ⟨a₀, hs, hseam, hsolid, hP⟩ := h
  exact ⟨a₀, hs, hseam, hsolid, fun t => hPQ (hP t)⟩

/-- One relation behind another is kept if both are. The first may count on the second to leave
something solid in front of the seam. -/
theorem Kept.trans {P Q : List Char → List Char → Prop} {s₁ : List Char}
    (hP : ∀ a, s₁ = a ++ r → Seam a r → Solid a → Kept r P s a) (hQ : Kept r Q s₁ a) :
    Kept r (fun s' rest' => ∃ s₁', P s' s₁' ∧ Q s₁' rest') s a := by
  obtain ⟨a₁, hs₁, hseam₁, hsolid₁, hQ⟩ := hQ
  obtain ⟨a₀, hs, hseam₀, hsolid₀, hP⟩ := hP a₁ hs₁ hseam₁ hsolid₁
  exact ⟨a₀, hs, hseam₀, hsolid₀, fun t => ⟨_, hP t, hQ t⟩⟩

theorem Survives.trans {P Q : List Char → List Char → Prop} {s₁ : List Char}
    (hP : Survives r P s s₁) (hQ : Kept r Q s₁ a) :
    Kept r (fun s' rest' => ∃ s₁', P s' s₁' ∧ Q s₁' rest') s a :=
  Kept.trans (fun a hs₁ ha _ => hP a hs₁ ha) hQ

/-- A word that ends in front of a seam is kept. -/
theorem survives_word (hw : Solid w) (hs : Blanks s (w ++ rest)) (hends : Seam w rest) :
    Survives r (fun s' rest' => Blanks s' (w ++ rest') ∧ Seam w rest') s rest := by
  rintro a rfl ha
  obtain ⟨blanks, hblanks, rfl⟩ := hs
  refine ⟨blanks ++ (w ++ a), by simp, ?_, (hw.append_right a).append_left blanks, fun t => ?_⟩
  · exact (seam_of_isBlank hblanks _).append (hends.append ha)
  · exact ⟨⟨blanks, hblanks, by simp⟩, hends.gap t⟩

theorem Symbol.Token.survives (h : symbol.Token s rest) : Survives r symbol.Token s rest := by
  obtain ⟨s', hblanks, spelling, hspelling, rfl, hends⟩ := h
  intro a hrest ha
  refine (survives_word (solid_of_spelling hspelling) hblanks hends a hrest ha).mono ?_
  rintro s' rest' ⟨hblanks', hends'⟩
  exact ⟨_, hblanks', spelling, hspelling, rfl, hends'⟩

theorem NameToken.survives (h : NameToken x s rest) : Survives r (NameToken x) s rest := by
  obtain ⟨hx, hblanks, hends⟩ := h
  intro a hrest ha
  refine (survives_word hx.solid hblanks ((seam_name_iff hx).mpr hends) a hrest ha).mono ?_
  rintro s' rest' ⟨hblanks', hends'⟩
  exact ⟨hx, hblanks', (seam_name_iff hx).mp hends'⟩

theorem Arguments.survives (h : Arguments s xs rest) : Survives r (Arguments · xs ·) s rest := by
  intro a hrest ha
  induction h with
  | last name close =>
    refine (name.survives.trans (close.survives a hrest ha)).mono ?_
    rintro s' rest' ⟨s₁, hname, hclose⟩
    exact .last hname hclose
  | more name comma others ih =>
    refine (name.survives.trans (comma.survives.trans (ih hrest))).mono ?_
    rintro s' rest' ⟨s₁, hname, s₂, hcomma, hothers⟩
    exact .more hname hcomma hothers

/-- **No new token comes to stand in front of the gap**, where something solid does. -/
theorem Symbol.Token.of_gap (h : symbol.Token (a ++ ' ' :: t) rest) (hsolid : Solid a)
    (ha : Seam a r) :
    ∃ b, rest = b ++ ' ' :: t ∧ symbol.Token (a ++ r) (b ++ r) := by
  obtain ⟨spelling, hspelling, hs, hends⟩ := token_iff.mp h
  obtain ⟨blanks, b, rfl, hskip⟩ := hsolid.skipBlanks_append
  rw [hskip] at hs
  obtain ⟨e, rfl, rfl⟩ : ∃ e, b = spelling ++ e ∧ rest = e ++ ' ' :: t := by
    obtain ⟨beyond, hbeyond, hgap⟩ | ⟨e, hb, hrest⟩ := List.append_eq_append_iff.mp hs
    · -- a spelling that reaches beyond the gap would have a blank in it
      cases beyond with
      | nil => exact ⟨[], by simpa using hbeyond.symm, by simpa using hgap.symm⟩
      | cons c beyond =>
        obtain rfl : ' ' = c := (List.cons.inj hgap).1
        have hblank := isBlank_of_mem_spelling hspelling ' ' (by simp [hbeyond])
        exact absurd hblank (by decide)
    · exact ⟨e, hb, hrest⟩
  refine ⟨e, rfl, token_iff.mpr ⟨spelling, hspelling, by rw [hskip, List.append_assoc], ?_⟩⟩
  have hseam : Seam spelling (e ++ ' ' :: t) := hends
  exact hseam.of_gap ha.of_append

theorem read?_gap_eq_none (h : symbol.read? (a ++ r) = none) (hsolid : Solid a) (ha : Seam a r)
    (t : List Char) : symbol.read? (a ++ ' ' :: t) = none := by
  refine Symbol.read?_eq_none_iff.mpr fun rest htoken => ?_
  obtain ⟨b, -, htoken'⟩ := htoken.of_gap hsolid ha
  exact Symbol.read?_eq_none_iff.mp h _ htoken'

theorem not_beginsReserved_gap (h : ¬BeginsReserved (a ++ r)) (hsolid : Solid a) (ha : Seam a r)
    (t : List Char) : ¬BeginsReserved (a ++ ' ' :: t) := by
  rintro ⟨symbol, rest, hreserved, htoken⟩
  obtain ⟨b, -, htoken'⟩ := htoken.of_gap hsolid ha
  exact h ⟨symbol, _, hreserved, htoken'⟩

theorem not_completesDotted_gap (h : ¬CompletesDotted (a ++ r)) (ha : Seam a r) (t : List Char) :
    ¬CompletesDotted (a ++ ' ' :: t) := by
  rintro ⟨symbol, rest, hne, hat⟩
  have htoken : symbol.Token ('.' :: a ++ ' ' :: t) rest := ⟨_, Blanks.refl _, hat⟩
  obtain ⟨b, -, htoken'⟩ := htoken.of_gap ⟨'.', List.mem_cons_self, by decide⟩
    (seam_cons_of_sign (by decide) ha)
  rw [Symbol.token_iff, List.cons_append, skipBlanks_cons (by decide)] at htoken'
  exact h ⟨symbol, _, hne, htoken'⟩

/-- What stands between a variable and a body survives, unless there is nothing. -/
theorem Separator.eq_or_survives (h : Separator s rest) :
    s = rest ∨ Survives r Separator s rest := by
  cases h with
  | none => exact .inl rfl
  | comma comma => exact .inr fun a hrest ha => (comma.survives a hrest ha).mono .comma
  | dot dot single =>
    refine .inr fun a hrest ha => ?_
    obtain ⟨a₀, hs, hseam, hsolid, hdot⟩ := dot.survives a hrest ha
    exact ⟨a₀, hs, hseam, hsolid,
      fun t => .dot (hdot t) (not_completesDotted_gap (hrest ▸ single) ha t)⟩

theorem Separator.kept (h : Separator s (a ++ r)) (hsolid : Solid a) (ha : Seam a r) :
    Kept r Separator s a := by
  obtain rfl | hsurvives := h.eq_or_survives (r := r)
  · exact ⟨a, rfl, ha, hsolid, fun _ => .none⟩
  · exact hsurvives a rfl ha

end Tokens

/-! ### Readings in front of a seam -/

/-- A reading of `s` that ends in front of a seam is kept, as long as something solid is left there
or what comes behind it ends the phrase. -/
def KeptReading (calculus : Calculus) (levels : List Level) (φ : Formula)
    (r s a : List Char) : Prop :=
  Kept r (fun s' rest' => Solid a ∨ EndsPhrase rest' →
    Yields (readOperation calculus levels s') φ rest') s a

/-- The readings of texts shorter than `n` are kept. -/
def KeptBelow (calculus : Calculus) (n : Nat) : Prop :=
  ∀ s : List Char, s.length < n → ∀ (levels : List Level) (φ : Formula) (r a : List Char),
    Yields (readOperation calculus levels s) φ (a ++ r) → Seam a r →
      KeptReading calculus levels φ r s a

section Readings

variable {calculus : Calculus} {c : Connective} {levels tighter : List Level} {x : Name}
  {φ left : Formula}
  {a r s t : List Char} {n : Nat}

/-- No connective goes on with a phrase that ends. -/
theorem connective_read?_of_endsPhrase (h : EndsPhrase s) :
    (Symbol.connective c).read? s = none := by
  have hstop : StopsAt .biconditional s := stopsAt_of_endsPhrase h
  obtain ⟨level, hlevel, rfl⟩ : ∃ level ∈ Rank.biconditional.levels, level.connective = c := by
    cases c <;> decide
  exact hstop.1 level hlevel

/-- No connective comes to stand in front of the gap or behind it. -/
theorem connective_read?_gap (h : (Symbol.connective c).read? (a ++ r) = none) (ha : Seam a r)
    (hends : Solid a ∨ EndsPhrase (a ++ ' ' :: t)) :
    (Symbol.connective c).read? (a ++ ' ' :: t) = none := by
  rcases hends with hsolid | hends
  · exact read?_gap_eq_none h hsolid ha t
  · exact connective_read?_of_endsPhrase hends

theorem KeptReading.of_solid (h : KeptReading calculus levels φ r s a) (hsolid : Solid a) :
    Kept r (fun s' rest' => Yields (readOperation calculus levels s') φ rest') s a :=
  h.mono fun hkept => hkept (.inl hsolid)

theorem keptReading_nil_iff : KeptReading calculus [] φ r s a ↔
    Kept r (fun s' rest' => Solid a ∨ EndsPhrase rest' → Yields (readPrefixed calculus s') φ rest')
      s a := by
  rw [KeptReading]
  simp only [readOperation_nil]

/-- A token that is a phrase by itself is kept as one. -/
theorem keptReading_of_token {symbol : Symbol} {ψ : Formula} {s₁ : List Char}
    (read : ∀ {s rest : List Char}, symbol.Token s rest → Yields (readPrefixed calculus s) ψ rest)
    (sign : symbol.Token s s₁) (h : Yields (readPrefixed calculus s) φ (a ++ r)) (ha : Seam a r) :
    KeptReading calculus [] φ r s a := by
  obtain ⟨rfl, rfl⟩ := (read sign).unique h
  exact keptReading_nil_iff.mpr ((sign.survives a rfl ha).mono fun htoken _ => read htoken)

/-- An atom is kept: neither a reserved symbol nor an argument list comes to stand in
front of the gap. -/
theorem keptReading_of_free
    (free : ∀ symbol : Symbol, symbol.beginsFormula = true → symbol.read? s = none)
    (h : Yields (readPrefixed calculus s) φ (a ++ r)) (ha : Seam a r) :
    KeptReading calculus [] φ r s a := by
  rw [readPrefixed_of_free free] at h
  have hfree := not_beginsReserved_of_free free
  obtain ⟨p, ⟨hname, hhead, rfl⟩ | ⟨s₁, args, rfl, hname, hargs, rfl⟩⟩ := yields_readAtom_iff.mp h
  · obtain ⟨a₀, rfl, hseam, hsolid, hkept⟩ := hname.survives a rfl ha
    refine keptReading_nil_iff.mpr ⟨a₀, rfl, hseam, hsolid, fun t _ => ?_⟩
    have hhead' : (a ++ ' ' :: t).head? ≠ some '(' := by
      cases a with
      | nil => simp
      | cons d a => exact hhead
    exact yields_atom (hkept t) (not_beginsReserved_gap hfree hsolid hseam t)
      (yields_readAtom_iff.mpr ⟨p, .inl ⟨hkept t, hhead', rfl⟩⟩)
  · obtain ⟨a₁, rfl, hseam₁, -, hargs⟩ := hargs.survives a rfl ha
    obtain ⟨a₀, rfl, hseam, hsolid, hkept⟩ :=
      hname.survives ('(' :: a₁) rfl (seam_cons_of_sign (by decide) hseam₁)
    refine keptReading_nil_iff.mpr ⟨a₀, rfl, hseam, hsolid, fun t _ => ?_⟩
    exact yields_atom (hkept t) (not_beginsReserved_gap hfree hsolid hseam t)
      (yields_readAtom_iff.mpr ⟨p, .inr ⟨_, args, rfl, hkept t, hargs t, rfl⟩⟩)

/-- What stands behind the variable of a quantifier is kept, with the separator in front of it. -/
theorem keptReading_of_quantifier {q : Quantifier} {s₁ : List Char}
    (below : KeptBelow calculus s.length) (sign : (Symbol.quantifier q).Token s s₁)
    (h : Yields (readPrefixed calculus s) φ (a ++ r)) (ha : Seam a r) :
    KeptReading calculus [] φ r s a := by
  obtain ⟨rfl, x, s₂, bound, ψ, hbody, rfl⟩ := (yields_quantifier_iff sign).mp h
  have hbody := below _ (length_skipSeparator_lt sign bound) _ _ r a hbody ha
  -- the separator counts on the body to leave something behind it
  have hseparator (a₃ : List Char) (hs₃ : skipSeparator s₂ = a₃ ++ r) (ha₃ : Seam a₃ r)
      (hsolid : Solid a₃) :
      Kept r Separator s₂ a₃ := (hs₃ ▸ separator_skipSeparator s₂).kept hsolid ha₃
  refine keptReading_nil_iff.mpr
    ((sign.survives.trans (bound.survives.trans (Kept.trans hseparator hbody))).mono ?_)
  rintro s' rest' ⟨s₁, hsign, s₂, hbound, s₃, hseparator, hyields⟩ hends
  have hbody := hyields hends
  rw [← skipSeparator_eq_of_separator hseparator (beginsFormula_of_yields hbody)] at hbody
  exact yields_quantified hsign hbound hbody

theorem keptReading_of_yields_readPrefixed (below : KeptBelow calculus s.length)
    (h : Yields (readPrefixed calculus s) φ (a ++ r)) (ha : Seam a r) :
    KeptReading calculus [] φ r s a := by
  cases opening s with
  | not sign =>
    rw [readPrefixed_of_not sign, yields_passOn_iff, ← readOperation_nil] at h
    obtain ⟨ψ, hinner, rfl⟩ := h
    have hkept := keptReading_nil_iff.mp (below _ sign.length_lt _ _ r a hinner ha)
    refine keptReading_nil_iff.mpr ((sign.survives.trans hkept).mono ?_)
    rintro s' rest' ⟨s₁, hsign, hyields⟩ hends
    exact yields_not hsign (hyields hends)
  | quantifier sign => exact keptReading_of_quantifier below sign h ha
  | openParen sign =>
    obtain ⟨s₂, hinner, hclose⟩ := (yields_openParen_iff sign).mp h
    have hbody (a₂ : List Char) (hs₂ : s₂ = a₂ ++ r) (ha₂ : Seam a₂ r) (hsolid : Solid a₂) :=
      (below _ sign.length_lt _ _ r a₂ (hs₂ ▸ hinner) ha₂).of_solid hsolid
    refine keptReading_nil_iff.mpr
      ((sign.survives.trans (Kept.trans hbody (hclose.survives a rfl ha))).mono ?_)
    rintro s' rest' ⟨s₁, hsign, s₂, hyields, hclose⟩ -
    exact yields_parentheses hsign hyields hclose
  | bottom sign => exact keptReading_of_token yields_bottom sign h ha
  | top sign => exact keptReading_of_token yields_top sign h ha
  | atom free => exact keptReading_of_free free h ha

/-- A chain is kept from any place on. Either something solid of it is left in front of the seam or
it is the end of the chain. -/
theorem exists_kept_chain (below : KeptBelow calculus n) (hs : s.length < n)
    (h : Yields (readChain calculus c tighter left s) φ (a ++ r)) (ha : Seam a r) :
    ∃ a₁, s = a₁ ++ r ∧ Seam a₁ r ∧ ∀ t, Solid a ∨ EndsPhrase (a ++ ' ' :: t) →
      (Solid a₁ ∨ EndsPhrase (a₁ ++ ' ' :: t)) ∧
        Yields (readChain calculus c tighter left (a₁ ++ ' ' :: t)) φ (a ++ ' ' :: t) := by
  induction hn : s.length using Nat.strongRecOn generalizing s left with
  | _ m ih =>
    subst hn
    rcases yields_chain_iff.mp h with ⟨rfl, rfl, hnone⟩ | ⟨s₁, ψ, s₂, hsign, hright, hchain⟩
    · refine ⟨a, rfl, ha, fun t hends => ⟨hends, ?_⟩⟩
      exact yields_chain_iff.mpr (.inl ⟨rfl, rfl, connective_read?_gap hnone ha hends⟩)
    · have hlt : s₁.length < n := Nat.lt_trans hsign.length_lt hs
      obtain ⟨a₂, rfl, ha₂, hchain⟩ :=
        ih _ (Nat.lt_trans hright.length_lt hsign.length_lt)
          (Nat.lt_trans hright.length_lt hlt) hchain rfl
      obtain ⟨a₁, rfl, hseam, hsolid, hkept⟩ :=
        hsign.survives.trans (below s₁ hlt _ _ r a₂ hright ha₂)
      refine ⟨a₁, rfl, hseam, fun t hends => ⟨.inl hsolid, ?_⟩⟩
      obtain ⟨hends₂, hchain⟩ := hchain t hends
      obtain ⟨s₁, hsign, hyields⟩ := hkept t
      exact yields_chain_iff.mpr (.inr ⟨s₁, ψ, _, hsign, hyields hends₂, hchain⟩)

/-- **A reading that ends in front of a seam is kept.** -/
theorem yields_kept (h : Yields (readOperation calculus levels s) φ (a ++ r)) (ha : Seam a r) :
    KeptReading calculus levels φ r s a := by
  induction hn : s.length using Nat.strongRecOn generalizing s levels φ r a with
  | _ n ih =>
    subst hn
    have below : KeptBelow calculus s.length := fun s' hs' _ _ _ _ h ha => ih _ hs' h ha rfl
    induction levels generalizing φ a with
    | nil =>
      rw [readOperation_nil] at h
      exact keptReading_of_yields_readPrefixed below h ha
    | cons level tighter ihl =>
      obtain ⟨c, associativity⟩ := level
      cases associativity with
      | left =>
        obtain ⟨ψ, s₁, hleft, hchain⟩ := yields_left_iff.mp h
        obtain ⟨a₁, rfl, ha₁, hchain⟩ := exists_kept_chain below hleft.length_lt hchain ha
        obtain ⟨a₀, hs, hseam, hsolid, hkept⟩ := ihl hleft ha₁
        refine ⟨a₀, hs, hseam, hsolid, fun t hends => ?_⟩
        obtain ⟨hends₁, hchain⟩ := hchain t hends
        exact yields_left_iff.mpr ⟨ψ, _, hkept t hends₁, hchain⟩
      | right =>
        obtain ⟨ψ, s₁, hleft, ⟨rfl, rfl, hnone⟩ | ⟨s₂, χ, hsign, hright, rfl⟩⟩ :=
          yields_right_iff.mp h
        · obtain ⟨a₀, hs, hseam, hsolid, hkept⟩ := ihl hleft ha
          refine ⟨a₀, hs, hseam, hsolid, fun t hends => ?_⟩
          exact yields_right_iff.mpr
            ⟨φ, _, hkept t hends, .inl ⟨rfl, rfl, connective_read?_gap hnone ha hends⟩⟩
        · have hlt : s₂.length < s.length := Nat.lt_trans hsign.length_lt hleft.length_lt
          have hoperand (a₁ : List Char) (hs₁ : s₁ = a₁ ++ r) (ha₁ : Seam a₁ r)
              (hsolid : Solid a₁) :=
            (ihl (hs₁ ▸ hleft) ha₁).of_solid hsolid
          refine (Kept.trans hoperand (hsign.survives.trans (below _ hlt _ _ r a hright ha))).mono
            ?_
          rintro s' rest' ⟨s₁, hleft, s₂, hsign, hright⟩ hends
          exact yields_right_iff.mpr ⟨ψ, s₁, hleft, .inr ⟨s₂, χ, hsign, hright hends, rfl⟩⟩

/-- An operand and the sign behind it survive together. -/
theorem survives_operand {symbol : Symbol} {s₁ s₂ : List Char}
    (hleft : Yields (readOperation calculus levels s) φ s₁) (hsign : symbol.Token s₁ s₂) :
    Survives r (fun s' rest' => ∃ s₁', Yields (readOperation calculus levels s') φ s₁' ∧
      symbol.Token s₁' rest') s s₂ := by
  intro a hs₂ ha
  refine Kept.trans (fun a₁ hs₁ ha₁ hsolid => ?_) (hsign.survives a hs₂ ha)
  exact (yields_kept (hs₁ ▸ hleft) ha₁).of_solid hsolid

end Readings

end NaturalDeduction
