import NaturalDeduction.Formula.Parser
import NaturalDeduction.Proofs.Formula.Grammar

/-!
# Reading tokens

The readers of symbols and names find exactly the tokens of the grammar. A reader tries the
spellings of its symbol in order and takes the first that fits, while the grammar lets any spelling
stand; the two agree because no spelling of a symbol begins another one (`eq_of_begins_spelling`).
The same fact tells symbols apart: at most one of them is the next token, if the single dot is left
out, which begins every dotted word.

## Main results

* `Symbol.Token.unique`: at most one symbol is the next token, and it ends in one place
* `Symbol.read?_eq_some_iff`, `readName?_eq_some_iff`: what the readers find
* `NameToken.isReserved_of_token`: which symbols can also be read as names
* `separator_skipSeparator`, `skipSeparator_eq_of_separator`: the separator behind a variable
-/

namespace NaturalDeduction

/-! ### Blanks -/

namespace Text

variable {s rest : List Char}

theorem Blanks.refl (s : List Char) : Blanks s s := ⟨[], by simp, rfl⟩

theorem Blanks.trans {s₁ : List Char} (h : Blanks s s₁) (h₁ : Blanks s₁ rest) : Blanks s rest := by
  obtain ⟨blanks, hblanks, rfl⟩ := h
  obtain ⟨blanks₁, hblanks₁, rfl⟩ := h₁
  refine ⟨blanks ++ blanks₁, fun c hc => ?_, (List.append_assoc ..).symm⟩
  exact (List.mem_append.mp hc).elim (hblanks c) (hblanks₁ c)

theorem blanks_skipBlanks (s : List Char) : Blanks s (skipBlanks s) := by
  refine ⟨s.takeWhile isBlank, ?_, List.takeWhile_append_dropWhile.symm⟩
  exact List.all_eq_true.mp List.all_takeWhile

/-- Blanks in front make no difference to what follows them. -/
theorem Blanks.skipBlanks_eq (h : Blanks s rest) : skipBlanks s = skipBlanks rest := by
  obtain ⟨blanks, hblanks, rfl⟩ := h
  exact List.dropWhile_append_of_pos hblanks

theorem skipBlanks_cons {c : Char} (hc : isBlank c = false) :
    skipBlanks (c :: rest) = c :: rest := by
  simp [skipBlanks, hc]

theorem Blanks.length_le (h : Blanks s rest) : rest.length ≤ s.length := by
  obtain ⟨blanks, -, rfl⟩ := h
  simp

end Text

/-! ### Spellings -/

namespace Symbol

/-- Every symbol once. -/
def all : List Symbol :=
  [not, connective .and, connective .or, connective .implies, connective .iff, quantifier .forAll,
   quantifier .forSome, bottom, top, openParen, closeParen, comma, dot]

theorem mem_all (symbol : Symbol) : symbol ∈ all := by
  cases symbol with
  | connective c => cases c <;> decide
  | quantifier q => cases q <;> decide
  | _ => decide

/-- **No spelling begins another**, except that a dot begins the dotted words. -/
theorem eq_of_begins_spelling {a b : Symbol} {u v : List Char} (hu : u ∈ a.spellings)
    (hv : v ∈ b.spellings) (h : u <+: v) : (a = b ∧ u = v) ∨ (a = dot ∧ b ≠ dot) := by
  have table : ∀ a ∈ all, ∀ b ∈ all, ∀ u ∈ a.spellings, ∀ v ∈ b.spellings, u <+: v →
      (a = b ∧ u = v) ∨ (a = dot ∧ b ≠ dot) := by decide +kernel
  exact table a (mem_all a) b (mem_all b) u hu v hv h

/-- A spelling begins with a character that is not blank, and that begins a name only if the
symbol is reserved. -/
theorem head_of_spelling {symbol : Symbol} {spelling : List Char}
    (h : spelling ∈ symbol.spellings) :
    ∃ c tail, spelling = c :: tail ∧ Text.isBlank c = false ∧
      (isNameStart c = true → symbol.isReserved = true) := by
  have table : ∀ symbol ∈ all, ∀ spelling ∈ symbol.spellings, spelling.head?.all (fun c =>
      !Text.isBlank c && (!isNameStart c || symbol.isReserved)) = true := by decide +kernel
  cases spelling with
  | nil => exact absurd rfl (spellings_ne_nil h)
  | cons c tail =>
    have hc := table symbol (mem_all symbol) _ h
    simp only [List.head?_cons, Option.all_some, Bool.and_eq_true, Bool.not_eq_true',
      Bool.or_eq_true] at hc
    refine ⟨c, tail, rfl, hc.1, fun hstart => hc.2.resolve_left ?_⟩
    simp [hstart]

/-- No blank stands in a spelling. -/
theorem isBlank_of_mem_spelling {symbol : Symbol} {spelling : List Char}
    (h : spelling ∈ symbol.spellings) :
    ∀ c ∈ spelling, Text.isBlank c = false := by
  have table : ∀ symbol ∈ all, ∀ spelling ∈ symbol.spellings,
      spelling.all (!Text.isBlank ·) = true := by
    decide +kernel
  intro c hc
  simpa using List.all_eq_true.mp (table symbol (mem_all symbol) spelling h) c hc

/-! ### Symbols -/

variable {a b symbol : Symbol} {s rest rest' : List Char}

/-- At most one symbol stands at a place, and it ends in one place. -/
theorem At.unique (ha : a.At s rest) (hb : b.At s rest') (hdot : a = dot ↔ b = dot) :
    a = b ∧ rest = rest' := by
  obtain ⟨u, hu, rfl, -⟩ := ha
  obtain ⟨v, hv, hs, -⟩ := hb
  have hsame : a = b ∧ u = v := by
    rcases List.prefix_or_prefix_of_prefix (List.prefix_append u rest) ⟨rest', hs.symm⟩ with h | h
    · exact (eq_of_begins_spelling hu hv h).resolve_right fun ⟨ha, hb⟩ => hb (hdot.mp ha)
    · obtain ⟨hab, huv⟩ :=
        (eq_of_begins_spelling hv hu h).resolve_right fun ⟨hb, ha⟩ => ha (hdot.mpr hb)
      exact ⟨hab.symm, huv.symm⟩
  obtain ⟨rfl, rfl⟩ := hsame
  exact ⟨rfl, List.append_cancel_left hs⟩

theorem At.skipBlanks_eq (h : symbol.At s rest) : Text.skipBlanks s = s := by
  obtain ⟨spelling, hspelling, rfl, -⟩ := h
  obtain ⟨c, tail, rfl, hc, -⟩ := head_of_spelling hspelling
  exact Text.skipBlanks_cons hc

/-- The next token stands behind all the blanks. -/
theorem token_iff : symbol.Token s rest ↔ symbol.At (Text.skipBlanks s) rest := by
  constructor
  · rintro ⟨t, hblanks, hat⟩
    rwa [hblanks.skipBlanks_eq, hat.skipBlanks_eq]
  · exact fun h => ⟨_, Text.blanks_skipBlanks s, h⟩

theorem Token.unique (ha : a.Token s rest) (hb : b.Token s rest') (hadot : a ≠ dot)
    (hbdot : b ≠ dot) : a = b ∧ rest = rest' :=
  (token_iff.mp ha).unique (token_iff.mp hb) (iff_of_false hadot hbdot)

/-- What the reader of a symbol looks for is a spelling that ends where it may. -/
theorem after?_eq_some_iff : symbol.after? s = some rest ↔ symbol.At s rest := by
  have hspelling (spelling r : List Char) : afterSpelling? spelling s = some r ↔
      s = spelling ++ r ∧ ¬(spelling.getLast?.any isNameChar = true ∧ continuesName r = true) := by
    rw [afterSpelling?, Option.filter_eq_some_iff, Text.after?_eq_some_iff]
    cases spelling.getLast?.any isNameChar <;> cases continuesName r <;> simp
  constructor
  · intro h
    obtain ⟨spelling, hmem, hafter⟩ := List.exists_of_findSome?_eq_some h
    exact ⟨spelling, hmem, (hspelling spelling rest).mp hafter⟩
  · intro h
    have hsome : (symbol.after? s).isSome = true := by
      obtain ⟨spelling, hmem, hat⟩ := h
      rw [after?, List.findSome?_isSome_iff]
      exact ⟨spelling, hmem, by rw [(hspelling spelling rest).mpr hat]; rfl⟩
    obtain ⟨r, hr⟩ := Option.isSome_iff_exists.mp hsome
    -- another spelling may have been found first, but it ends in the same place
    obtain ⟨other, hmem, hafter⟩ := List.exists_of_findSome?_eq_some hr
    have hat : symbol.At s r := ⟨other, hmem, (hspelling other r).mp hafter⟩
    rw [hr, (hat.unique h Iff.rfl).2]

theorem read?_eq_some_iff {r : Shorter s} : symbol.read? s = some r ↔ symbol.Token s r.val := by
  rw [token_iff, ← after?_eq_some_iff, read?]
  split
  · next h => simp [h]
  · next rest h => simp [h, Subtype.ext_iff]

theorem Token.length_lt (h : symbol.Token s rest) : rest.length < s.length := by
  rw [token_iff, ← after?_eq_some_iff] at h
  exact Nat.lt_of_lt_of_le (length_lt_of_after? h) (Text.length_skipBlanks_le s)

theorem Token.read? (h : symbol.Token s rest) : symbol.read? s = some ⟨rest, h.length_lt⟩ :=
  read?_eq_some_iff.mpr h

theorem read?_eq_none_iff : symbol.read? s = none ↔ ∀ rest, ¬symbol.Token s rest := by
  constructor
  · intro h rest htoken
    rw [htoken.read?] at h
    cases h
  · intro h
    cases hr : symbol.read? s with
    | none => rfl
    | some r => exact absurd (read?_eq_some_iff.mp hr) (h r.val)

/-- A symbol that is the next token ends in one place. -/
theorem exists_token_iff {s₁ : List Char} {P : List Char → Prop}
    (h : symbol.Token s s₁) (hdot : symbol ≠ .dot) : (∃ t, symbol.Token s t ∧ P t) ↔ P s₁ := by
  constructor
  · rintro ⟨t, ht, hP⟩
    rwa [(h.unique ht hdot hdot).2]
  · exact fun hP => ⟨s₁, h, hP⟩

/-- A symbol is not the next token where another one is. -/
theorem Token.read?_eq_none (h : a.Token s rest) (hne : a ≠ b) (hadot : a ≠ dot) (hbdot : b ≠ dot) :
    b.read? s = none :=
  read?_eq_none_iff.mpr fun _ hb => hne (h.unique hb hadot hbdot).1

end Symbol

/-! ### Names -/

section Names

variable {x y : Name} {s rest rest' : List Char}

theorem isBlank_of_isNameStart {c : Char} (h : isNameStart c = true) : Text.isBlank c = false := by
  have halpha : c.isAlpha = (decide (c.val ≥ 'A'.val ∧ c.val ≤ 'Z'.val) ||
      (decide (c.val ≥ 'a'.val) && decide (c.val ≤ 'z'.val))) := rfl
  have hbound : 65 ≤ c.toNat ∧ c.toNat ≤ 122 := by
    simp only [isNameStart, halpha, Bool.or_eq_true, Bool.and_eq_true, decide_eq_true_eq, ge_iff_le,
      UInt32.le_iff_toNat_le] at h
    rcases h with (h | h) | rfl
    · simp only [Char.toNat]
      constructor
      · exact h.1
      · exact Nat.le_trans h.2 (by decide)
    · simp only [Char.toNat]
      constructor
      · exact Nat.le_trans (by decide) h.1
      · exact h.2
    · decide
  simp only [Text.isBlank, Text.inRanges, Text.blankRanges, List.any_eq_false, List.mem_cons]
  simp
  omega

theorem isNameChar_of_isNameStart {c : Char} (h : isNameStart c = true) : isNameChar c = true := by
  simp only [isNameStart, isNameChar, Char.isAlphanum, Bool.or_eq_true] at h ⊢
  rcases h with h | h
  · exact .inl (.inl h)
  · exact .inr h

theorem isBlank_of_isNameChar {c : Char} (h : isNameChar c = true) : Text.isBlank c = false := by
  simp only [isNameChar, Char.isAlphanum, Bool.or_eq_true] at h
  rcases h with (h | h) | h
  · exact isBlank_of_isNameStart (by simp [isNameStart, h])
  · have hdigit : c.isDigit = (decide (c.val ≥ '0'.val) && decide (c.val ≤ '9'.val)) := rfl
    have hbound : 48 ≤ c.toNat ∧ c.toNat ≤ 57 := by
      simp only [hdigit, Bool.and_eq_true, decide_eq_true_eq, ge_iff_le, UInt32.le_iff_toNat_le]
        at h
      exact h
    simp only [Text.isBlank, Text.inRanges, Text.blankRanges, List.any_eq_false, List.mem_cons]
    simp
    omega
  · exact isBlank_of_isNameStart (by simp [isNameStart, h])

theorem IsIdentifier.isNameChar (hx : IsIdentifier x) : ∀ c ∈ x.toList, isNameChar c = true := by
  obtain ⟨c, tail, htext, hc, htail⟩ := hx
  rw [htext]
  exact List.forall_mem_cons.mpr ⟨isNameChar_of_isNameStart hc, htail⟩

/-- The next name stands behind all the blanks. -/
theorem nameToken_iff : NameToken x s rest ↔
    IsIdentifier x ∧ Text.skipBlanks s = x.toList ++ rest ∧ continuesName rest = false := by
  have hself (hx : IsIdentifier x) : Text.skipBlanks (x.toList ++ rest) = x.toList ++ rest := by
    obtain ⟨c, tail, htext, hc, -⟩ := hx
    rw [htext]
    exact Text.skipBlanks_cons (isBlank_of_isNameStart hc)
  constructor
  · rintro ⟨hx, hblanks, hrest⟩
    exact ⟨hx, hblanks.skipBlanks_eq.trans (hself hx), hrest⟩
  · rintro ⟨hx, hs, hrest⟩
    exact ⟨hx, hs ▸ Text.blanks_skipBlanks s, hrest⟩

theorem NameToken.length_lt (h : NameToken x s rest) : rest.length < s.length := by
  obtain ⟨⟨c, tail, htext, -⟩, hblanks, -⟩ := h
  have hle := hblanks.length_le
  rw [htext] at hle
  simp only [List.cons_append, List.length_cons, List.length_append] at hle
  omega

/-- A name is read as far as it goes. -/
theorem readName?_eq_some_iff {r : Shorter s} :
    readName? s = some (x, r) ↔ NameToken x s r.val := by
  rw [nameToken_iff, readName?]
  split
  · next hs =>
    refine iff_of_false nofun ?_
    rintro ⟨⟨c, tail, htext, -⟩, h, -⟩
    rw [htext, hs] at h
    cases h
  · next c rest hs =>
    by_cases hc : isNameStart c = true
    · rw [if_pos hc, Option.some_inj, Prod.mk.injEq, Subtype.ext_iff]
      constructor
      · rintro ⟨rfl, hrest⟩
        refine ⟨⟨c, rest.takeWhile isNameChar, by simp, hc, ?_⟩, ?_, ?_⟩
        · exact List.all_eq_true.mp List.all_takeWhile
        · rw [hs, ← hrest]
          simp
        · rw [← hrest, continuesName]
          have hhead := List.head?_dropWhile_not isNameChar rest
          cases h : (rest.dropWhile isNameChar).head? with
          | none => rfl
          | some d => simpa [h] using hhead
      · rintro ⟨⟨d, tail, htext, hd, htail⟩, h, hstop⟩
        rw [hs, htext, List.cons_append, List.cons.injEq] at h
        obtain ⟨rfl, rfl⟩ := h
        have hnone : r.val.takeWhile isNameChar = [] ∧ r.val.dropWhile isNameChar = r.val := by
          cases hr : r.val with
          | nil => exact ⟨rfl, rfl⟩
          | cons e t =>
            have he : isNameChar e = false := by simpa [hr, continuesName] using hstop
            simp [he]
        constructor
        · rw [List.takeWhile_append_of_pos htail, hnone.1, List.append_nil, ← htext,
            String.ofList_toList]
        · show List.dropWhile isNameChar (tail ++ r.val) = r.val
          rw [List.dropWhile_append_of_pos htail, hnone.2]
    · rw [if_neg hc]
      refine iff_of_false nofun ?_
      rintro ⟨⟨d, tail, htext, hd, -⟩, h, -⟩
      rw [hs, htext, List.cons_append, List.cons.injEq] at h
      exact hc (h.1 ▸ hd)

theorem NameToken.readName? (h : NameToken x s rest) :
    readName? s = some (x, ⟨rest, h.length_lt⟩) :=
  readName?_eq_some_iff.mpr h

/-- At most one name is the next token. -/
theorem NameToken.unique (h : NameToken x s rest) (h' : NameToken y s rest') :
    x = y ∧ rest = rest' := by
  have heq := h.readName?.symm.trans h'.readName?
  simpa using heq

theorem exists_name_iff {s₁ : List Char} {P : Name → List Char → Prop}
    (h : NameToken x s s₁) : (∃ y t, NameToken y s t ∧ P y t) ↔ P x s₁ := by
  constructor
  · rintro ⟨y, t, hy, hP⟩
    obtain ⟨rfl, rfl⟩ := h.unique hy
    exact hP
  · exact fun hP => ⟨x, s₁, h, hP⟩

/-- What can be read as a name can be read as a reserved symbol at most. -/
theorem NameToken.isReserved_of_token (h : NameToken x s rest) {symbol : Symbol}
    (hsymbol : symbol.Token s rest') : symbol.isReserved = true := by
  obtain ⟨⟨c, tail, htext, hc, -⟩, hs, -⟩ := nameToken_iff.mp h
  obtain ⟨spelling, hspelling, hs', -⟩ := Symbol.token_iff.mp hsymbol
  obtain ⟨d, tail', rfl, -, hd⟩ := Symbol.head_of_spelling hspelling
  rw [hs, htext, List.cons_append, List.cons_append, List.cons.injEq] at hs'
  exact hd (hs'.1 ▸ hc)

end Names

/-! ### Separators -/

section Separators

variable {s rest : List Char}

/-- A spelling that begins with a dot is a dotted word, except the dot itself. -/
theorem Symbol.dotted_of_spelling {symbol : Symbol} {word : List Char}
    (h : '.' :: word ∈ symbol.spellings) (hne : symbol ≠ .dot) :
    word ∈ dottedWords ∧ ('.' :: word).getLast?.any isNameChar = true := by
  have table : ∀ symbol ∈ all, symbol ≠ .dot → ∀ spelling ∈ symbol.spellings,
      spelling.head? = some '.' →
        spelling.tail ∈ dottedWords ∧ spelling.getLast?.any isNameChar = true := by decide +kernel
  exact table symbol (mem_all symbol) hne _ h rfl

theorem Symbol.exists_of_mem_dottedWords {word : List Char} (h : word ∈ dottedWords) :
    ∃ symbol : Symbol, symbol ≠ .dot ∧ '.' :: word ∈ symbol.spellings := by
  have table : ∀ word ∈ dottedWords, ∃ symbol ∈ all, symbol ≠ .dot ∧
      '.' :: word ∈ symbol.spellings := by
    decide +kernel
  obtain ⟨symbol, -, hne, hmem⟩ := table word h
  exact ⟨symbol, hne, hmem⟩

theorem beginsDottedWord_iff : Symbol.beginsDottedWord s = true ↔ CompletesDotted s := by
  rw [Symbol.beginsDottedWord, List.any_eq_true]
  constructor
  · rintro ⟨word, hword, hafter⟩
    obtain ⟨rest, hrest, hstop⟩ := (Option.any_eq_true _ _).mp hafter
    obtain rfl := Text.after?_eq_some_iff.mp hrest
    obtain ⟨symbol, hne, hmem⟩ := Symbol.exists_of_mem_dottedWords hword
    refine ⟨symbol, rest, hne, _, hmem, rfl, fun h => ?_⟩
    rw [h.2] at hstop
    cases hstop
  · rintro ⟨symbol, rest, hne, spelling, hspelling, hs, hstop⟩
    obtain ⟨c, word, rfl, -⟩ := Symbol.head_of_spelling hspelling
    rw [List.cons_append, List.cons.injEq] at hs
    obtain ⟨rfl, rfl⟩ := hs
    obtain ⟨hword, hlast⟩ := Symbol.dotted_of_spelling hspelling hne
    refine ⟨word, hword, (Option.any_eq_true _ _).mpr ⟨rest, Text.after?_eq_some_iff.mpr rfl, ?_⟩⟩
    simpa [hlast] using hstop

/-- The symbols that a formula can begin with. -/
def Symbol.beginsFormula : Symbol → Bool
  | not | openParen | quantifier _ | bottom | top => true
  | _ => false

/-- The next token is one that a formula can begin with. -/
def BeginsFormula (s : List Char) : Prop :=
  (∃ (symbol : Symbol) (rest : List Char), symbol.beginsFormula = true ∧ symbol.Token s rest) ∨
    ∃ x rest, NameToken x s rest

theorem separator_skipSeparator (s : List Char) : Separator s (skipSeparator s) := by
  unfold skipSeparator
  split
  · next rest hcomma => exact .comma (Symbol.read?_eq_some_iff.mp hcomma)
  · split
    · next rest hdot =>
      split
      · exact .none
      · next hsingle =>
        exact .dot (Symbol.read?_eq_some_iff.mp hdot) (mt beginsDottedWord_iff.mpr hsingle)
    · exact .none

/-- A symbol other than the dot is the next token where the dot is, only if it is a dotted word. -/
theorem completesDotted_of_token {symbol : Symbol} {rest' : List Char}
    (hdot : Symbol.dot.Token s rest) (h : symbol.Token s rest') (hne : symbol ≠ .dot) :
    CompletesDotted rest := by
  rw [Symbol.token_iff] at hdot h
  obtain ⟨spelling, hspelling, hs, -⟩ := hdot
  obtain rfl : spelling = ['.'] := by simpa [Symbol.spellings] using hspelling
  exact ⟨symbol, rest', hne, by rwa [hs] at h⟩

theorem BeginsFormula.comma_read? (h : BeginsFormula s) : Symbol.comma.read? s = none := by
  refine Symbol.read?_eq_none_iff.mpr fun rest hcomma => ?_
  rcases h with ⟨symbol, r, hbegins, htoken⟩ | ⟨x, r, hname⟩
  · have hdot : symbol ≠ .dot := by
      rintro rfl
      cases hbegins
    obtain ⟨rfl, -⟩ := htoken.unique hcomma hdot nofun
    cases hbegins
  · have hreserved := hname.isReserved_of_token hcomma
    cases hreserved

/-- A dot in front of a formula belongs to it. -/
theorem BeginsFormula.completesDotted (h : BeginsFormula s) (hdot : Symbol.dot.Token s rest) :
    CompletesDotted rest := by
  rcases h with ⟨symbol, r, hbegins, htoken⟩ | ⟨x, r, hname⟩
  · refine completesDotted_of_token hdot htoken ?_
    rintro rfl
    cases hbegins
  · have hreserved := hname.isReserved_of_token hdot
    cases hreserved

/-- In front of a formula the reader takes the separator that there is. -/
theorem skipSeparator_eq_of_separator (h : Separator s rest) (hbody : BeginsFormula rest) :
    skipSeparator s = rest := by
  cases h with
  | none =>
    rw [skipSeparator, hbody.comma_read?]
    cases hdot : Symbol.dot.read? s with
    | none => rfl
    | some r =>
      have hword := hbody.completesDotted (Symbol.read?_eq_some_iff.mp hdot)
      exact if_pos (beginsDottedWord_iff.mpr hword)
  | comma hcomma => rw [skipSeparator, hcomma.read?]
  | dot hdot hsingle =>
    have hcomma : Symbol.comma.read? s = none := by
      refine Symbol.read?_eq_none_iff.mpr fun r hcomma => ?_
      exact hsingle (completesDotted_of_token hdot hcomma (by decide))
    rw [skipSeparator, hcomma, hdot.read?]
    exact if_neg (mt beginsDottedWord_iff.mp hsingle)

end Separators

end NaturalDeduction
