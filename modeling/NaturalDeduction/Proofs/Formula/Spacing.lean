import Mathlib.Control.Monad.Basic
import NaturalDeduction.Proofs.Formula.Openings
import NaturalDeduction.Proofs.Formula.Recognition

/-!
# Blanks between words

How many blanks stand between the words of a text, and which, makes no difference to its reading:
two texts with the same words are read as the same formula, or both are refused for want of the
same, at the same character.

## What the reader sees of a gap

Most of what the reader does skips blanks first, so that a gap is gone before anything is looked at.
In two places it looks at what stands directly behind a token, at the parenthesis of an argument
list and at a dot behind a variable. There it matters whether there is a gap at all. So the
comparison is between texts with the same words (`Text.words`) where blanks are skipped next, and
behind a token between texts that also agree up to the first blank (`Text.Flush`). A token turns the
first into the second (`Symbol.Token.of_words_eq`), since no blank stands inside it.

## Main definitions

* `Text.words`: the longest pieces of a text without blanks
* `Alike`: two readings that come to the same

## Main results

* `alike_readOperation`: texts with the same words are read alike
* `Formula.parse_respaced`: the same for whole texts and their errors
-/

namespace NaturalDeduction

/-! ### Words -/

namespace Text

/-- The words of a text: its longest pieces without blanks, in order. -/
def words (s : List Char) : List (List Char) :=
  (s.splitOnP isBlank).filter fun word => !word.isEmpty

/-- What a text begins with, up to its first blank. -/
def firstRun (s : List Char) : List Char := s.takeWhile fun c => !isBlank c

/-- What follows, from the first blank on. -/
def afterRun (s : List Char) : List Char := s.dropWhile fun c => !isBlank c

variable {c : Char} {s t u v : List Char}

theorem words_cons_of_isBlank (hc : isBlank c = true) (s : List Char) :
    words (c :: s) = words s := by
  simp [words, List.splitOnP_cons_eq_if_modifyHead, hc]

theorem words_skipBlanks (s : List Char) : words (skipBlanks s) = words s := by
  induction s with
  | nil => rfl
  | cons c s ih =>
    cases hc : isBlank c with
    | true =>
      rw [words_cons_of_isBlank hc, ← ih]
      simp [skipBlanks, hc]
    | false => rw [skipBlanks_cons hc]

/-- A piece without blanks that ends at a blank, or with the text, is a word, unless it is empty. -/
theorem words_append (hu : ∀ c ∈ u, isBlank c = false) (hv : ∀ c ∈ v.head?, isBlank c = true) :
    words (u ++ v) = if u = [] then words v else u :: words v := by
  by_cases hne : u = []
  · simp [hne]
  · rw [if_neg hne]
    cases v with
    | nil => simp [words, List.splitOnP_eq_singleton hu, hne]
    | cons c v =>
      have hc : isBlank c = true := hv c rfl
      rw [words_cons_of_isBlank hc, words, List.splitOnP_append_cons_of_forall_mem hu c hc]
      simp [words, hne]

theorem firstRun_append_afterRun (s : List Char) : firstRun s ++ afterRun s = s :=
  List.takeWhile_append_dropWhile

theorem firstRun_append (hu : ∀ c ∈ u, isBlank c = false) (s : List Char) :
    firstRun (u ++ s) = u ++ firstRun s :=
  List.takeWhile_append_of_pos fun c hc => by simp [hu c hc]

theorem afterRun_append (hu : ∀ c ∈ u, isBlank c = false) (s : List Char) :
    afterRun (u ++ s) = afterRun s :=
  List.dropWhile_append_of_pos fun c hc => by simp [hu c hc]

/-- The first run is the first word, unless it is empty. -/
theorem words_eq (s : List Char) :
    words s = if firstRun s = [] then words (afterRun s) else firstRun s :: words (afterRun s) := by
  have hrun : ∀ c ∈ firstRun s, isBlank c = false := fun c hc => by
    simpa using List.all_eq_true.mp List.all_takeWhile c hc
  have hafter : ∀ c ∈ (afterRun s).head?, isBlank c = true := fun c hc => by
    have hhead := List.head?_dropWhile_not (fun c => !isBlank c) s
    rw [show (s.dropWhile fun c => !isBlank c).head? = some c from hc] at hhead
    simpa using hhead
  have hwords := words_append hrun hafter
  rwa [firstRun_append_afterRun] at hwords

/-- The same words, and the same up to the first blank. -/
structure Flush (s t : List Char) : Prop where
  words_eq : words s = words t
  firstRun_eq : firstRun s = firstRun t

theorem Flush.symm (h : Flush s t) : Flush t s := ⟨h.words_eq.symm, h.firstRun_eq.symm⟩

/-- Behind the blanks in front, a text begins with its first word. -/
theorem firstRun_skipBlanks (s : List Char) : firstRun (skipBlanks s) = (words s).headD [] := by
  rw [← words_skipBlanks]
  cases hs : skipBlanks s with
  | nil => rfl
  | cons c r =>
    have hc := isBlank_of_skipBlanks_eq_cons hs
    have hrun : firstRun (c :: r) = c :: firstRun r :=
      firstRun_append (u := [c]) (by simpa using hc) r
    rw [Text.words_eq, hrun, if_neg nofun, List.headD_cons]

/-- Where blanks are skipped, the words are all that matters. -/
theorem flush_skipBlanks (h : words s = words t) : Flush (skipBlanks s) (skipBlanks t) where
  words_eq := by rw [words_skipBlanks, words_skipBlanks, h]
  firstRun_eq := by rw [firstRun_skipBlanks, firstRun_skipBlanks, h]

/-- What one text begins with, the other does too, if no blank is in it. -/
theorem Flush.exists_append (h : Flush (u ++ s) t) (hu : ∀ c ∈ u, isBlank c = false) :
    ∃ t', t = u ++ t' ∧ Flush s t' := by
  obtain ⟨t', rfl⟩ : ∃ t', t = u ++ t' := by
    refine ⟨firstRun s ++ afterRun t, ?_⟩
    rw [← List.append_assoc, ← firstRun_append hu, h.firstRun_eq, firstRun_append_afterRun]
  have hrun : firstRun s = firstRun t' := by
    have heq := h.firstRun_eq
    rwa [firstRun_append hu, firstRun_append hu, List.append_cancel_left_eq] at heq
  refine ⟨t', rfl, ?_, hrun⟩
  by_cases hne : u = []
  · simpa [hne] using h.words_eq
  · -- the rests of the first words are the same, and so are the words behind them
    have hwords := h.words_eq
    rw [Text.words_eq, Text.words_eq (u ++ t'), firstRun_append hu, firstRun_append hu,
      afterRun_append hu, afterRun_append hu, if_neg (by simp [hne]), if_neg (by simp [hne]),
      List.cons.injEq] at hwords
    rw [Text.words_eq, Text.words_eq t', hrun, hwords.2]

theorem Flush.head?_eq_some (h : Flush s t) (hc : isBlank c = false) (hs : s.head? = some c) :
    t.head? = some c := by
  obtain ⟨r, rfl⟩ := List.head?_eq_some_iff.mp hs
  obtain ⟨t', rfl, -⟩ := h.exists_append (u := [c]) (by simpa using hc)
  rfl

theorem head?_skipBlanks_eq (h : words s = words t) :
    (skipBlanks s).head? = (skipBlanks t).head? := by
  have hhead {s t : List Char} (h : words s = words t) {c : Char}
      (hs : (skipBlanks s).head? = some c) :
      (skipBlanks t).head? = some c := by
    obtain ⟨r, hr⟩ := List.head?_eq_some_iff.mp hs
    exact (flush_skipBlanks h).head?_eq_some (isBlank_of_skipBlanks_eq_cons hr) hs
  exact Option.ext fun c => ⟨hhead h, hhead h.symm⟩

end Text

/-! ### Tokens -/

section Tokens

open Text

variable {symbol : Symbol} {x : Name} {s t rest : List Char}

theorem Text.Flush.continuesName_eq (h : Flush s t) : continuesName s = continuesName t := by
  have hgoes {s t : List Char} (h : Flush s t) (hs : continuesName s = true) :
      continuesName t = true := by
    obtain ⟨c, hc, hname⟩ := (Option.any_eq_true _ _).mp hs
    exact (Option.any_eq_true _ _).mpr ⟨c, h.head?_eq_some (isBlank_of_isNameChar hname) hc, hname⟩
  exact Bool.eq_iff_iff.mpr ⟨hgoes h, hgoes h.symm⟩

/-- **A token stands in both texts**, and they go on flush. -/
theorem Symbol.Token.of_words_eq (h : symbol.Token s rest) (hwords : words s = words t) :
    ∃ rest', symbol.Token t rest' ∧ Flush rest rest' := by
  obtain ⟨spelling, hspelling, hs, hends⟩ := token_iff.mp h
  have hflush := flush_skipBlanks hwords
  rw [hs] at hflush
  obtain ⟨rest', ht, hrest⟩ := hflush.exists_append (isBlank_of_mem_spelling hspelling)
  rw [hrest.continuesName_eq] at hends
  exact ⟨rest', token_iff.mpr ⟨spelling, hspelling, ht, hends⟩, hrest⟩

theorem NameToken.of_words_eq (h : NameToken x s rest) (hwords : words s = words t) :
    ∃ rest', NameToken x t rest' ∧ Flush rest rest' := by
  obtain ⟨hx, hs, hends⟩ := nameToken_iff.mp h
  have hflush := flush_skipBlanks hwords
  rw [hs] at hflush
  obtain ⟨rest', ht, hrest⟩ :=
    hflush.exists_append fun c hc => isBlank_of_isNameChar (hx.isNameChar c hc)
  rw [hrest.continuesName_eq] at hends
  exact ⟨rest', nameToken_iff.mpr ⟨hx, ht, hends⟩, hrest⟩

theorem Symbol.read?_eq_none_of_words_eq (h : symbol.read? s = none) (hwords : words s = words t) :
    symbol.read? t = none := by
  refine read?_eq_none_iff.mpr fun rest htoken => ?_
  obtain ⟨rest', htoken', -⟩ := htoken.of_words_eq hwords.symm
  exact read?_eq_none_iff.mp h rest' htoken'

theorem readName?_eq_none_of_words_eq (h : readName? s = none) (hwords : words s = words t) :
    readName? t = none := by
  cases ht : readName? t with
  | none => rfl
  | some read =>
    obtain ⟨rest, hname, -⟩ := (readName?_eq_some_iff.mp ht).of_words_eq hwords.symm
    rw [hname.readName?] at h
    cases h

/-- A symbol is the next token of both texts or of neither. -/
theorem Symbol.token_cases (symbol : Symbol) (hwords : words s = words t) :
    (symbol.read? s = none ∧ symbol.read? t = none) ∨
      ∃ s₁ t₁, symbol.Token s s₁ ∧ symbol.Token t t₁ ∧ Flush s₁ t₁ := by
  cases hs : symbol.read? s with
  | none => exact .inl ⟨rfl, read?_eq_none_of_words_eq hs hwords⟩
  | some s₁ =>
    have htoken := read?_eq_some_iff.mp hs
    obtain ⟨t₁, htoken', hflush⟩ := htoken.of_words_eq hwords
    exact .inr ⟨s₁, t₁, htoken, htoken', hflush⟩

/-- A name is the next token of both texts or of neither. -/
theorem nameToken_cases (hwords : words s = words t) :
    (readName? s = none ∧ readName? t = none) ∨
      ∃ x s₁ t₁, NameToken x s s₁ ∧ NameToken x t t₁ ∧ Flush s₁ t₁ := by
  cases hs : readName? s with
  | none => exact .inl ⟨rfl, readName?_eq_none_of_words_eq hs hwords⟩
  | some read =>
    obtain ⟨x, s₁⟩ := read
    have hname := readName?_eq_some_iff.mp hs
    obtain ⟨t₁, hname', hflush⟩ := hname.of_words_eq hwords
    exact .inr ⟨x, s₁, t₁, hname, hname', hflush⟩

theorem CompletesDotted.of_flush (h : CompletesDotted s) (hflush : Flush s t) :
    CompletesDotted t := by
  obtain ⟨symbol, rest, hne, spelling, hspelling, hs, hends⟩ := h
  have hblank := Symbol.isBlank_of_mem_spelling hspelling
  obtain ⟨c, word, rfl, -⟩ := Symbol.head_of_spelling hspelling
  rw [List.cons_append, List.cons.injEq] at hs
  obtain ⟨rfl, rfl⟩ := hs
  obtain ⟨rest', rfl, hrest⟩ :=
    hflush.exists_append fun c hc => hblank c (List.mem_cons_of_mem _ hc)
  rw [hrest.continuesName_eq] at hends
  exact ⟨symbol, rest', hne, _, hspelling, rfl, hends⟩

theorem words_skipSeparator (hwords : words s = words t) :
    words (skipSeparator s) = words (skipSeparator t) := by
  rcases Symbol.token_cases .comma hwords with ⟨hs, ht⟩ | ⟨s₁, t₁, hs, ht, hflush⟩
  · rcases Symbol.token_cases .dot hwords with ⟨hs', ht'⟩ | ⟨s₁, t₁, hs', ht', hflush⟩
    · simpa [skipSeparator, hs, ht, hs', ht'] using hwords
    · have hdotted : Symbol.beginsDottedWord s₁ = Symbol.beginsDottedWord t₁ :=
        Bool.eq_iff_iff.mpr (by
          rw [beginsDottedWord_iff, beginsDottedWord_iff]
          exact ⟨fun h => h.of_flush hflush, fun h => h.of_flush hflush.symm⟩)
      simp only [skipSeparator, hs, ht, hs'.read?, ht'.read?, hdotted]
      split
      · exact hwords
      · exact hflush.words_eq
  · simpa [skipSeparator, hs.read?, ht.read?] using hflush.words_eq

end Tokens

/-! ### Readings -/

section Readings

open Text

variable {α β : Type} {m n m' n' : Nat} {calculus : Calculus} {c : Connective}
  {levels tighter : List Level}
  {left : Formula} {s t : List Char}

/-- Two readings come to the same: the same has been read and the same words follow, or both are
stuck for want of the same, before the same character. -/
inductive Alike (x : Except Stuck (Parsed α m)) (y : Except Stuck (Parsed α n)) : Prop
  | read {a : α} {rest rest' : List Char} (hx : Yields x a rest) (hy : Yields y a rest')
      (hwords : words rest = words rest')
  | stuck {a b : Stuck} (hx : x = .error a) (hy : y = .error b) (expected : a.expected = b.expected)
      (found : a.rest.head? = b.rest.head?)

theorem alike_before {x : Except Stuck (Parsed α m)} {y : Except Stuck (Parsed α n)}
    {expected : Expectation} (hx : x = .error (.before expected s))
    (hy : y = .error (.before expected t)) (hwords : words s = words t) : Alike x y :=
  .stuck hx hy rfl (head?_skipBlanks_eq hwords)

theorem Alike.passOn {x : Except Stuck (Parsed α m)} {y : Except Stuck (Parsed α n)} (h : Alike x y)
    (f : α → β) (hm : m ≤ m') (hn : n ≤ n') :
    Alike (NaturalDeduction.passOn f hm x) (NaturalDeduction.passOn f hn y) := by
  cases h with
  | read hx hy hwords =>
    exact .read (yields_passOn_iff.mpr ⟨_, hx, rfl⟩) (yields_passOn_iff.mpr ⟨_, hy, rfl⟩) hwords
  | stuck hx hy expected found =>
    exact .stuck (passOn_eq_error_iff.mpr hx) (passOn_eq_error_iff.mpr hy) expected found

theorem alike_readArguments (hwords : words s = words t) :
    Alike (readArguments s) (readArguments t) := by
  induction s using (measure List.length).wf.induction generalizing t with
  | _ s ih =>
    rcases nameToken_cases hwords with ⟨hs, ht⟩ | ⟨x, s₁, t₁, hs, ht, hflush⟩
    · exact alike_before (stuck_readArguments_iff.mpr (.inl ⟨hs, rfl⟩))
        (stuck_readArguments_iff.mpr (.inl ⟨ht, rfl⟩)) hwords
    rcases Symbol.token_cases .comma hflush.words_eq with ⟨hs₁, ht₁⟩ | ⟨s₂, t₂, hs₁, ht₁, hflush₂⟩
    · rcases Symbol.token_cases .closeParen hflush.words_eq with
        ⟨hs₂, ht₂⟩ | ⟨s₂, t₂, hs₂, ht₂, hflush₂⟩
      · exact alike_before (stuck_readArguments_iff.mpr (.inr ⟨x, s₁, hs, .inl ⟨hs₁, hs₂, rfl⟩⟩))
          (stuck_readArguments_iff.mpr (.inr ⟨x, t₁, ht, .inl ⟨ht₁, ht₂, rfl⟩⟩)) hflush.words_eq
      · exact .read (Arguments.last hs hs₂).yields (Arguments.last ht ht₂).yields hflush₂.words_eq
    · have hlt := Nat.lt_trans hs₁.length_lt hs.length_lt
      cases ih s₂ hlt hflush₂.words_eq with
      | read hx hy hrest =>
        exact .read (Arguments.more hs hs₁ (arguments_of_yields hx)).yields
          (Arguments.more ht ht₁ (arguments_of_yields hy)).yields hrest
      | stuck hx hy expected found =>
        exact .stuck (stuck_readArguments_iff.mpr (.inr ⟨x, s₁, hs, .inr ⟨s₂, hs₁, hx⟩⟩))
          (stuck_readArguments_iff.mpr (.inr ⟨x, t₁, ht, .inr ⟨t₂, ht₁, hy⟩⟩)) expected found

theorem alike_readAtom (hwords : words s = words t) :
    Alike (readAtom calculus s) (readAtom calculus t) := by
  rcases nameToken_cases hwords with ⟨hs, ht⟩ | ⟨p, s₁, t₁, hs, ht, hflush⟩
  · exact alike_before (stuck_readAtom_iff.mpr (.inl ⟨hs, rfl⟩))
      (stuck_readAtom_iff.mpr (.inl ⟨ht, rfl⟩))
      hwords
  by_cases hparen : s₁.head? = some '('
  · -- no blank stands in front of the parenthesis, in either text
    obtain ⟨s₂, rfl⟩ := List.head?_eq_some_iff.mp hparen
    obtain ⟨t₂, rfl, hflush₂⟩ :=
      hflush.exists_append (u := ['(']) (List.forall_mem_singleton.mpr (by decide))
    cases calculus with
    | propositional =>
      exact alike_before (stuck_readAtom_iff.mpr (.inr ⟨p, _, hs, s₂, rfl, .inl ⟨rfl, rfl⟩⟩))
        (stuck_readAtom_iff.mpr (.inr ⟨p, _, ht, t₂, rfl, .inl ⟨rfl, rfl⟩⟩)) hflush.words_eq
    | predicate =>
      cases alike_readArguments hflush₂.words_eq with
      | read hx hy hrest =>
        exact .read
          (yields_readAtom_iff.mpr ⟨p, .inr ⟨s₂, _, rfl, hs, arguments_of_yields hx, rfl⟩⟩)
          (yields_readAtom_iff.mpr ⟨p, .inr ⟨t₂, _, rfl, ht, arguments_of_yields hy, rfl⟩⟩) hrest
      | stuck hx hy expected found =>
        exact .stuck (stuck_readAtom_iff.mpr (.inr ⟨p, _, hs, s₂, rfl, .inr ⟨rfl, hx⟩⟩))
          (stuck_readAtom_iff.mpr (.inr ⟨p, _, ht, t₂, rfl, .inr ⟨rfl, hy⟩⟩)) expected found
  · have hparen' : t₁.head? ≠ some '(' := fun h => hparen (hflush.symm.head?_eq_some (by decide) h)
    exact .read (yields_readAtom_iff.mpr ⟨p, .inl ⟨hs, hparen, rfl⟩⟩)
      (yields_readAtom_iff.mpr ⟨p, .inl ⟨ht, hparen', rfl⟩⟩) hflush.words_eq

/-- Texts shorter than `n` are read as texts with the same words are. -/
def AlikeBelow (calculus : Calculus) (n : Nat) : Prop :=
  ∀ (s : List Char), s.length < n → ∀ (t : List Char), words s = words t → ∀ levels : List Level,
    Alike (readOperation calculus levels s) (readOperation calculus levels t)

theorem alike_readPrefixed (below : AlikeBelow calculus s.length) (hwords : words s = words t) :
    Alike (readPrefixed calculus s) (readPrefixed calculus t) := by
  cases opening s with
  | not hs =>
    obtain ⟨t₁, ht, hflush⟩ := hs.of_words_eq hwords
    have hinner := below _ hs.length_lt t₁ hflush.words_eq []
    rw [readOperation_nil, readOperation_nil] at hinner
    rw [readPrefixed_of_not hs, readPrefixed_of_not ht]
    exact hinner.passOn ..
  | quantifier hs =>
    obtain ⟨t₁, ht, hflush⟩ := hs.of_words_eq hwords
    cases calculus with
    | propositional =>
      exact alike_before (readPrefixed_of_quantifier_of_propositional hs)
        (readPrefixed_of_quantifier_of_propositional ht) hwords
    | predicate =>
      rcases nameToken_cases hflush.words_eq with ⟨hs₁, ht₁⟩ | ⟨x, s₂, t₂, hs₁, ht₁, hflush₂⟩
      · exact alike_before (readPrefixed_of_quantifier_of_no_name hs hs₁)
          (readPrefixed_of_quantifier_of_no_name ht ht₁) hflush.words_eq
      · rw [readPrefixed_of_quantifier hs hs₁, readPrefixed_of_quantifier ht ht₁]
        have hwords₂ := words_skipSeparator hflush₂.words_eq
        exact (below _ (length_skipSeparator_lt hs hs₁) _ hwords₂ Level.all).passOn ..
  | openParen hs =>
    obtain ⟨t₁, ht, hflush⟩ := hs.of_words_eq hwords
    cases below _ hs.length_lt t₁ hflush.words_eq Level.all with
    | stuck hx hy expected found =>
      exact .stuck ((stuck_openParen_iff hs).mpr (.inl hx)) ((stuck_openParen_iff ht).mpr (.inl hy))
        expected found
    | read hx hy hrest =>
      rcases Symbol.token_cases .closeParen hrest with ⟨hs₂, ht₂⟩ | ⟨s₃, t₃, hs₂, ht₂, hflush₃⟩
      · exact .stuck ((stuck_openParen_iff hs).mpr (.inr ⟨_, _, hx, hs₂, rfl⟩))
          ((stuck_openParen_iff ht).mpr (.inr ⟨_, _, hy, ht₂, rfl⟩)) rfl (head?_skipBlanks_eq hrest)
      · exact .read ((yields_openParen_iff hs).mpr ⟨_, hx, hs₂⟩)
          ((yields_openParen_iff ht).mpr ⟨_, hy, ht₂⟩)
          hflush₃.words_eq
  | bottom hs =>
    obtain ⟨t₁, ht, hflush⟩ := hs.of_words_eq hwords
    exact .read (yields_bottom hs) (yields_bottom ht) hflush.words_eq
  | top hs =>
    obtain ⟨t₁, ht, hflush⟩ := hs.of_words_eq hwords
    exact .read (yields_top hs) (yields_top ht) hflush.words_eq
  | atom free =>
    have free' (symbol : Symbol) (h : symbol.beginsFormula = true) : symbol.read? t = none :=
      Symbol.read?_eq_none_of_words_eq (free symbol h) hwords
    rw [readPrefixed_of_free free, readPrefixed_of_free free']
    exact alike_readAtom hwords

theorem alike_readChain (below : AlikeBelow calculus s.length) (hwords : words s = words t) :
    Alike (readChain calculus c tighter left s) (readChain calculus c tighter left t) := by
  induction s using (measure List.length).wf.induction generalizing t left with
  | _ s ih =>
    rcases Symbol.token_cases (.connective c) hwords with ⟨hs, ht⟩ | ⟨s₁, t₁, hs, ht, hflush⟩
    · exact .read (yields_chain_iff.mpr (.inl ⟨rfl, rfl, hs⟩))
        (yields_chain_iff.mpr (.inl ⟨rfl, rfl, ht⟩))
        hwords
    cases below s₁ hs.length_lt t₁ hflush.words_eq tighter with
    | stuck hx hy expected found =>
      exact .stuck (stuck_chain_iff.mpr ⟨s₁, hs, .inl ⟨_, hx, rfl⟩⟩)
        (stuck_chain_iff.mpr ⟨t₁, ht, .inl ⟨_, hy, rfl⟩⟩) expected found
    | read hx hy hrest =>
      have hlt := Nat.lt_trans hx.length_lt hs.length_lt
      cases ih _ hlt (fun s' hs' => below s' (Nat.lt_trans hs' hlt)) hrest with
      | stuck hx' hy' expected found =>
        exact .stuck (stuck_chain_iff.mpr ⟨s₁, hs, .inr ⟨_, _, hx, hx'⟩⟩)
          (stuck_chain_iff.mpr ⟨t₁, ht, .inr ⟨_, _, hy, hy'⟩⟩) expected found
      | read hx' hy' hrest' =>
        exact .read (yields_chain_iff.mpr (.inr ⟨_, _, _, hs, hx, hx'⟩))
          (yields_chain_iff.mpr (.inr ⟨_, _, _, ht, hy, hy'⟩)) hrest'

/-- **Texts with the same words are read alike.** -/
theorem alike_readOperation (hwords : words s = words t) :
    Alike (readOperation calculus levels s) (readOperation calculus levels t) := by
  induction s using (measure List.length).wf.induction generalizing t levels with
  | _ s ih =>
    have below : AlikeBelow calculus s.length := fun s' hs' t' h levels => ih s' hs' h
    induction levels with
    | nil =>
      rw [readOperation_nil, readOperation_nil]
      exact alike_readPrefixed below hwords
    | cons level tighter ihl =>
      obtain ⟨c, associativity⟩ := level
      cases associativity with
      | left =>
        cases ihl with
        | stuck hx hy expected found =>
          exact .stuck (stuck_left_iff.mpr (.inl hx)) (stuck_left_iff.mpr (.inl hy)) expected found
        | read hx hy hrest =>
          have below' : AlikeBelow calculus _ :=
            fun s' hs' => below s' (Nat.lt_trans hs' hx.length_lt)
          cases alike_readChain below' hrest with
          | stuck hx' hy' expected found =>
            exact .stuck (stuck_left_iff.mpr (.inr ⟨_, _, hx, hx'⟩))
              (stuck_left_iff.mpr (.inr ⟨_, _, hy, hy'⟩)) expected found
          | read hx' hy' hrest' =>
            exact .read (yields_left_iff.mpr ⟨_, _, hx, hx'⟩)
              (yields_left_iff.mpr ⟨_, _, hy, hy'⟩) hrest'
      | right =>
        cases ihl with
        | stuck hx hy expected found =>
          exact .stuck (stuck_right_iff.mpr (.inl hx))
            (stuck_right_iff.mpr (.inl hy)) expected found
        | read hx hy hrest =>
          rcases Symbol.token_cases (.connective c) hrest with ⟨hs, ht⟩ | ⟨s₂, t₂, hs, ht, hflush⟩
          · exact .read (yields_right_iff.mpr ⟨_, _, hx, .inl ⟨rfl, rfl, hs⟩⟩)
              (yields_right_iff.mpr ⟨_, _, hy, .inl ⟨rfl, rfl, ht⟩⟩) hrest
          · have hlt := Nat.lt_trans hs.length_lt hx.length_lt
            cases below s₂ hlt t₂ hflush.words_eq (⟨c, .right⟩ :: tighter) with
            | stuck hx' hy' expected found =>
              exact .stuck (stuck_right_iff.mpr (.inr ⟨_, _, hx, s₂, hs, _, hx', rfl⟩))
                (stuck_right_iff.mpr (.inr ⟨_, _, hy, t₂, ht, _, hy', rfl⟩)) expected found
            | read hx' hy' hrest' =>
              exact .read (yields_right_iff.mpr ⟨_, _, hx, .inr ⟨s₂, _, hs, hx', rfl⟩⟩)
                (yields_right_iff.mpr ⟨_, _, hy, .inr ⟨t₂, _, ht, hy', rfl⟩⟩) hrest'

end Readings

/-! ### Whole texts -/

namespace Formula

variable {s t : List Char}

/-- A whole text is read as a formula, or it is not clear how to go on, as with any
other spacing. -/
theorem read_respaced (calculus : Calculus) (hwords : Text.words s = Text.words t) :
    (∃ φ, Formula.read calculus s = .ok φ ∧ Formula.read calculus t = .ok φ) ∨
      ∃ a b, Formula.read calculus s = .error a ∧ Formula.read calculus t = .error b ∧
        a.expected = b.expected ∧ a.rest.head? = b.rest.head? := by
  have halike : Alike (readOperation calculus Level.all s) (readOperation calculus Level.all t) :=
    alike_readOperation hwords
  cases halike with
  | stuck hx hy expected found =>
    exact .inr ⟨_, _, by rw [Formula.read, hx], by rw [Formula.read, hy], expected, found⟩
  | read hx hy hrest =>
    obtain ⟨_, hx⟩ := hx
    obtain ⟨_, hy⟩ := hy
    have hhead := Text.head?_skipBlanks_eq hrest
    rw [Formula.read, hx, Formula.read, hy]
    simp only
    split
    · next hend =>
      rw [hend, List.head?_nil, eq_comm, List.head?_eq_none_iff] at hhead
      exact .inl ⟨_, rfl, by rw [hhead]⟩
    · next hend =>
      split
      · next hend' =>
        rw [hend', List.head?_nil, List.head?_eq_none_iff] at hhead
        exact absurd hhead hend
      · exact .inr ⟨_, _, rfl, rfl, rfl, hhead⟩

/-- **Blanks between words make no difference.** Two texts with the same words are read as the same
formula; and if one is refused, so is the other, for want of the same and at the same character. -/
theorem parse_respaced (calculus : Calculus) {text text' : String}
    (hwords : Text.words text.toList = Text.words text'.toList) :
    (∀ φ, Formula.parse calculus text = .ok φ ↔ Formula.parse calculus text' = .ok φ) ∧
      ∀ error, Formula.parse calculus text = .error error →
        ∃ error', Formula.parse calculus text' = .error error' ∧
          error'.expected = error.expected ∧ error'.found = error.found := by
  rcases read_respaced calculus hwords with ⟨φ, hs, ht⟩ | ⟨a, b, hs, ht, hexpected, hfound⟩
  · have hparse : Formula.parse calculus text = .ok φ := parse_eq_ok_iff_read.mpr hs
    have hparse' : Formula.parse calculus text' = .ok φ := parse_eq_ok_iff_read.mpr ht
    rw [hparse, hparse']
    simp
  · have hparse : Formula.parse calculus text = .error (a.locate text.toList) :=
      parse_eq_error_iff.mpr ⟨a, hs, rfl⟩
    have hparse' : Formula.parse calculus text' = .error (b.locate text'.toList) :=
      parse_eq_error_iff.mpr ⟨b, ht, rfl⟩
    rw [hparse, hparse']
    refine ⟨by simp, fun error herror => ?_⟩
    obtain rfl := Except.error.inj herror
    exact ⟨_, rfl, hexpected.symm, hfound.symm⟩

/-- A letter too many is found behind any gaps, of any kind of blank. -/
theorem gaps_respaced :
    let text := "∀x .P( a ) Q"
    let text' := "\u3000∀x\n\t.P(\u00a0a )\r\nQ "
    Text.words text.toList = Text.words text'.toList ∧
      Formula.parse .predicate text = .error ⟨13, .connectiveOrEnd, some 'Q'⟩ ∧
      ∃ error', Formula.parse .predicate text' = .error error' ∧
        error'.expected = .connectiveOrEnd ∧ error'.found = some 'Q' := by
  intro text text'
  have hwords : Text.words text.toList = Text.words text'.toList := by decide +kernel
  have hparse : Formula.parse .predicate text = .error ⟨13, .connectiveOrEnd, some 'Q'⟩ := by
    decide +kernel
  exact ⟨hwords, hparse, (parse_respaced .predicate hwords).2 _ hparse⟩

end Formula

end NaturalDeduction
