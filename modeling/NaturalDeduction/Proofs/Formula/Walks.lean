import NaturalDeduction.Proofs.Formula.Cursor
import NaturalDeduction.Proofs.Formula.Viability

/-!
# Walks through the text of a formula

On its way the reader by byte positions goes forward, except that it looks ahead for a token and
then returns to where it stood. Every position on the way is between two characters if the first one
is, so that the text can be cut there. And a routine begins another one only if that one is next in
the grammar or the position has gone on since the first one began.

A run whose events make up such a walk leads from one cursor to another, and runs one after
the other do so together. What the steps of the reader do is said here in terms of the
tokens of the grammar.

## Implementation notes

The reader by positions skips blanks also where it then does not find what it looks for.
`Cursor.Faces` is the place of a cursor up to blanks, which no step but the look at a parenthesis
behind a name can tell apart.

## Main definitions

* `Text.Boundary`: the positions between two characters
* `Routine.Passes`: what is next in the grammar
* `Walk`: what may happen between two positions
* `Cursor.StandsAt`, `Cursor.Faces`: what is left of the text, exactly or but for blanks
* `Scan.Runs`: the result of a run whose events are a walk

## Main results

* `Walk.boundary`, `Walk.descends`: the positions of a walk, and the routines that begin in it
* `Scan.Runs.bind`: runs one after the other
* `Scan.runs_eat`, `Scan.runs_name?` and the lemmas of that form: the steps
-/

namespace NaturalDeduction

open Text

/-! ### Positions -/

namespace Text

variable {text : List Char} {p : Nat}

/-- A position between two characters, or at one of the ends. -/
def Boundary (text : List Char) (p : Nat) : Prop :=
  ∃ before rest, text = before ++ rest ∧ utf8Length before = p

theorem Boundary.le (h : Boundary text p) : p ≤ utf8Length text := by
  obtain ⟨before, rest, rfl, rfl⟩ := h
  rw [utf8Length_append]
  exact Nat.le_add_right _ _

theorem boundary_iff_isValid {text : String} :
    Boundary text.toList p ↔ String.Pos.Raw.IsValid text ⟨p⟩ := by
  rw [String.Pos.Raw.isValid_iff_exists_append]
  constructor
  · rintro ⟨before, rest, htext, rfl⟩
    refine ⟨String.ofList before, String.ofList rest, ?_, ?_⟩
    · rw [← String.ofList_append, ← htext, String.ofList_toList]
    · rw [String.rawEndPos, utf8ByteSize_ofList]
  · rintro ⟨before, rest, rfl, hp⟩
    refine ⟨before.toList, rest.toList, String.toList_append, ?_⟩
    rw [← utf8ByteSize_ofList, String.ofList_toList]
    exact (congrArg String.Pos.Raw.byteIdx hp).symm

theorem utf8Length_pos {s : List Char} (h : s ≠ []) : 0 < utf8Length s := by
  cases s with
  | nil => exact absurd rfl h
  | cons c s => exact Nat.add_pos_left c.utf8Size_pos _

theorem split?_append (before rest : List Char) :
    split? (before ++ rest) (utf8Length before) = some (before, rest) := by
  induction before with
  | nil =>
    rw [List.nil_append]
    exact split?.eq_1 rest
  | cons c before ih =>
    have hlength : utf8Length (c :: before) = c.utf8Size + utf8Length before := rfl
    obtain ⟨n, hn⟩ :=
      Nat.exists_eq_add_one.mpr (Nat.add_pos_left c.utf8Size_pos (utf8Length before))
    have hle : c.utf8Size ≤ n + 1 := hn ▸ Nat.le_add_right _ _
    have hleft : n + 1 - c.utf8Size = utf8Length before := by rw [← hn, Nat.add_sub_cancel_left]
    rw [hlength, hn, List.cons_append, split?, if_pos hle, hleft, ih]
    rfl

end Text

/-! ### Walks -/

/-- One routine begins another one that is next in the grammar, or a loop of its own. Nothing need
have been read before. -/
inductive Routine.Passes : Routine → Routine → Prop
  | formula : Passes .formula (.ofLevels Level.all)
  | operand (level : Level) (tighter : List Level) :
      Passes (.operation (level :: tighter)) (.ofLevels tighter)
  | chain (level : Level) (tighter : List Level) :
      Passes (.operation (level :: tighter)) (.chain level.connective)
  | quantifier : Passes .unary .quantifier
  | primary : Passes .unary .primary
  | arguments : Passes .primary .arguments

namespace Routine

variable {caller callee : Routine}

theorem rank_ofLevels (levels : List Level) : (ofLevels levels).rank = levels.length + 2 := by
  cases levels <;> rfl

theorem Passes.rank_lt (h : caller.Passes callee) : callee.rank < caller.rank := by
  cases h with
  | formula => decide
  | operand level tighter =>
    rw [rank_ofLevels]
    exact Nat.lt_succ_self _
  | chain level tighter => exact Nat.succ_pos _
  | quantifier | primary | arguments => decide

theorem Passes.ne_formula (h : caller.Passes callee) : callee ≠ Routine.formula := by
  have hlevels (levels : List Level) : ofLevels levels ≠ Routine.formula := by
    cases levels <;> nofun
  cases h with
  | formula | operand => exact hlevels _
  | chain | quantifier | primary | arguments => nofun

end Routine

/-- What may happen on the way from one position to another. While the reader looks ahead, it only
goes forward. -/
inductive Walk (text : List Char) : (looking : Bool) → Nat → List Event → Nat → Prop
  | stay {looking : Bool} {p : Nat} : Walk text looking p [] p
  | slice {looking : Bool} {p q : Nat} {log : List Event} (boundary : Boundary text p)
      (tail : Walk text looking p log q) : Walk text looking p (.slice p :: log) q
  | advance {looking : Bool} {p q r : Nat} {log : List Event} (hle : p ≤ q)
      (boundary : Boundary text q)
      (tail : Walk text looking q log r) : Walk text looking p (.advance p q :: log) r
  /-- The reader returns to where it began to look ahead. -/
  | lookAhead {p q r : Nat} {ahead log : List Event} (look : Walk text true p ahead q)
      (tail : Walk text false p log r) : Walk text false p (ahead ++ .rewind q p :: log) r
  | call {caller callee : Routine} {start p q : Nat} {log : List Event} (hle : start ≤ p)
      (descends : caller.Passes callee ∨ start < p) (tail : Walk text false p log q) :
      Walk text false p (.call caller start callee p :: log) q

namespace Walk

variable {text : List Char} {looking : Bool} {p q r : Nat} {log log' : List Event}

theorem append (h : Walk text looking p log q) (h' : Walk text looking q log' r) :
    Walk text looking p (log ++ log') r := by
  induction h with
  | stay => exact h'
  | slice boundary _ ih => exact .slice boundary (ih h')
  | advance hle boundary _ ih => exact .advance hle boundary (ih h')
  | lookAhead look _ _ ih =>
    rw [List.append_assoc]
    exact .lookAhead look (ih h')
  | call hle descends _ ih => exact .call hle descends (ih h')

/-- On the whole, a walk goes forward. -/
theorem le (h : Walk text looking p log q) : p ≤ q := by
  induction h with
  | stay => exact Nat.le_refl _
  | slice _ _ ih => exact ih
  | advance hle _ _ ih => exact Nat.le_trans hle ih
  | lookAhead _ _ _ ih => exact ih
  | call _ _ _ ih => exact ih

/-- **A walk that begins between two characters stays between characters.** -/
theorem boundary (h : Walk text looking p log q) (hp : Boundary text p) :
    ∀ event ∈ log, Boundary text event.position := by
  induction h with
  | stay => exact fun _ hmem => absurd hmem List.not_mem_nil
  | slice _ _ ih => exact List.forall_mem_cons.mpr ⟨hp, ih hp⟩
  | advance _ hq _ ih => exact List.forall_mem_cons.mpr ⟨hq, ih hq⟩
  | lookAhead _ _ ihlook ih =>
    exact List.forall_mem_append.mpr ⟨ihlook hp, List.forall_mem_cons.mpr ⟨hp, ih hp⟩⟩
  | call _ _ _ ih => exact List.forall_mem_cons.mpr ⟨hp, ih hp⟩

/-- **A routine that another one begins is next in the grammar, or something has been read.** -/
theorem descends (h : Walk text looking p log q) {caller callee : Routine} {start r : Nat}
    (hcall : .call caller start callee r ∈ log) :
    start ≤ r ∧ (caller.Passes callee ∨ start < r) := by
  induction h with
  | stay => exact absurd hcall List.not_mem_nil
  | slice _ _ ih => exact ih ((List.mem_cons.mp hcall).resolve_left nofun)
  | advance _ _ _ ih => exact ih ((List.mem_cons.mp hcall).resolve_left nofun)
  | lookAhead _ _ ihlook ih =>
    rcases List.mem_append.mp hcall with hmem | hmem
    · exact ihlook hmem
    · exact ih ((List.mem_cons.mp hmem).resolve_left nofun)
  | call hle hdescends _ ih =>
    rcases List.mem_cons.mp hcall with heq | hmem
    · cases heq
      exact ⟨hle, hdescends⟩
    · exact ih hmem

end Walk

/-! ### Cursors -/

namespace Cursor

variable {looking : Bool} {c c₁ c₂ : Cursor} {s t a : List Char}

/-- The second cursor is reached from the first on a walk. -/
def Leads (looking : Bool) (c c₁ : Cursor) : Prop :=
  c₁.text = c.text ∧ ∃ log, c₁.log = c.log ++ log ∧ Walk c.text looking c.position log c₁.position

theorem Leads.refl (c : Cursor) : c.Leads looking c := ⟨rfl, [], (List.append_nil _).symm, .stay⟩

theorem Leads.trans (h : c.Leads looking c₁) (h' : c₁.Leads looking c₂) : c.Leads looking c₂ := by
  obtain ⟨htext, log, hlog, hwalk⟩ := h
  obtain ⟨htext', log', hlog', hwalk'⟩ := h'
  refine ⟨htext'.trans htext, log ++ log', ?_, hwalk.append (htext ▸ hwalk')⟩
  rw [hlog', hlog, List.append_assoc]

theorem Leads.position_le (h : c.Leads looking c₁) : c.position ≤ c₁.position := by
  obtain ⟨-, log, -, hwalk⟩ := h
  exact hwalk.le

/-- The position of the cursor is right in front of `t`. -/
def StandsAt (c : Cursor) (t : List Char) : Prop :=
  ∃ before, c.text = before ++ t ∧ utf8Length before = c.position

/-- The position of the cursor is in front of `s`, but for blanks. -/
def Faces (c : Cursor) (s : List Char) : Prop :=
  ∃ t, c.StandsAt t ∧ Text.skipBlanks t = Text.skipBlanks s

theorem StandsAt.faces (h : c.StandsAt s) : c.Faces s := ⟨s, h, rfl⟩

theorem StandsAt.boundary (h : c.StandsAt t) : Boundary c.text c.position := by
  obtain ⟨before, htext, hposition⟩ := h
  exact ⟨before, t, htext, hposition⟩

theorem Faces.of_eq (h : c.Faces s) (htext : c₁.text = c.text)
    (hposition : c₁.position = c.position) :
    c₁.Faces s := by
  obtain ⟨t, ⟨before, ht, hbefore⟩, hs⟩ := h
  exact ⟨t, ⟨before, htext.trans ht, hbefore.trans hposition.symm⟩, hs⟩

theorem Faces.of_skipBlanks (h : c.StandsAt (Text.skipBlanks s)) : c.Faces s :=
  ⟨_, h, skipBlanks_skipBlanks s⟩

end Cursor

namespace Scan

variable {α β : Type} {looking : Bool} {m x y : Scan α} {f : α → Scan β} {c c₁ c₂ : Cursor} {a : α}
  {s t rest : List Char}
  {halt : Halt}

/-! ### Runs -/

/-- The run ends with a result, on a walk to the second cursor. -/
structure Runs (looking : Bool) (m : Scan α) (c : Cursor) (result : Except Halt α)
    (c₁ : Cursor) : Prop where
  ends : m.run.run c = some (result, c₁)
  leads : c.Leads looking c₁

theorem run_bind (h : m.run.run c = some (.ok a, c₁)) : (m >>= f).run.run c = (f a).run.run c₁ := by
  rw [ExceptT.run_bind, StateT.run_bind, h]
  rfl

/-- Runs one after the other. -/
theorem Runs.bind {result : Except Halt β} (h : Runs looking m c (.ok a) c₁)
    (h' : Runs looking (f a) c₁ result c₂) : Runs looking (m >>= f) c result c₂ :=
  ⟨(run_bind h.ends).trans h'.ends, h.leads.trans h'.leads⟩

theorem Runs.bind_error (h : Runs looking m c (.error halt) c₁) :
    Runs looking (m >>= f) c (.error halt) c₁ := by
  refine ⟨?_, h.leads⟩
  rw [ExceptT.run_bind, StateT.run_bind, h.ends]
  rfl

theorem Runs.then {found : Scan Bool} {result : Except Halt α}
    (h : Runs looking found c (.ok true) c₁) (h' : Runs looking x c₁ result c₂) :
    Runs looking (found >>= fun b => if b = true then x else y) c result c₂ :=
  h.bind h'

theorem Runs.else {found : Scan Bool} {result : Except Halt α}
    (h : Runs looking found c (.ok false) c₁) (h' : Runs looking y c₁ result c₂) :
    Runs looking (found >>= fun b => if b = true then x else y) c result c₂ :=
  h.bind h'

theorem runs_pure (a : α) (c : Cursor) : Runs looking (pure a) c (.ok a) c := ⟨rfl, .refl c⟩

theorem runs_here (c : Cursor) : Runs looking here c (.ok c.position) c := ⟨rfl, .refl c⟩

/-! ### Steps -/

theorem runs_get (looking : Bool) (c : Cursor) : Runs looking get c (.ok c) c := ⟨rfl, .refl c⟩

theorem runs_rest (looking : Bool) (h : c.StandsAt t) :
    ∃ c₁, Runs looking Scan.rest c (.ok t) c₁ ∧ c₁.StandsAt t := by
  let c₁ : Cursor := { c with log := c.log ++ [.slice c.position] }
  have hrecord : Runs looking (record (.slice c.position)) c (.ok ()) c₁ :=
    ⟨rfl, rfl, _, rfl, .slice h.boundary .stay⟩
  refine ⟨c₁, (runs_get looking c).bind (hrecord.bind ?_), h⟩
  obtain ⟨before, htext, hposition⟩ := h
  have hsplit : split? c.text c.position = some (before, t) := by
    rw [htext, ← hposition, split?_append]
  rw [hsplit]
  exact runs_pure t c₁

theorem runs_advance (looking : Bool) {taken : List Char} (h : c.StandsAt (taken ++ t)) :
    ∃ c₁, Runs looking (advance (utf8Length taken)) c (.ok ()) c₁ ∧ c₁.StandsAt t ∧
      c₁.position = c.position + utf8Length taken := by
  obtain ⟨before, htext, hposition⟩ := h
  let c₁ : Cursor :=
    { c with
      position := c.position + utf8Length taken
      log := c.log ++ [.advance c.position (c.position + utf8Length taken)] }
  have hstands : c₁.StandsAt t := by
    refine ⟨before ++ taken, ?_, ?_⟩
    · rw [List.append_assoc]
      exact htext
    · rw [utf8Length_append, hposition]
  have hwalk : Walk c.text looking c.position [.advance c.position c₁.position] c₁.position :=
    .advance (Nat.le_add_right _ _) hstands.boundary .stay
  exact ⟨c₁, ⟨rfl, rfl, _, rfl, hwalk⟩, hstands, rfl⟩

theorem runs_skipBlanks (looking : Bool) (hc : c.Faces s) :
    ∃ c₁, Runs looking skipBlanks c (.ok ()) c₁ ∧ c₁.StandsAt (Text.skipBlanks s) := by
  obtain ⟨t, h, hs⟩ := hc
  obtain ⟨c₁, hrest, hstands⟩ := runs_rest looking h
  obtain ⟨blanks, -, ht⟩ := blanks_skipBlanks t
  have hlength : utf8Length t - utf8Length (Text.skipBlanks t) = utf8Length blanks := by
    have hsum : utf8Length t = utf8Length blanks + utf8Length (Text.skipBlanks t) := by
      rw [← utf8Length_append, ← ht]
    rw [hsum, Nat.add_sub_cancel]
  obtain ⟨c₂, hadvance, hstands₂, -⟩ := runs_advance looking (ht ▸ hstands)
  exact ⟨c₂, hrest.bind (hlength ▸ hadvance), hs ▸ hstands₂⟩

/-- A step that skips blanks and then looks at the text sees what is left behind them. -/
theorem runs_nextToken (looking : Bool) (hc : c.Faces s) :
    ∃ c₁, c₁.StandsAt (Text.skipBlanks s) ∧ c.position ≤ c₁.position ∧
      ∀ {β : Type} {f : List Char → Scan β} {result : Except Halt β} {c₂ : Cursor},
        Runs looking (f (Text.skipBlanks s)) c₁ result c₂ →
          Runs looking (skipBlanks >>= fun _ => Scan.rest >>= f) c result c₂ := by
  obtain ⟨c₁, hblanks, hstands₁⟩ := runs_skipBlanks looking hc
  obtain ⟨c₂, hrest, hstands₂⟩ := runs_rest looking hstands₁
  exact ⟨c₂, hstands₂, (hblanks.leads.trans hrest.leads).position_le,
    fun h => hblanks.bind (hrest.bind h)⟩

/-- Looking through the spellings finds the one that stands here. -/
theorem find?_spelling {symbol : Symbol} (htoken : symbol.Token s rest) :
    ∃ spelling ∈ symbol.spellings, Text.skipBlanks s = spelling ++ rest ∧
      (symbol.spellings.find? fun spelling =>
        (Symbol.afterSpelling? spelling (Text.skipBlanks s)).isSome) = some spelling := by
  rw [Symbol.token_iff, ← Symbol.after?_eq_some_iff] at htoken
  cases hfind : symbol.spellings.find? fun spelling =>
      (Symbol.afterSpelling? spelling (Text.skipBlanks s)).isSome with
  | none =>
    obtain ⟨spelling, hmem, hafter⟩ := List.exists_of_findSome?_eq_some htoken
    have hnone := List.find?_eq_none.mp hfind spelling hmem
    rw [hafter] at hnone
    exact absurd rfl hnone
  | some spelling =>
    have hmem := List.mem_of_find?_eq_some hfind
    have hsome : (Symbol.afterSpelling? spelling (Text.skipBlanks s)).isSome = true := by
      simpa using List.find?_some hfind
    obtain ⟨r, hr⟩ := Option.isSome_iff_exists.mp hsome
    rw [Symbol.afterSpelling?, Option.filter_eq_some_iff, Text.after?_eq_some_iff] at hr
    obtain ⟨hs, hends⟩ := hr
    have hat : symbol.At (Text.skipBlanks s) r := by
      refine ⟨spelling, hmem, hs, ?_⟩
      revert hends
      cases spelling.getLast?.any isNameChar <;> cases continuesName r <;> simp
    rw [(Symbol.after?_eq_some_iff.mp htoken).unique hat Iff.rfl |>.2]
    exact ⟨spelling, hmem, hs, rfl⟩

/-- A symbol that is the next token is taken. -/
theorem runs_eat (looking : Bool) {symbol : Symbol} (htoken : symbol.Token s rest)
    (hc : c.Faces s) :
    ∃ c₁, Runs looking (eat symbol) c (.ok true) c₁ ∧ c₁.StandsAt rest ∧
      c.position < c₁.position := by
  obtain ⟨spelling, hmem, hs, hfind⟩ := find?_spelling htoken
  obtain ⟨c₁, hstands₁, hle, hnext⟩ := runs_nextToken looking hc
  rw [hs] at hstands₁
  obtain ⟨c₂, hadvance, hstands₂, hposition⟩ := runs_advance looking hstands₁
  refine ⟨c₂, hnext ?_, hstands₂, ?_⟩
  · rw [hfind]
    exact hadvance.bind (runs_pure true c₂)
  · have hpos := utf8Length_pos (Symbol.spellings_ne_nil hmem)
    omega

theorem runs_eat_of_none (looking : Bool) {symbol : Symbol} (hnone : symbol.read? s = none)
    (hc : c.Faces s) :
    ∃ c₁, Runs looking (eat symbol) c (.ok false) c₁ ∧ c₁.Faces s := by
  have hfind : (symbol.spellings.find? fun spelling =>
      (Symbol.afterSpelling? spelling (Text.skipBlanks s)).isSome) = none := by
    refine List.find?_eq_none.mpr fun spelling hmem hsome => ?_
    obtain ⟨r, hr⟩ := Option.isSome_iff_exists.mp hsome
    have hafter : (symbol.after? (Text.skipBlanks s)).isSome = true := by
      rw [Symbol.after?, List.findSome?_isSome_iff]
      exact ⟨spelling, hmem, hsome⟩
    obtain ⟨rest, hrest⟩ := Option.isSome_iff_exists.mp hafter
    refine Symbol.read?_eq_none_iff.mp hnone rest ?_
    rwa [Symbol.token_iff, ← Symbol.after?_eq_some_iff]
  obtain ⟨c₁, hstands, -, hnext⟩ := runs_nextToken looking hc
  refine ⟨c₁, hnext ?_, .of_skipBlanks hstands⟩
  rw [hfind]
  exact runs_pure false c₁

theorem runs_lookFor {symbol : Symbol} {found : Bool} (h : Runs true (eat symbol) c (.ok found) c₁)
    (hc : c.Faces s) : ∃ c₂, Runs false (lookFor symbol) c (.ok found) c₂ ∧ c₂.Faces s := by
  obtain ⟨htext, log, hlog, hwalk⟩ := h.leads
  let c₂ : Cursor :=
    { c₁ with position := c.position, log := c₁.log ++ [.rewind c₁.position c.position] }
  refine ⟨c₂, ⟨?_, htext, log ++ [.rewind c₁.position c.position], ?_, hwalk.lookAhead .stay⟩,
    hc.of_eq htext rfl⟩
  · have hhere : here.run.run c = some (.ok c.position, c) := rfl
    exact (run_bind hhere).trans (run_bind h.ends)
  · rw [← List.append_assoc, ← hlog]

theorem runs_name? (looking : Bool) {x : Name} (hname : NameToken x s rest) (hc : c.Faces s) :
    ∃ c₁, Runs looking name? c (.ok (some x)) c₁ ∧ c₁.StandsAt rest ∧ c.position < c₁.position := by
  obtain ⟨⟨d, tail, hx, hd, htail⟩, hs, hends⟩ := nameToken_iff.mp hname
  obtain ⟨c₁, hstands₁, hle, hnext⟩ := runs_nextToken looking hc
  rw [hs] at hstands₁
  have hne : x.toList ≠ [] := by simp [hx]
  have hchars : ∀ e ∈ x.toList, isNameChar e = true :=
    IsIdentifier.isNameChar ⟨d, tail, hx, hd, htail⟩
  have htake : (x.toList ++ rest).takeWhile isNameChar = x.toList := by
    rw [List.takeWhile_append_of_pos hchars]
    cases rest with
    | nil => simp
    | cons e rest => simp [show isNameChar e = false by simpa [continuesName] using hends]
  have hstart : (x.toList ++ rest).head?.any isNameStart = true := by
    rw [hx]
    exact hd
  obtain ⟨c₂, hadvance, hstands₂, hposition⟩ := runs_advance looking hstands₁
  refine ⟨c₂, hnext ?_, hstands₂, ?_⟩
  · rw [hs, if_pos hstart, htake]
    refine hadvance.bind ?_
    rw [split?_append]
    simp only [String.ofList_toList]
    exact runs_pure (some x) c₂
  · have hpos := utf8Length_pos hne
    omega

theorem runs_name?_of_none (looking : Bool) (hname : readName? s = none) (hc : c.Faces s) :
    ∃ c₁, Runs looking name? c (.ok none) c₁ ∧ c₁.Faces s := by
  have hstart : ¬(Text.skipBlanks s).head?.any isNameStart = true := by
    rw [readName?] at hname
    split at hname
    · next hs => simp [hs]
    · next d rest hs =>
      split at hname
      · cases hname
      · next hd => simpa [hs] using hd
  obtain ⟨c₁, hstands, -, hnext⟩ := runs_nextToken looking hc
  refine ⟨c₁, hnext ?_, .of_skipBlanks hstands⟩
  rw [if_neg hstart]
  exact runs_pure none c₁

theorem runs_stuck (α : Type) (looking : Bool) (expected : Expectation) (hc : c.Faces s) :
    ∃ c₁, Runs looking (stuck expected.text : Scan α) c
      (.error ((Stuck.before expected s).locate c.text).halt) c₁ := by
  obtain ⟨c₁, hblanks, hstands₁⟩ := runs_skipBlanks looking hc
  obtain ⟨c₂, hrest, -⟩ := runs_rest looking hstands₁
  have hlocate : ((Stuck.before expected s).locate c.text).halt =
      .syntaxError c₁.position expected.text (Text.skipBlanks s).head? := by
    obtain ⟨before, htext, hposition⟩ := hstands₁
    rw [← hblanks.leads.1, ← hposition, htext, SyntaxError.halt, Stuck.locate, Stuck.before,
      utf8Length_append, Nat.add_sub_cancel]
  rw [hlocate]
  exact ⟨c₂, hblanks.bind ((runs_here c₁).bind (hrest.bind ⟨rfl, .refl c₂⟩))⟩

theorem runs_enter (caller callee : Routine) {start : Nat} (hc : c.Faces s)
    (hle : start ≤ c.position) (h : caller.Passes callee ∨ start < c.position) :
    ∃ c₁, Runs false (enter caller start callee) c (.ok ()) c₁ ∧ c₁.Faces s ∧
      c₁.position = c.position :=
  ⟨{ c with log := c.log ++ [.call caller start callee c.position] },
    ⟨rfl, rfl, _, rfl, .call hle h .stay⟩, hc.of_eq rfl rfl, rfl⟩

/-- A symbol that has to stand here is missed. -/
theorem runs_expect_of_none (looking : Bool) {symbol : Symbol} (expected : Expectation)
    (hnone : symbol.read? s = none) (hc : c.Faces s) :
    ∃ c₁, Runs looking (expect symbol expected.text) c
      (.error ((Stuck.before expected s).locate c.text).halt) c₁ := by
  obtain ⟨c₁, heat, hfaces₁⟩ := runs_eat_of_none looking hnone hc
  obtain ⟨c₂, hstuck⟩ := runs_stuck Unit looking expected hfaces₁
  rw [heat.leads.1] at hstuck
  exact ⟨c₂, heat.else hstuck⟩

theorem runs_expect (looking : Bool) {symbol : Symbol} (expected : String)
    (htoken : symbol.Token s rest) (hc : c.Faces s) :
    ∃ c₁, Runs looking (expect symbol expected) c (.ok ()) c₁ ∧ c₁.StandsAt rest := by
  obtain ⟨c₁, heat, hstands₁, -⟩ := runs_eat looking htoken hc
  exact ⟨c₁, heat.then (runs_pure () c₁), hstands₁⟩

theorem dot_token_iff :
    Symbol.dot.Token s rest ↔ Text.after? ['.'] (Text.skipBlanks s) = some rest := by
  have hdot : isNameChar '.' = false := by decide
  rw [Symbol.token_iff, Text.after?_eq_some_iff]
  simp [Symbol.At, Symbol.spellings, hdot]

theorem runs_separator (looking : Bool) (hc : c.Faces s) :
    ∃ c₁, Runs looking separator c (.ok ()) c₁ ∧ c₁.Faces (skipSeparator s) := by
  cases hcomma : Symbol.comma.read? s with
  | some s₁ =>
    obtain ⟨c₁, heat, hstands₁, -⟩ := runs_eat looking (Symbol.read?_eq_some_iff.mp hcomma) hc
    rw [skipSeparator, hcomma]
    exact ⟨c₁, heat.then (runs_pure () c₁), hstands₁.faces⟩
  | none =>
    obtain ⟨c₁, heat, t, hstands₁, ht⟩ := runs_eat_of_none looking hcomma hc
    obtain ⟨c₂, hrest, hstands₂⟩ := runs_rest looking hstands₁
    have hfaces₂ : c₂.Faces s := ⟨t, hstands₂, ht⟩
    cases hdot : Symbol.dot.read? s with
    | none =>
      have hafter : Text.after? ['.'] (Text.skipBlanks t) = none := by
        rw [ht, Option.eq_none_iff_forall_ne_some]
        exact fun rest h => Symbol.read?_eq_none_iff.mp hdot rest (dot_token_iff.mpr h)
      refine ⟨c₂, heat.else (hrest.bind ?_), by simpa [skipSeparator, hcomma, hdot] using hfaces₂⟩
      rw [hafter]
      exact runs_pure () c₂
    | some behind =>
      have hsign := Symbol.read?_eq_some_iff.mp hdot
      have hafter : Text.after? ['.'] (Text.skipBlanks t) = some behind.val := by
        rw [ht]
        exact dot_token_iff.mp hsign
      have hskip : skipSeparator s = if Symbol.beginsDottedWord behind then s else behind := by
        rw [skipSeparator, hcomma, hdot]
      rw [hskip]
      split
      · next hword =>
        refine ⟨c₂, heat.else (hrest.bind ?_), hfaces₂⟩
        simp only [hafter, hword, if_true]
        exact runs_pure () c₂
      · next hword =>
        obtain ⟨c₃, htake, hstands₃, -⟩ := runs_eat looking hsign hfaces₂
        refine ⟨c₃, heat.else (hrest.bind ?_), hstands₃.faces⟩
        simp only [hafter, hword]
        exact htake.bind (runs_pure () c₃)

end Scan

end NaturalDeduction
