import NaturalDeduction.Proofs.Formula.Walks

/-!
# Reading formulas by byte positions comes to an end

The reader by byte positions comes to an end in every text and finds what `Formula.parse` finds. On
its way it never cuts the text inside a character.

It ends because the routines that call each other without reading anything go down in the grammar.
Whenever a routine or a loop begins itself anew, and whenever a formula begins behind a parenthesis
or a quantifier, the position has gone on.

## Implementation notes

That the reader ends is said by a depth that suffices. Down the grammar there are eight routines
one inside the other before something is read, so nine for each character that is left are enough.
In every depth that is enough a run is in step with the reader that hands on what is left, by
induction on the depth.

## Main definitions

* `Scan.Tracks`: a run that comes to the same as a reader's answer
* `Scan.TracksAt`: all routines do, in a depth that suffices for what is left
* `Scan.Extends`: a run that has at least the results of another one

## Main results

* `Scan.tracksAt`: the routines read as the reader that hands on what is left
* `Scan.extends_formula`: a greater depth does not change the result
* `Formula.scan_walks`: runs end, on walks with legal positions, with the result of `Formula.parse`
-/

namespace NaturalDeduction

open Text

namespace Scan

variable {α β : Type} {n k : Nat} {m x y : Scan α} {f : α → Scan β} {c c₁ : Cursor} {a : α}
  {s s₁ rest : List Char} {result : Except Stuck (Parsed α n)} {result' : Except Stuck (Parsed β k)}

/-! ### Runs in step with a reader -/

/-- The run from `c` comes to the same as the answer of a reader: it ends with what has been read in
front of what follows, or it breaks off with the error where the reader is stuck. -/
inductive Tracks (m : Scan α) (c : Cursor) (result : Except Stuck (Parsed α n)) : Prop
  | read {a : α} {rest : List Char} {c₁ : Cursor} (runs : Runs false m c (.ok a) c₁)
      (yields : Yields result a rest) (faces : c₁.Faces rest)
  | stuck {stuck : Stuck} {c₁ : Cursor} (answer : result = .error stuck)
      (runs : Runs false m c (.error (stuck.locate c.text).halt) c₁)

theorem Tracks.after (h : Runs false m c (.ok a) c₁) (h' : Tracks (f a) c₁ result') :
    Tracks (m >>= f) c result' := by
  cases h' with
  | read runs yields faces => exact .read (h.bind runs) yields faces
  | stuck answer runs =>
    rw [h.leads.1] at runs
    exact .stuck answer (h.bind runs)

theorem Tracks.then {found : Scan Bool} (h : Runs false found c (.ok true) c₁)
    (h' : Tracks x c₁ result) :
    Tracks (found >>= fun b => if b = true then x else y) c result :=
  .after h h'

theorem Tracks.else {found : Scan Bool} (h : Runs false found c (.ok false) c₁)
    (h' : Tracks y c₁ result) :
    Tracks (found >>= fun b => if b = true then x else y) c result :=
  .after h h'

/-- A reading goes on behind another one, or is stuck where that one is. -/
theorem Tracks.bind (h : Tracks m c result)
    (hread : ∀ a rest c₁, Yields result a rest → c₁.Faces rest → c.position ≤ c₁.position →
      Tracks (f a) c₁ result')
    (hstuck : ∀ stuck, result = .error stuck →
      ∃ stuck', result' = .error stuck' ∧ stuck'.locate c.text = stuck.locate c.text) :
    Tracks (m >>= f) c result' := by
  cases h with
  | read runs yields faces => exact .after runs (hread _ _ _ yields faces runs.leads.position_le)
  | stuck answer runs =>
    obtain ⟨stuck', answer', hlocate⟩ := hstuck _ answer
    rw [← hlocate] at runs
    exact .stuck answer' runs.bind_error

theorem tracks_pure (yields : Yields result a rest) (faces : c.Faces rest) :
    Tracks (pure a) c result :=
  .read (runs_pure a c) yields faces

/-- A part that has been read is passed on as a part of something larger. -/
theorem Tracks.passOn (h : Tracks m c result) (g : α → β) (hle : n ≤ k) :
    Tracks (m >>= fun a => pure (g a)) c (NaturalDeduction.passOn g hle result) := by
  refine h.bind (fun a rest c₁ yields faces _ => ?_) fun stuck answer => ⟨stuck, ?_, rfl⟩
  · exact tracks_pure (yields_passOn_iff.mpr ⟨a, yields, rfl⟩) faces
  · exact passOn_eq_error_iff.mpr answer

/-- Another routine begins. -/
theorem Tracks.enter {caller callee : Routine} {start : Nat} (hc : c.Faces s)
    (hle : start ≤ c.position) (descends : caller.Passes callee ∨ start < c.position)
    (h : ∀ c₁ : Cursor, c₁.Faces s → c₁.position = c.position → Tracks m c₁ result) :
    Tracks (enter caller start callee >>= fun _ => m) c result := by
  obtain ⟨c₁, henter, hfaces, hposition⟩ := runs_enter caller callee hc hle descends
  exact .after henter (h c₁ hfaces hposition)

/-! ### Arguments -/

/-- The loop over arguments stops in front of the parenthesis that closes the list, or where it is
missing, or it is stuck at a name. -/
theorem runs_arguments (names : List Name) {depth : Nat} (hdepth : s.length < depth)
    (hc : c.Faces s) :
    (∃ xs t c₁, Runs false (arguments names depth) c (.ok (names ++ xs)) c₁ ∧ c₁.Faces t ∧
      ((∃ rest, Symbol.closeParen.Token t rest ∧ Arguments s xs rest) ∨
        Symbol.closeParen.read? t = none ∧ readArguments s = .error (.before .closeParen t))) ∨
    ∃ stuck c₁, Runs false (arguments names depth) c (.error (stuck.locate c.text).halt) c₁ ∧
      readArguments s = .error stuck := by
  induction depth generalizing s names c with
  | zero => exact absurd hdepth (Nat.not_lt_zero _)
  | succ depth ih =>
    cases hname : readName? s with
    | none =>
      obtain ⟨c₁, hnone, hfaces₁⟩ := runs_name?_of_none false hname hc
      obtain ⟨c₂, hstuck⟩ := runs_stuck (List Name) false .name hfaces₁
      rw [hnone.leads.1] at hstuck
      refine .inr ⟨_, c₂, ?_, stuck_readArguments_iff.mpr (.inl ⟨hname, rfl⟩)⟩
      rw [arguments]
      exact (runs_here c).bind (hnone.bind hstuck)
    | some read =>
      obtain ⟨x, s₁⟩ := read
      have htoken := readName?_eq_some_iff.mp hname
      obtain ⟨c₁, hx, hstands₁, hlt₁⟩ := runs_name? false htoken hc
      cases hcomma : Symbol.comma.read? s₁.val with
      | none =>
        obtain ⟨c₂, hnone, hfaces₂⟩ := runs_eat_of_none false hcomma hstands₁.faces
        have hruns : Runs false (arguments names (depth + 1)) c (.ok (names ++ [x])) c₂ := by
          rw [arguments]
          exact (runs_here c).bind (hx.bind (hnone.else (runs_pure _ c₂)))
        refine .inl ⟨[x], s₁, c₂, hruns, hfaces₂, ?_⟩
        cases hclose : Symbol.closeParen.read? s₁.val with
        | none =>
          exact .inr
            ⟨rfl, stuck_readArguments_iff.mpr (.inr ⟨x, s₁, htoken, .inl ⟨hcomma, hclose, rfl⟩⟩)⟩
        | some rest =>
          have hsign := Symbol.read?_eq_some_iff.mp hclose
          exact .inl ⟨rest, hsign, .last htoken hsign⟩
      | some s₂ =>
        have hsign := Symbol.read?_eq_some_iff.mp hcomma
        obtain ⟨c₂, heat, hstands₂, hlt₂⟩ := runs_eat false hsign hstands₁.faces
        have hlt := Nat.lt_trans hlt₁ hlt₂
        obtain ⟨c₃, henter, hfaces₃, -⟩ :=
          runs_enter .arguments .arguments hstands₂.faces (Nat.le_of_lt hlt) (.inr hlt)
        have hround {r : Except Halt (List Name)} {c₄ : Cursor}
            (h : Runs false (arguments (names ++ [x]) depth) c₃ r c₄) :
            Runs false (arguments names (depth + 1)) c r c₄ := by
          rw [arguments]
          exact (runs_here c).bind (hx.bind (heat.then (henter.bind h)))
        have hdepth₂ : s₂.val.length < depth := by
          have := s₁.property
          have := s₂.property
          omega
        rcases ih (names ++ [x]) hdepth₂ hfaces₃ with
          ⟨xs, t, c₄, hothers, hfaces₄, hend⟩ | ⟨stuck, c₄, hothers, hstuck⟩
        · refine .inl ⟨x :: xs, t, c₄, ?_, hfaces₄, ?_⟩
          · have hruns := hround hothers
            rwa [List.append_assoc, List.singleton_append] at hruns
          · rcases hend with ⟨rest, hclose, hxs⟩ | ⟨hclose, hstuck⟩
            · exact .inl ⟨rest, hclose, .more htoken hsign hxs⟩
            · exact .inr ⟨hclose,
                stuck_readArguments_iff.mpr (.inr ⟨x, s₁, htoken, .inr ⟨s₂, hsign, hstuck⟩⟩)⟩
        · have hruns := hround hothers
          rw [(hx.leads.trans (heat.leads.trans henter.leads)).1] at hruns
          exact .inr ⟨stuck, c₄, hruns,
            stuck_readArguments_iff.mpr (.inr ⟨x, s₁, htoken, .inr ⟨s₂, hsign, hstuck⟩⟩)⟩

/-! ### Phrases -/

/-- In this depth the routines read as the reader does that hands on what is left. Every
character is worth nine routines that are begun one inside the other, since there are eight on
the way down the grammar. -/
structure TracksAt (calculus : Calculus) (depth : Nat) : Prop where
  formula {s : List Char} {c : Cursor} (room : 9 * s.length + 8 ≤ depth) (hc : c.Faces s) :
    Tracks (formula calculus depth) c (readOperation calculus Level.all s)
  operation {s : List Char} {c : Cursor} {levels : List Level}
    (hlevels : levels.length ≤ Level.all.length)
    (room : 9 * s.length + levels.length + 3 ≤ depth) (hc : c.Faces s) :
    Tracks (operation calculus levels depth) c (readOperation calculus levels s)
  chain {s : List Char} {c : Cursor} {c₀ : Connective} {tighter : List Level} {left : Formula}
    (hlevels : tighter.length ≤ Level.all.length) (room : 9 * s.length + 1 ≤ depth)
    (hc : c.Faces s) :
    Tracks (chain calculus c₀ tighter left depth) c (readChain calculus c₀ tighter left s)
  unary {s : List Char} {c : Cursor} (room : 9 * s.length + 2 ≤ depth) (hc : c.Faces s) :
    Tracks (unary calculus depth) c (readPrefixed calculus s)
  quantifier {s s₁ : List Char} {c : Cursor} {q : Quantifier}
    (sign : (Symbol.quantifier q).Token s s₁)
    (room : 9 * s.length + 1 ≤ depth) (hc : c.Faces s) :
    Tracks (quantifier calculus q depth) c (readPrefixed calculus s)
  primary {s : List Char} {c : Cursor} (hnot : Symbol.not.read? s = none)
    (hquantifier : ∀ q, (Symbol.quantifier q).read? s = none) (room : 9 * s.length + 1 ≤ depth)
    (hc : c.Faces s) :
    Tracks (primary calculus depth) c (readPrefixed calculus s)

section Phrases

variable {calculus : Calculus} {depth : Nat} {q : Quantifier} {c₀ : Connective}
  {levels tighter : List Level}
  {left φ : Formula}

theorem TracksAt.formula_succ (below : TracksAt calculus depth)
    (room : 9 * s.length + 8 ≤ depth + 1) (hc : c.Faces s) :
    Tracks (Scan.formula calculus (depth + 1)) c (readOperation calculus Level.all s) := by
  have room' : 9 * s.length + Level.all.length + 3 ≤ depth := Nat.le_of_succ_le_succ room
  rw [Scan.formula]
  exact .after (runs_here c) (.enter hc (Nat.le_refl _) (.inl .formula) fun c₁ hc₁ _ =>
    below.operation (Nat.le_refl _) room' hc₁)

/-- Behind an opening parenthesis stands a formula and the parenthesis that closes it. -/
theorem TracksAt.primary_of_openParen (below : TracksAt calculus depth)
    (sign : Symbol.openParen.Token s s₁) (room : 9 * s.length ≤ depth) (hc : c.Faces s) :
    Tracks (Scan.primary calculus (depth + 1)) c (readPrefixed calculus s) := by
  obtain ⟨c₁, heat, hstands₁, hlt⟩ := runs_eat false sign hc
  have room₁ : 9 * s₁.length + 8 ≤ depth := by
    have := sign.length_lt
    omega
  rw [Scan.primary]
  refine .after (runs_here c) (.then heat ?_)
  refine .enter hstands₁.faces (Nat.le_of_lt hlt) (.inr hlt) fun c₂ hc₂ _ => ?_
  refine (below.formula room₁ hc₂).bind ?_ fun stuck hstuck =>
    ⟨stuck, (stuck_openParen_iff sign).mpr (.inl hstuck), rfl⟩
  intro φ s₂ c₃ hφ hc₃ _
  cases hclose : Symbol.closeParen.read? s₂ with
  | none =>
    obtain ⟨c₄, hexpect⟩ := runs_expect_of_none false .closeParen hclose hc₃
    have hstuck := (stuck_openParen_iff sign).mpr (.inr ⟨φ, s₂, hφ, hclose, rfl⟩)
    exact .stuck hstuck hexpect.bind_error
  | some rest =>
    have hsign := Symbol.read?_eq_some_iff.mp hclose
    obtain ⟨c₄, hexpect, hstands₄⟩ := runs_expect false Expectation.closeParen.text hsign hc₃
    exact .after hexpect
      (tracks_pure ((yields_openParen_iff sign).mpr ⟨s₂, hφ, hsign⟩) hstands₄.faces)

theorem tracks_primary_of_bottom (sign : Symbol.bottom.Token s rest) (hc : c.Faces s) :
    Tracks (primary calculus (depth + 1)) c (readPrefixed calculus s) := by
  have hopen : Symbol.openParen.read? s = none := sign.read?_eq_none nofun nofun nofun
  obtain ⟨c₁, hno, hc₁⟩ := runs_eat_of_none false hopen hc
  obtain ⟨c₂, heat, hstands₂, -⟩ := runs_eat false sign hc₁
  rw [primary]
  exact .after (runs_here c)
    (.else hno (.then heat (tracks_pure (yields_bottom sign) hstands₂.faces)))

theorem tracks_primary_of_top (sign : Symbol.top.Token s rest) (hc : c.Faces s) :
    Tracks (primary calculus (depth + 1)) c (readPrefixed calculus s) := by
  have hopen : Symbol.openParen.read? s = none := sign.read?_eq_none nofun nofun nofun
  have hbottom : Symbol.bottom.read? s = none := sign.read?_eq_none nofun nofun nofun
  obtain ⟨c₁, hno₁, hc₁⟩ := runs_eat_of_none false hopen hc
  obtain ⟨c₂, hno₂, hc₂⟩ := runs_eat_of_none false hbottom hc₁
  obtain ⟨c₃, heat, hstands₃, -⟩ := runs_eat false sign hc₂
  rw [primary]
  exact .after (runs_here c)
    (.else hno₁ (.else hno₂ (.then heat (tracks_pure (yields_top sign) hstands₃.faces))))

/-- Behind a name and an opening parenthesis stand the arguments of an atom. -/
theorem tracks_applied {p : Name} {start : Nat} (hname : NameToken p s ('(' :: s₁))
    (hdepth : s.length ≤ depth) (hc : c.Faces ('(' :: s₁)) (hle : start ≤ c.position) :
    Tracks (do
      expect .openParen "("
      enter .primary start .arguments
      let args ← arguments [] depth
      expect .closeParen Expectation.closeParen.text
      return Formula.atom p args) c (readAtom .predicate s) := by
  have hopen : Symbol.openParen.Token ('(' :: s₁) s₁ :=
    Symbol.token_of_sign (by decide) (by decide) (.refl _)
  have hstuck {stuck : Stuck} (h : readArguments s₁ = .error stuck) :
      readAtom .predicate s = .error stuck :=
    stuck_readAtom_iff.mpr (.inr ⟨p, _, hname, s₁, rfl, .inr ⟨rfl, h⟩⟩)
  have hdepth₁ : s₁.length < depth :=
    Nat.lt_of_lt_of_le (Nat.lt_trans (length_lt_cons '(' s₁) hname.length_lt) hdepth
  obtain ⟨c₁, hexpect, hstands₁⟩ := runs_expect false "(" hopen hc
  refine .after hexpect ?_
  refine .enter hstands₁.faces (Nat.le_trans hle hexpect.leads.position_le) (.inl .arguments)
    fun c₂ hc₂ _ => ?_
  rcases runs_arguments [] hdepth₁ hc₂ with
    ⟨xs, t, c₃, hargs, hc₃, hend⟩ | ⟨stuck, c₃, hargs, hstuck₃⟩
  · refine .after hargs ?_
    rcases hend with ⟨rest, hclose, hxs⟩ | ⟨hclose, hstuck₃⟩
    · obtain ⟨c₄, hexpect₄, hstands₄⟩ := runs_expect false Expectation.closeParen.text hclose hc₃
      exact .after hexpect₄ (tracks_pure
        (yields_readAtom_iff.mpr ⟨p, .inr ⟨s₁, xs, rfl, hname, hxs, rfl⟩⟩) hstands₄.faces)
    · obtain ⟨c₄, hexpect₄⟩ := runs_expect_of_none false .closeParen hclose hc₃
      exact .stuck (hstuck hstuck₃) hexpect₄.bind_error
  · exact .stuck (hstuck hstuck₃) hargs.bind_error

theorem tracks_primary_of_free
    (free : ∀ symbol : Symbol, symbol.beginsFormula = true → symbol.read? s = none)
    (hdepth : s.length ≤ depth) (hc : c.Faces s) :
    Tracks (primary calculus (depth + 1)) c (readAtom calculus s) := by
  obtain ⟨c₁, hno₁, hc₁⟩ := runs_eat_of_none false (free .openParen rfl) hc
  obtain ⟨c₂, hno₂, hc₂⟩ := runs_eat_of_none false (free .bottom rfl) hc₁
  obtain ⟨c₃, hno₃, hc₃⟩ := runs_eat_of_none false (free .top rfl) hc₂
  have hle : c.position ≤ c₃.position :=
    (hno₁.leads.trans (hno₂.leads.trans hno₃.leads)).position_le
  rw [primary]
  refine .after (runs_here c) (.else hno₁ (.else hno₂ (.else hno₃ ?_)))
  cases hname : readName? s with
  | none =>
    obtain ⟨c₄, hnone, hc₄⟩ := runs_name?_of_none false hname hc₃
    obtain ⟨c₅, hstuck⟩ := runs_stuck Formula false .formula hc₄
    exact .after hnone (.stuck (stuck_readAtom_iff.mpr (.inl ⟨hname, rfl⟩)) hstuck)
  | some read =>
    obtain ⟨p, s₁⟩ := read
    have htoken := readName?_eq_some_iff.mp hname
    obtain ⟨c₄, hp, hstands₄, hlt⟩ := runs_name? false htoken hc₃
    obtain ⟨c₅, hrest, hstands₅⟩ := runs_rest false hstands₄
    have hle₅ := hrest.leads.position_le
    refine .after hp (.after hrest ?_)
    by_cases hparen : s₁.val.head? = some '('
    · obtain ⟨s₂, hs₁⟩ := List.head?_eq_some_iff.mp hparen
      rw [if_pos hparen]
      cases calculus with
      | propositional =>
        obtain ⟨c₆, hstuck⟩ := runs_stuck Formula false .connective hstands₅.faces
        exact .stuck
          (stuck_readAtom_iff.mpr (.inr ⟨p, s₁, htoken, s₂, hs₁, .inl ⟨rfl, rfl⟩⟩)) hstuck
      | predicate =>
        rw [hs₁] at htoken hstands₅
        exact tracks_applied htoken hdepth hstands₅.faces (by omega)
    · rw [if_neg hparen]
      exact tracks_pure (yields_readAtom_iff.mpr ⟨p, .inl ⟨htoken, hparen, rfl⟩⟩) hstands₅.faces

theorem TracksAt.primary_succ (below : TracksAt calculus depth) (hnot : Symbol.not.read? s = none)
    (hquantifier : ∀ q, (Symbol.quantifier q).read? s = none) (room : 9 * s.length ≤ depth)
    (hc : c.Faces s) :
    Tracks (Scan.primary calculus (depth + 1)) c (readPrefixed calculus s) := by
  cases opening s with
  | not sign => exact absurd sign (Symbol.read?_eq_none_iff.mp hnot _)
  | quantifier sign => exact absurd sign (Symbol.read?_eq_none_iff.mp (hquantifier _) _)
  | openParen sign => exact below.primary_of_openParen sign room hc
  | bottom sign => exact tracks_primary_of_bottom sign hc
  | top sign => exact tracks_primary_of_top sign hc
  | atom free =>
    rw [readPrefixed_of_free free]
    exact tracks_primary_of_free free (by omega) hc

theorem TracksAt.quantifier_succ (below : TracksAt calculus depth)
    (sign : (Symbol.quantifier q).Token s s₁) (room : 9 * s.length ≤ depth) (hc : c.Faces s) :
    Tracks (Scan.quantifier calculus q (depth + 1)) c (readPrefixed calculus s) := by
  rw [Scan.quantifier]
  refine .after (runs_here c) ?_
  cases calculus with
  | propositional =>
    obtain ⟨c₁, hstuck⟩ := runs_stuck Formula false .formulaWithoutQuantifiers hc
    exact .stuck (readPrefixed_of_quantifier_of_propositional sign) hstuck
  | predicate =>
    obtain ⟨c₁, heat, hstands₁, hlt₁⟩ := runs_eat false sign hc
    refine .after heat ?_
    cases hname : readName? s₁ with
    | none =>
      obtain ⟨c₂, hnone, hc₂⟩ := runs_name?_of_none false hname hstands₁.faces
      obtain ⟨c₃, hstuck⟩ := runs_stuck Formula false .variableName hc₂
      exact .after hnone (.stuck (readPrefixed_of_quantifier_of_no_name sign hname) hstuck)
    | some read =>
      obtain ⟨x, s₂⟩ := read
      have bound := readName?_eq_some_iff.mp hname
      obtain ⟨c₂, hx, hstands₂, hlt₂⟩ := runs_name? false bound hstands₁.faces
      obtain ⟨c₃, hseparator, hc₃⟩ := runs_separator false hstands₂.faces
      have hlt : c.position < c₃.position :=
        Nat.lt_of_lt_of_le (Nat.lt_trans hlt₁ hlt₂) hseparator.leads.position_le
      have room₃ : 9 * (skipSeparator s₂).length + 8 ≤ depth := by
        have := length_skipSeparator_lt sign bound
        omega
      refine .after hx
        (.after hseparator (.enter hc₃ (Nat.le_of_lt hlt) (.inr hlt) fun c₄ hc₄ _ => ?_))
      rw [readPrefixed_of_quantifier sign bound]
      exact (below.formula room₃ hc₄).passOn ..

/-- Looking ahead for a quantifier finds the one that stands here. -/
theorem runs_findQuantifier (sign : (Symbol.quantifier q).Token s s₁) (hc : c.Faces s) :
    ∃ c₁, Runs false ([Quantifier.forAll, .forSome].findM? fun q => lookFor (.quantifier q)) c
      (.ok (some q)) c₁ ∧ c₁.Faces s := by
  cases q with
  | forAll =>
    obtain ⟨c₁, heat, -, -⟩ := runs_eat true sign hc
    obtain ⟨c₂, hfound, hc₂⟩ := runs_lookFor heat hc
    exact ⟨c₂, hfound.bind (runs_pure _ c₂), hc₂⟩
  | forSome =>
    have hother : (Symbol.quantifier .forAll).read? s = none := sign.read?_eq_none nofun nofun nofun
    obtain ⟨c₁, hno, -⟩ := runs_eat_of_none true hother hc
    obtain ⟨c₂, hmissed, hc₂⟩ := runs_lookFor hno hc
    obtain ⟨c₃, heat, -, -⟩ := runs_eat true sign hc₂
    obtain ⟨c₄, hfound, hc₄⟩ := runs_lookFor heat hc₂
    exact ⟨c₄, hmissed.bind (hfound.bind (runs_pure _ c₄)), hc₄⟩

theorem runs_findQuantifier_of_none (h : ∀ q, (Symbol.quantifier q).read? s = none)
    (hc : c.Faces s) :
    ∃ c₁, Runs false ([Quantifier.forAll, .forSome].findM? fun q => lookFor (.quantifier q)) c
      (.ok none) c₁ ∧ c₁.Faces s := by
  obtain ⟨c₁, hno, -⟩ := runs_eat_of_none true (h .forAll) hc
  obtain ⟨c₂, hmissed, hc₂⟩ := runs_lookFor hno hc
  obtain ⟨c₃, hno₃, -⟩ := runs_eat_of_none true (h .forSome) hc₂
  obtain ⟨c₄, hmissed₄, hc₄⟩ := runs_lookFor hno₃ hc₂
  exact ⟨c₄, hmissed.bind (hmissed₄.bind (runs_pure none c₄)), hc₄⟩

theorem TracksAt.unary_succ (below : TracksAt calculus depth) (room : 9 * s.length + 1 ≤ depth)
    (hc : c.Faces s) :
    Tracks (Scan.unary calculus (depth + 1)) c (readPrefixed calculus s) := by
  rw [Scan.unary]
  refine .after (runs_here c) ?_
  cases hnot : Symbol.not.read? s with
  | some s₁ =>
    have sign := Symbol.read?_eq_some_iff.mp hnot
    obtain ⟨c₁, heat, hstands₁, hlt⟩ := runs_eat false sign hc
    have room₁ : 9 * s₁.val.length + 2 ≤ depth := by
      have := sign.length_lt
      omega
    rw [readPrefixed_of_not sign]
    refine .then heat (.enter hstands₁.faces (Nat.le_of_lt hlt) (.inr hlt) fun c₂ hc₂ _ => ?_)
    exact (below.unary room₁ hc₂).passOn ..
  | none =>
    obtain ⟨c₁, hno, hc₁⟩ := runs_eat_of_none false hnot hc
    refine .else hno ?_
    by_cases hquantifier : ∃ q s₁, (Symbol.quantifier q).Token s s₁
    · obtain ⟨q, s₁, sign⟩ := hquantifier
      obtain ⟨c₂, hfound, hc₂⟩ := runs_findQuantifier sign hc₁
      have hle : c.position ≤ c₂.position := (hno.leads.trans hfound.leads).position_le
      refine .after hfound (.enter hc₂ hle (.inl .quantifier) fun c₃ hc₃ _ => ?_)
      exact below.quantifier sign room hc₃
    · have hnone (q : Quantifier) : (Symbol.quantifier q).read? s = none :=
        Symbol.read?_eq_none_iff.mpr fun rest sign => hquantifier ⟨q, rest, sign⟩
      obtain ⟨c₂, hmissed, hc₂⟩ := runs_findQuantifier_of_none hnone hc₁
      have hle : c.position ≤ c₂.position := (hno.leads.trans hmissed.leads).position_le
      refine .after hmissed (.enter hc₂ hle (.inl .primary) fun c₃ hc₃ _ => ?_)
      exact below.primary hnot hnone room hc₃

/-! ### Operations -/

theorem TracksAt.chain_succ (below : TracksAt calculus depth)
    (hlevels : tighter.length ≤ Level.all.length) (room : 9 * s.length ≤ depth) (hc : c.Faces s) :
    Tracks (Scan.chain calculus c₀ tighter left (depth + 1)) c
      (readChain calculus c₀ tighter left s) := by
  rw [Scan.chain]
  refine .after (runs_here c) ?_
  cases hsign : (Symbol.connective c₀).read? s with
  | none =>
    obtain ⟨c₁, hno, hc₁⟩ := runs_eat_of_none false hsign hc
    exact .else hno (tracks_pure (yields_chain_iff.mpr (.inl ⟨rfl, rfl, hsign⟩)) hc₁)
  | some s₁ =>
    have htoken := Symbol.read?_eq_some_iff.mp hsign
    obtain ⟨c₁, heat, hstands₁, hlt⟩ := runs_eat false htoken hc
    have hshorter := htoken.length_lt
    have hall : Level.all.length = 4 := rfl
    refine .then heat
      (.enter hstands₁.faces (Nat.le_of_lt hlt) (.inr hlt) fun c₂ hc₂ hposition₂ => ?_)
    refine (below.operation hlevels (by omega) hc₂).bind ?_ fun stuck hstuck =>
      ⟨stuck.behind left, stuck_chain_iff.mpr ⟨s₁, htoken, .inl ⟨stuck, hstuck, rfl⟩⟩, rfl⟩
    intro φ s₂ c₃ hφ hc₃ hle
    have hlt₃ : c.position < c₃.position := by omega
    have hshorter₂ := hφ.length_lt
    refine .enter hc₃ (Nat.le_of_lt hlt₃) (.inr hlt₃) fun c₄ hc₄ _ => ?_
    have hchain : Tracks (Scan.chain calculus c₀ tighter (.binary c₀ left φ) depth) c₄
        (readChain calculus c₀ tighter (.binary c₀ left φ) s₂) := below.chain hlevels (by omega) hc₄
    cases hchain with
    | read runs yields faces =>
      exact .read runs (yields_chain_iff.mpr (.inr ⟨_, _, _, htoken, hφ, yields⟩)) faces
    | stuck answer runs =>
      exact .stuck (stuck_chain_iff.mpr ⟨s₁, htoken, .inr ⟨φ, s₂, hφ, answer⟩⟩) runs

theorem TracksAt.operation_succ (below : TracksAt calculus depth)
    (hlevels : levels.length ≤ Level.all.length) (room : 9 * s.length + levels.length + 2 ≤ depth)
    (hc : c.Faces s) :
    Tracks (Scan.operation calculus levels (depth + 1)) c (readOperation calculus levels s) := by
  cases levels with
  | nil =>
    rw [Scan.operation, readOperation_nil]
    exact below.unary room hc
  | cons level tighter =>
    obtain ⟨c₀, associativity⟩ := level
    have hall : Level.all.length = 4 := rfl
    rw [List.length_cons] at hlevels room
    rw [Scan.operation]
    refine .after (runs_here c)
      (.enter hc (Nat.le_refl _) (.inl (.operand _ _)) fun c₁ hc₁ hposition₁ => ?_)
    have hleft : Tracks (Scan.operation calculus tighter depth) c₁
        (readOperation calculus tighter s) :=
      below.operation (by omega) (by omega) hc₁
    cases associativity with
    | left =>
      refine hleft.bind ?_ fun stuck hstuck => ⟨stuck, stuck_left_iff.mpr (.inl hstuck), rfl⟩
      intro φ s₁ c₂ hφ hc₂ hle
      have hshorter := hφ.length_lt
      refine .enter hc₂ (by omega) (.inl (.chain _ _)) fun c₃ hc₃ _ => ?_
      have hchain : Tracks (Scan.chain calculus c₀ tighter φ depth) c₃
          (readChain calculus c₀ tighter φ s₁) :=
        below.chain (by omega) (by omega) hc₃
      cases hchain with
      | read runs yields faces => exact .read runs (yields_left_iff.mpr ⟨_, _, hφ, yields⟩) faces
      | stuck answer runs => exact .stuck (stuck_left_iff.mpr (.inr ⟨φ, s₁, hφ, answer⟩)) runs
    | right =>
      refine hleft.bind ?_ fun stuck hstuck => ⟨stuck, stuck_right_iff.mpr (.inl hstuck), rfl⟩
      intro φ s₁ c₂ hφ hc₂ hle
      cases hsign : (Symbol.connective c₀).read? s₁ with
      | none =>
        obtain ⟨c₃, hno, hc₃⟩ := runs_eat_of_none false hsign hc₂
        exact .else hno (tracks_pure (yields_right_iff.mpr ⟨φ, s₁, hφ, .inl ⟨rfl, rfl, hsign⟩⟩) hc₃)
      | some s₂ =>
        have htoken := Symbol.read?_eq_some_iff.mp hsign
        obtain ⟨c₃, heat, hstands₃, hlt⟩ := runs_eat false htoken hc₂
        have hlt₃ : c.position < c₃.position := by omega
        have hshorter := Nat.lt_trans htoken.length_lt hφ.length_lt
        refine .then heat (.enter hstands₃.faces (Nat.le_of_lt hlt₃) (.inr hlt₃) fun c₄ hc₄ _ => ?_)
        have hright : Tracks (Scan.operation calculus (⟨c₀, .right⟩ :: tighter) depth) c₄
            (readOperation calculus (⟨c₀, .right⟩ :: tighter) s₂) :=
          below.operation hlevels (by rw [List.length_cons]; omega) hc₄
        refine hright.bind (fun ψ rest c₅ hψ hc₅ _ => ?_) fun stuck hstuck => ?_
        · exact tracks_pure (yields_right_iff.mpr ⟨φ, s₁, hφ, .inr ⟨s₂, ψ, htoken, hψ, rfl⟩⟩) hc₅
        · exact ⟨stuck.behind φ,
            stuck_right_iff.mpr (.inr ⟨φ, s₁, hφ, s₂, htoken, stuck, hstuck, rfl⟩), rfl⟩

/-- **In every depth the routines read as the reader that hands on what is left**, if the depth is
enough for what is left. -/
theorem tracksAt (calculus : Calculus) (depth : Nat) : TracksAt calculus depth := by
  induction depth with
  | zero => constructor <;> intros <;> omega
  | succ depth below =>
    constructor
    · exact below.formula_succ
    · exact fun hlevels room => below.operation_succ hlevels (Nat.le_of_succ_le_succ room)
    · exact fun hlevels room => below.chain_succ hlevels (Nat.le_of_succ_le_succ room)
    · exact fun room => below.unary_succ (Nat.le_of_succ_le_succ room)
    · exact fun sign room => below.quantifier_succ sign (Nat.le_of_succ_le_succ room)
    · exact fun hnot hquantifier room =>
        below.primary_succ hnot hquantifier (Nat.le_of_succ_le_succ room)

end Phrases

/-! ### Greater depths -/

section Depths

variable {α β : Type} {m m' x x' y y' : Scan α} {f f' : α → Scan β} {calculus : Calculus}
  {depth depth' : Nat}

/-- Where the first run has a result, the second one has it too. -/
def Extends (m m' : Scan α) : Prop := ∀ c r, m.run.run c = some r → m'.run.run c = some r

theorem Extends.refl (m : Scan α) : Extends m m := fun _ _ h => h

theorem extends_exhausted (m : Scan α) : Extends exhausted m := nofun

theorem Extends.bind (h : Extends m m') (hf : ∀ a, Extends (f a) (f' a)) :
    Extends (m >>= f) (m' >>= f') := by
  intro c r hr
  rw [ExceptT.run_bind, StateT.run_bind] at hr ⊢
  cases hm : m.run.run c with
  | none =>
    rw [hm] at hr
    cases hr
  | some ended =>
    obtain ⟨result, c₁⟩ := ended
    rw [hm] at hr
    rw [h c _ hm]
    cases result with
    | error halt => exact hr
    | ok a => exact hf a c₁ r hr

theorem Extends.ite {p : Prop} [Decidable p] (hx : Extends x x') (hy : Extends y y') :
    Extends (if p then x else y) (if p then x' else y') := by
  split
  · exact hx
  · exact hy

theorem extends_arguments (names : List Name) (depth : Nat) :
    Extends (arguments names depth) (arguments names (depth + 1)) := by
  induction depth generalizing names with
  | zero => exact extends_exhausted _
  | succ depth ih =>
    rw [arguments, arguments]
    refine .bind (.refl _) fun start => .bind (.refl _) fun found => ?_
    cases found with
    | none => exact .refl _
    | some name => exact .bind (.refl _) fun b => .ite (.bind (.refl _) fun _ => ih _) (.refl _)

/-- One more routine inside the others changes no result. -/
structure ExtendsAt (calculus : Calculus) (depth : Nat) : Prop where
  formula : Extends (formula calculus depth) (formula calculus (depth + 1))
  operation (levels : List Level) :
    Extends (operation calculus levels depth) (operation calculus levels (depth + 1))
  chain (c₀ : Connective) (tighter : List Level) (left : Formula) :
    Extends (chain calculus c₀ tighter left depth) (chain calculus c₀ tighter left (depth + 1))
  unary : Extends (unary calculus depth) (unary calculus (depth + 1))
  quantifier (q : Quantifier) :
    Extends (quantifier calculus q depth) (quantifier calculus q (depth + 1))
  primary : Extends (primary calculus depth) (primary calculus (depth + 1))

theorem ExtendsAt.operation_succ (below : ExtendsAt calculus depth) (levels : List Level) :
    Extends (Scan.operation calculus levels (depth + 1))
      (Scan.operation calculus levels (depth + 1 + 1)) := by
  cases levels with
  | nil =>
    rw [Scan.operation, Scan.operation]
    exact below.unary
  | cons level tighter =>
    rw [Scan.operation, Scan.operation]
    refine .bind (.refl _) fun start => .bind (.refl _) fun _ =>
      .bind (below.operation tighter) fun left => ?_
    cases level.associativity with
    | left => exact .bind (.refl _) fun _ => below.chain _ _ _
    | right =>
      exact .bind (.refl _) fun b => .ite
        (.bind (.refl _) fun _ => .bind (below.operation _) fun right => .refl _) (.refl _)

theorem ExtendsAt.unary_succ (below : ExtendsAt calculus depth) :
    Extends (Scan.unary calculus (depth + 1)) (Scan.unary calculus (depth + 1 + 1)) := by
  rw [Scan.unary, Scan.unary]
  refine .bind (.refl _) fun start => .bind (.refl _) fun b => .ite
    (.bind (.refl _) fun _ => .bind below.unary fun inner => .refl _)
      (.bind (.refl _) fun found => ?_)
  cases found with
  | some q => exact .bind (.refl _) fun _ => below.quantifier q
  | none => exact .bind (.refl _) fun _ => below.primary

theorem ExtendsAt.quantifier_succ (below : ExtendsAt calculus depth) (q : Quantifier) :
    Extends (Scan.quantifier calculus q (depth + 1))
      (Scan.quantifier calculus q (depth + 1 + 1)) := by
  rw [Scan.quantifier, Scan.quantifier]
  refine .bind (.refl _) fun start =>
    .ite (.bind (.refl _) fun _ => .bind (.refl _) fun found => ?_) (.refl _)
  cases found with
  | none => exact .refl _
  | some x =>
    exact .bind (.refl _) fun _ => .bind (.refl _) fun _ => .bind below.formula fun body => .refl _

theorem ExtendsAt.primary_succ (below : ExtendsAt calculus depth) :
    Extends (Scan.primary calculus (depth + 1)) (Scan.primary calculus (depth + 1 + 1)) := by
  rw [Scan.primary, Scan.primary]
  refine .bind (.refl _) fun start => .bind (.refl _) fun b => .ite
    (.bind (.refl _) fun _ => .bind below.formula fun inner => .refl _)
    (.bind (.refl _) fun b => .ite (.refl _) (.bind (.refl _) fun b => .ite (.refl _)
      (.bind (.refl _) fun found => ?_)))
  cases found with
  | none => exact .refl _
  | some p =>
    exact .bind (.refl _) fun rest => .ite
      (.ite (.bind (.refl _) fun _ => .bind (.refl _) fun _ =>
        .bind (extends_arguments [] depth) fun args => .refl _) (.refl _)) (.refl _)

theorem extendsAt (calculus : Calculus) (depth : Nat) : ExtendsAt calculus depth := by
  induction depth with
  | zero => constructor <;> intros <;> exact extends_exhausted _
  | succ depth below =>
    constructor
    · rw [Scan.formula, Scan.formula]
      exact .bind (.refl _) fun start => .bind (.refl _) fun _ => below.operation _
    · exact below.operation_succ
    · intro c₀ tighter left
      rw [Scan.chain, Scan.chain]
      exact .bind (.refl _) fun start => .bind (.refl _) fun b => .ite
        (.bind (.refl _) fun _ => .bind (below.operation _) fun right => .bind (.refl _) fun _ =>
          below.chain _ _ _) (.refl _)
    · exact below.unary_succ
    · exact below.quantifier_succ
    · exact below.primary_succ

/-- A greater depth does not change the result. -/
theorem extends_formula (hle : depth ≤ depth') :
    Extends (formula calculus depth) (formula calculus depth') := by
  induction hle with
  | refl => exact .refl _
  | step _ ih => exact fun c r h => (extendsAt calculus _).formula c r (ih c r h)

end Depths

/-! ### Whole texts -/

theorem runs_expectEnd (hend : Text.skipBlanks s = []) (expected : String) (hc : c.Faces s) :
    ∃ c₁, Runs false (expectEnd expected) c (.ok ()) c₁ := by
  obtain ⟨c₁, hblanks, before, htext, hposition⟩ := runs_skipBlanks false hc
  have hle : utf8Length c₁.text ≤ c₁.position :=
    Nat.le_of_eq (by rw [htext, hend, List.append_nil, hposition])
  refine ⟨c₁, hblanks.bind ((runs_get false c₁).bind ?_)⟩
  rw [if_pos hle]
  exact runs_pure () c₁

theorem runs_expectEnd_of_ne_nil (hend : Text.skipBlanks s ≠ []) (expected : Expectation)
    (hc : c.Faces s) :
    ∃ c₁, Runs false (expectEnd expected.text) c
      (.error ((Stuck.before expected s).locate c.text).halt) c₁ := by
  obtain ⟨c₁, hblanks, hstands₁⟩ := runs_skipBlanks false hc
  have hlt : ¬utf8Length c₁.text ≤ c₁.position := by
    obtain ⟨before, htext, hposition⟩ := hstands₁
    rw [htext, ← hposition, utf8Length_append]
    have hpos := utf8Length_pos hend
    omega
  obtain ⟨c₂, hstuck⟩ := runs_stuck Unit false expected (.of_skipBlanks hstands₁)
  rw [hblanks.leads.1] at hstuck
  refine ⟨c₂, hblanks.bind ((runs_get false c₁).bind ?_)⟩
  rw [if_neg hlt]
  exact hstuck

end Scan

/-- The reader by positions finds what `Formula.parse` finds if the depth is enough. -/
theorem Formula.runs_wholeText (calculus : Calculus) (text : String) {depth : Nat}
    (room : 9 * text.toList.length + 8 ≤ depth) :
    ∃ cursor, Scan.Runs false (Scan.wholeText calculus depth) (.start text)
      ((Formula.parse calculus text).mapError SyntaxError.halt) cursor := by
  have hc : (Cursor.start text).Faces text.toList := ⟨text.toList, ⟨[], rfl, rfl⟩, rfl⟩
  rw [Formula.parse, Formula.read]
  cases (Scan.tracksAt calculus depth).formula room hc with
  | stuck answer runs =>
    rw [answer]
    exact ⟨_, runs.bind_error⟩
  | @read φ rest c₁ runs yields faces =>
    obtain ⟨_, hread⟩ := yields
    rw [hread]
    by_cases hend : Text.skipBlanks rest = []
    · obtain ⟨c₂, hexpect⟩ := Scan.runs_expectEnd hend Expectation.connectiveOrEnd.text faces
      simp only [hend]
      exact ⟨c₂, runs.bind (hexpect.bind (Scan.runs_pure φ c₂))⟩
    · obtain ⟨c₂, hexpect⟩ := Scan.runs_expectEnd_of_ne_nil hend .connectiveOrEnd faces
      rw [runs.leads.1] at hexpect
      simp only
      exact ⟨c₂, runs.bind hexpect.bind_error⟩

theorem Formula.scan_eq_of_le {calculus : Calculus} {text : String} {depth depth' : Nat}
    (hle : depth ≤ depth') {ended : Except Halt Formula × Cursor}
    (h : Formula.scan calculus text depth = some ended) :
    Formula.scan calculus text depth' = some ended :=
  Scan.Extends.bind (Scan.extends_formula hle) (fun _ => .refl _) _ _ h

theorem Text.length_le_utf8Length (s : List Char) : s.length ≤ utf8Length s := by
  induction s with
  | nil => exact Nat.le_refl _
  | cons c s ih =>
    have hlength : utf8Length (c :: s) = c.utf8Size + utf8Length s := rfl
    have hpos := c.utf8Size_pos
    rw [List.length_cons, hlength]
    omega

/-- **The reader of formulas comes to an end in every text and never cuts the text
inside a character.**

A run by byte positions has a result in every depth that is nine for each byte, and nine more. It is
without an illegal slice and the result of `Formula.parse`. Its events are a walk, on which the
position goes back only from looking ahead, to where that began; all positions are in the text and
between characters. A routine that another one begins is next in the grammar, or the position has
gone on in between, as it has whenever a routine or a loop begins itself anew or a formula in
parentheses or behind a quantifier begins. So what is left of the text and the rank in the grammar
go down lexicographically. -/
theorem Formula.scan_walks (calculus : Calculus) (text : String) :
    ∃ result cursor,
      (∀ depth ≥ 9 * (text.utf8ByteSize + 1),
        Formula.scan calculus text depth = some (result, cursor)) ∧
      result = (Formula.parse calculus text).mapError SyntaxError.halt ∧
      result ≠ .error .illegalSlice ∧
      Walk text.toList false 0 cursor.log cursor.position ∧
      (∀ event ∈ cursor.log, event.position ≤ text.utf8ByteSize ∧
        String.Pos.Raw.IsValid text ⟨event.position⟩) ∧
      ∀ caller start callee p, .call caller start callee p ∈ cursor.log →
        (caller.Passes callee ∨ start < p) ∧ (callee = caller ∨ callee = .formula → start < p) ∧
        Prod.Lex (· < ·) (· < ·) (text.utf8ByteSize - p, callee.rank)
          (text.utf8ByteSize - start, caller.rank) := by
  have hsize : utf8Length text.toList = text.utf8ByteSize := by
    rw [← utf8ByteSize_ofList, String.ofList_toList]
  have room : 9 * text.toList.length + 8 ≤ 9 * (text.utf8ByteSize + 1) := by
    have hlength := Text.length_le_utf8Length text.toList
    omega
  obtain ⟨cursor, hscan, htext, log, hlog, hwalk⟩ := Formula.runs_wholeText calculus text room
  have hcursor : cursor.log = log := hlog
  have hboundary := hwalk.boundary ⟨[], text.toList, rfl, rfl⟩
  have hlegal : (Formula.parse calculus text).mapError SyntaxError.halt ≠ .error .illegalSlice := by
    cases Formula.parse calculus text <;> simp [Except.mapError, SyntaxError.halt]
  rw [← hcursor] at hwalk hboundary
  refine ⟨_, cursor, fun depth hdepth => Formula.scan_eq_of_le hdepth hscan, rfl, hlegal, hwalk,
    fun event hevent => ?_, fun caller start callee p hcall => ?_⟩
  · have hevent := hboundary event hevent
    exact ⟨hsize ▸ hevent.le, boundary_iff_isValid.mp hevent⟩
  · obtain ⟨hle, hdescends⟩ := hwalk.descends hcall
    have hp : p ≤ text.utf8ByteSize := hsize ▸ (hboundary _ hcall).le
    refine ⟨hdescends, fun hanew => hdescends.resolve_left fun hpasses => ?_, Prod.lex_def.mpr ?_⟩
    · rcases hanew with rfl | hformula
      · exact Nat.lt_irrefl _ hpasses.rank_lt
      · exact hpasses.ne_formula hformula
    · rcases hdescends with hpasses | hlt
      · have hrank := hpasses.rank_lt
        simp only
        omega
      · exact .inl (by simp only; omega)

end NaturalDeduction
