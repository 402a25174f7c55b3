import Mathlib.Data.Set.Card
import NaturalDeduction.Proofs.Document.Scopes

/-!
# Well-nested depths and laminar scopes

Which lists of drafts are proofs can be told from their depths, one line and the line before it at a
time; where the depths go wrong first, building stops and says why. In a proof that is built, the
scopes make up a laminar family: each takes up an interval of lines, two of them are nested or
disjoint, and the parent of a scope is the innermost scope that surrounds it.

## Intervals

A subproof extends from its assumption to the last line that has the assumption in force. The root
has no assumption. It begins before the first line, and thereby surrounds every subproof, also one
that takes up all lines of the proof.

## Main definitions

* `WellNested`, `Draft.Fault`: depths that nest; what is wrong with a line that does not
* `Document.extent?`, `Document.Surrounds`: the interval of a scope; strict inclusion of intervals
* `Document.Laminar`: what the scopes of a document are like

## Main results

* `Document.exists_layOut_iff`, `Document.layOut_eq_error_iff`: where laying out succeeds and fails
* `Document.mem_interval_iff`: the lines in a scope are those of its interval
* `Document.surrounds_iff`: strict inclusion of intervals is what the tree of scopes says
* `Document.build_laminar`: documents are the proofs with well-nested depths, and laminar
-/

namespace NaturalDeduction

variable {α : Type}

/-! ### Depths that nest -/

/-- Whether a line may follow one of depth `previous`: an assumption is in a subproof, and at most
one level deeper; any other line is no deeper. -/
def Draft.Nests (draft : Draft α) (previous : Nat) : Prop :=
  if draft.rule = .assumption then 1 ≤ draft.depth ∧ draft.depth ≤ previous + 1
  else draft.depth ≤ previous

/-- Every line may follow the line before it, and the first may follow one of depth `previous`. -/
def WellNested (previous : Nat) : List (Draft α) → Prop
  | [] => True
  | draft :: drafts => draft.Nests previous ∧ WellNested draft.depth drafts

/-- The depth of the last of some lines, which follow one of depth `previous`. -/
def depthAfter (previous : Nat) (drafts : List (Draft α)) : Nat :=
  (drafts.map (·.depth)).getLastD previous

/-- What is wrong with line `number` if it follows one of depth `previous`. -/
inductive Draft.Fault (draft : Draft α) (number previous : Nat) : NestingError → Prop
  | assumptionAtTopLevel (hrule : draft.rule = .assumption) (hdepth : draft.depth < 1) :
    draft.Fault number previous (.assumptionAtTopLevel number)
  | depthJump (hrule : draft.rule = .assumption) (hdepth : previous + 1 < draft.depth) :
    draft.Fault number previous (.depthJump number previous draft.depth)
  | subproofWithoutAssumption (hrule : draft.rule ≠ .assumption) (hdepth : previous < draft.depth) :
    draft.Fault number previous (.subproofWithoutAssumption number)

/-- A line can be placed behind any line that it may follow. -/
theorem Draft.exists_place_iff {draft : Draft α} {number : Nat} {current : Scope} :
    (∃ scope, draft.place number current = .ok scope) ↔ draft.Nests current.length := by
  simp only [place_eq_ok_iff, Nests]
  by_cases hrule : draft.rule = .assumption
  · simp only [hrule, if_true, true_and, ne_eq, not_true_eq_false, false_and, or_false]
    constructor
    · rintro ⟨_, d, hd, hle, -⟩
      omega
    · rintro ⟨hpos, hle⟩
      exact ⟨_, draft.depth - 1, by omega, by omega, rfl⟩
  · simp [hrule]

/-- A line that cannot be placed has the fault that is reported. -/
theorem Draft.place_eq_error_iff {draft : Draft α} {number : Nat} {current : Scope}
    {error : NestingError} :
    draft.place number current = .error error ↔ draft.Fault number current.length error := by
  constructor
  · intro h
    rw [place] at h
    split at h
    · next hrule =>
      split at h
      · next hzero =>
        obtain rfl := Except.error.inj h
        exact .assumptionAtTopLevel hrule (by omega)
      · split at h
        · next hjump =>
          obtain rfl := Except.error.inj h
          exact .depthJump hrule hjump
        · cases h
    · next hrule =>
      split at h
      · next hdeep =>
        obtain rfl := Except.error.inj h
        exact .subproofWithoutAssumption hrule hdeep
      · cases h
  · rintro (⟨hrule, hdepth⟩ | ⟨hrule, hdepth⟩ | ⟨hrule, hdepth⟩)
    · rw [place, if_pos hrule, if_pos (by omega)]
    · rw [place, if_pos hrule, if_neg (by omega), if_pos hdepth]
    · rw [place, if_neg hrule, if_pos hdepth]

/-- The first line that may not follow the line before it, and what is wrong with it. -/
def FirstFault (number previous : Nat) (drafts : List (Draft α)) (error : NestingError) : Prop :=
  ∃ before draft after, drafts = before ++ draft :: after ∧ WellNested previous before ∧
    draft.Fault (number + before.length) (depthAfter previous before) error

theorem depthAfter_cons (previous : Nat) (draft : Draft α) (drafts : List (Draft α)) :
    depthAfter previous (draft :: drafts) = depthAfter draft.depth drafts := by
  rw [depthAfter, depthAfter, List.map_cons, List.getLastD_cons]

/-- The fault is at the first line, or that line may stand there and the fault is further down. -/
theorem firstFault_cons_iff {number previous : Nat} {first : Draft α} {rest : List (Draft α)}
    {error : NestingError} :
    FirstFault number previous (first :: rest) error ↔
      first.Fault number previous error ∨
        first.Nests previous ∧ FirstFault (number + 1) first.depth rest error := by
  constructor
  · rintro ⟨before, draft, after, heq, hnested, hfault⟩
    rcases List.cons_eq_append_iff.mp heq with ⟨rfl, heq⟩ | ⟨before, rfl, rfl⟩
    · obtain ⟨rfl, -⟩ := List.cons.inj heq
      exact .inl hfault
    · rw [depthAfter_cons, List.length_cons, ← Nat.add_assoc, Nat.add_right_comm] at hfault
      exact .inr ⟨hnested.1, before, draft, after, rfl, hnested.2, hfault⟩
  · rintro (hfault | ⟨hnests, before, draft, after, rfl, hnested, hfault⟩)
    · exact ⟨[], first, rest, rfl, trivial, hfault⟩
    · refine ⟨first :: before, draft, after, rfl, ⟨hnests, hnested⟩, ?_⟩
      rw [depthAfter_cons, List.length_cons, ← Nat.add_assoc, Nat.add_right_comm]
      exact hfault

namespace Document

/-- Drafts are laid out if their depths nest. -/
theorem exists_layOut_iff {number : Nat} {current : Scope} {drafts : List (Draft α)} :
    (∃ lines, layOut number current drafts = .ok lines) ↔ WellNested current.length drafts := by
  induction drafts generalizing number current with
  | nil => simp [layOut, WellNested]
  | cons draft drafts ih =>
    rw [WellNested, ← Draft.exists_place_iff]
    simp only [layOut_cons_eq_ok_iff]
    constructor
    · rintro ⟨_, scope, rest, hplace, hrest, -⟩
      rw [← Draft.length_of_place hplace]
      exact ⟨⟨scope, hplace⟩, ih.mp ⟨rest, hrest⟩⟩
    · rintro ⟨⟨scope, hplace⟩, hnested⟩
      rw [← Draft.length_of_place hplace] at hnested
      obtain ⟨rest, hrest⟩ := ih.mpr hnested
      exact ⟨_, scope, rest, hplace, hrest, rfl⟩

/-- Otherwise the first line whose depth does not fit is reported. -/
theorem layOut_eq_error_iff {number : Nat} {current : Scope} {drafts : List (Draft α)}
    {error : NestingError} :
    layOut number current drafts = .error error ↔
      FirstFault number current.length drafts error := by
  induction drafts generalizing number current with
  | nil => simp [layOut, FirstFault]
  | cons first rest ih =>
    rw [layOut, firstFault_cons_iff, ← Draft.place_eq_error_iff, ← Draft.exists_place_iff]
    cases hplace : first.place number current with
    | error failure => simp
    | ok scope =>
      rw [← Draft.length_of_place hplace, ← ih]
      cases hrest : layOut (number + 1) scope rest <;> simp [hrest]

/-! ### Intervals -/

/-- The numbers of the first and the last line of a scope. The root begins before the first line. -/
def extent? (document : Document α) : Scope → Option (Nat × Nat)
  | [] => some (0, document.lines.length)
  | first :: _ => (document.lastIn? first).map (first, ·)

/-- The lines of `inner` are among those of `outer`, which begins before them or
ends behind them. -/
def Surrounds (document : Document α) (outer inner : Scope) : Prop :=
  ∃ first last first' last', document.extent? outer = some (first, last) ∧
    document.extent? inner = some (first', last') ∧
    first ≤ first' ∧ last' ≤ last ∧ (first, last) ≠ (first', last')

variable {document : Document α} {line : Line α} {s t : Scope} {a b c d : Nat}

theorem mem_scopes_iff :
    s ∈ document.scopes ↔
      s = .root ∨ ∃ line ∈ document.lines, line.rule = .assumption ∧ line.scope = s := by
  simp [scopes, and_assoc]

/-- The scope of a line and the scopes around it are scopes of the document. -/
theorem mem_scopes_of_suffix (h : LaidOut 1 .root document.lines) (hline : line ∈ document.lines)
    (hs : s <:+ line.scope) : s ∈ document.scopes := by
  rw [mem_scopes_iff]
  by_cases hroot : s = .root
  · exact .inl hroot
  · obtain ⟨opening, hopening, hrule, hscope, -⟩ := h.exists_opening hline hs hroot
    exact .inr ⟨opening, hopening, hrule, hscope⟩

/-- A subproof has a last line. -/
theorem exists_lastIn? {f : Nat} (hline : line ∈ document.lines) (hf : f ∈ line.scope) :
    ∃ last, document.lastIn? f = some last := by
  have hfound : (document.lines.reverse.find? (f ∈ ·.scope)).isSome = true := by
    rw [List.find?_isSome]
    exact ⟨line, List.mem_reverse.mpr hline, by simpa using hf⟩
  obtain ⟨closing, hclosing⟩ := Option.isSome_iff_exists.mp hfound
  exact ⟨closing.number, by rw [lastIn?, List.findRev?_eq_find?_reverse, hclosing, Option.map_some]⟩

/-- The interval of the scope that an assumption opens. -/
theorem extent?_eq_some_iff (h : LaidOut 1 .root document.lines) (hline : line ∈ document.lines)
    (hrule : line.rule = .assumption) :
    document.extent? line.scope = some (a, b) ↔
      line.number = a ∧ document.lastIn? line.number = some b := by
  obtain ⟨outer, hscope⟩ := h.exists_scope_eq_cons hline hrule
  rw [hscope, extent?, Option.map_eq_some_iff]
  constructor
  · rintro ⟨last, hlast, heq⟩
    obtain ⟨rfl, rfl⟩ := Prod.mk.inj heq
    exact ⟨rfl, hlast⟩
  · rintro ⟨rfl, hlast⟩
    exact ⟨b, hlast, rfl⟩

/-- The interval of a subproof begins with its assumption and ends with a line in it. -/
theorem exists_extent? (h : LaidOut 1 .root document.lines) (hline : line ∈ document.lines)
    (hrule : line.rule = .assumption) :
    ∃ closing ∈ document.lines, line.scope <:+ closing.scope ∧
      document.extent? line.scope = some (line.number, closing.number) := by
  obtain ⟨outer, hscope⟩ := h.exists_scope_eq_cons hline hrule
  obtain ⟨last, hlast⟩ := exists_lastIn? hline (hscope ▸ List.mem_cons_self)
  obtain ⟨closing, hclosing, rfl, hmem, -⟩ := (lastIn?_eq_some_iff h).mp hlast
  exact ⟨closing, hclosing, ((h.number_mem_iff hclosing List.suffix_rfl hline).mp hmem).2,
    (extent?_eq_some_iff h hline hrule).mpr ⟨rfl, hlast⟩⟩

/-- **Subproofs are intervals.** The lines in the subproof of an assumption are those from the
assumption to the last line of the subproof. -/
theorem suffix_iff_of_lastIn? (h : LaidOut 1 .root document.lines) {opening : Line α}
    (hopening : opening ∈ document.lines) (hrule : opening.rule = .assumption)
    (hlast : document.lastIn? opening.number = some b) (hline : line ∈ document.lines) :
    opening.scope <:+ line.scope ↔ opening.number ≤ line.number ∧ line.number ≤ b := by
  obtain ⟨closing, hclosing, rfl, hmem, hbehind⟩ := (lastIn?_eq_some_iff h).mp hlast
  have hiff : opening.number ∈ line.scope ↔ opening.scope <:+ line.scope := by
    rw [h.number_mem_iff hline List.suffix_rfl hopening, and_iff_right hrule]
  rw [← hiff]
  constructor
  · intro hmem
    exact ⟨h.le_number_of_mem_scope hline hmem,
      Nat.not_lt.mp fun hlt => hbehind line hline hlt hmem⟩
  · rintro ⟨hge, hle⟩
    -- once the subproof is closed it could not contain the last line
    by_contra hnot
    exact h.notMem_scope_of_le hline hclosing hge hnot hle hmem

/-- **Scopes are intervals.** -/
theorem mem_interval_iff (h : LaidOut 1 .root document.lines) (hs : s ∈ document.scopes)
    (hextent : document.extent? s = some (a, b)) (hline : line ∈ document.lines) :
    s <:+ line.scope ↔ a ≤ line.number ∧ line.number ≤ b := by
  rcases mem_scopes_iff.mp hs with rfl | ⟨opening, hopening, hrule, rfl⟩
  · obtain ⟨rfl, rfl⟩ := Prod.mk.inj (Option.some.inj hextent)
    have := h.number_lt hline
    exact iff_of_true List.nil_suffix ⟨Nat.zero_le _, by omega⟩
  · obtain ⟨rfl, hlast⟩ := (extent?_eq_some_iff h hopening hrule).mp hextent
    exact suffix_iff_of_lastIn? h hopening hrule hlast hline

/-- Every scope of a document has an interval. -/
theorem exists_extent?_of_mem (h : LaidOut 1 .root document.lines) (hs : s ∈ document.scopes) :
    ∃ first last, document.extent? s = some (first, last) := by
  rcases mem_scopes_iff.mp hs with rfl | ⟨opening, hopening, hrule, rfl⟩
  · exact ⟨_, _, rfl⟩
  · obtain ⟨closing, -, -, hextent⟩ := exists_extent? h hopening hrule
    exact ⟨_, _, hextent⟩

/-- What is around a scope begins no later and ends no earlier. -/
theorem extent_le_of_suffix (h : LaidOut 1 .root document.lines) (hs : s ∈ document.scopes)
    (ht : t ∈ document.scopes) (hsExtent : document.extent? s = some (a, b))
    (htExtent : document.extent? t = some (c, d)) (hsuffix : s <:+ t) : a ≤ c ∧ c ≤ d ∧ d ≤ b := by
  rcases mem_scopes_iff.mp ht with rfl | ⟨opening, hopening, hrule, rfl⟩
  · obtain rfl := List.suffix_nil.mp hsuffix
    obtain ⟨rfl, rfl⟩ := Prod.mk.inj (Option.some.inj hsExtent)
    obtain ⟨rfl, rfl⟩ := Prod.mk.inj (Option.some.inj htExtent)
    exact ⟨Nat.le_refl _, Nat.zero_le _, Nat.le_refl _⟩
  · obtain ⟨closing, hclosing, hinside, hextent⟩ := exists_extent? h hopening hrule
    obtain ⟨rfl, rfl⟩ := Prod.mk.inj (Option.some.inj (htExtent.symm.trans hextent))
    have hfirst := (mem_interval_iff h hs hsExtent hopening).mp hsuffix
    have hlast := (mem_interval_iff h hs hsExtent hclosing).mp (hsuffix.trans hinside)
    have hle := (mem_interval_iff h ht htExtent hclosing).mp hinside
    exact ⟨hfirst.1, hle.1, hlast.2⟩

/-- A scope that begins inside another lies in it. -/
theorem suffix_of_begins_inside (h : LaidOut 1 .root document.lines) (hs : s ∈ document.scopes)
    (ht : t ∈ document.scopes) (hsExtent : document.extent? s = some (a, b))
    (htExtent : document.extent? t = some (c, d)) (hge : a ≤ c) (hle : c ≤ b) : s <:+ t := by
  rcases mem_scopes_iff.mp ht with rfl | ⟨opening, hopening, hrule, rfl⟩
  · -- only the root begins before the first line
    obtain ⟨rfl, rfl⟩ := Prod.mk.inj (Option.some.inj htExtent)
    rcases mem_scopes_iff.mp hs with rfl | ⟨opening, hopening, hrule, rfl⟩
    · exact List.suffix_rfl
    · obtain ⟨closing, -, -, hextent⟩ := exists_extent? h hopening hrule
      obtain ⟨rfl, rfl⟩ := Prod.mk.inj (Option.some.inj (hsExtent.symm.trans hextent))
      have := h.number_le hopening
      omega
  · obtain ⟨closing, -, -, hextent⟩ := exists_extent? h hopening hrule
    obtain ⟨rfl, rfl⟩ := Prod.mk.inj (Option.some.inj (htExtent.symm.trans hextent))
    exact (mem_interval_iff h hs hsExtent hopening).mpr ⟨hge, hle⟩

/-- **Strict inclusion of intervals is what the tree of scopes says.** -/
theorem surrounds_iff (h : LaidOut 1 .root document.lines) (hs : s ∈ document.scopes)
    (ht : t ∈ document.scopes) : document.Surrounds s t ↔ s <:+ t ∧ s ≠ t := by
  constructor
  · rintro ⟨a, b, c, d, hsExtent, htExtent, hge, hle, hne⟩
    have hself := extent_le_of_suffix h ht ht htExtent htExtent List.suffix_rfl
    refine ⟨suffix_of_begins_inside h hs ht hsExtent htExtent hge (by omega), ?_⟩
    rintro rfl
    exact hne (Option.some.inj (hsExtent.symm.trans htExtent))
  · rintro ⟨hsuffix, hne⟩
    obtain ⟨a, b, hsExtent⟩ := exists_extent?_of_mem h hs
    obtain ⟨c, d, htExtent⟩ := exists_extent?_of_mem h ht
    obtain ⟨hge, hself, hle⟩ := extent_le_of_suffix h hs ht hsExtent htExtent hsuffix
    refine ⟨a, b, c, d, hsExtent, htExtent, hge, hle, fun heq => hne ?_⟩
    obtain ⟨rfl, rfl⟩ := Prod.mk.inj heq
    have hback := suffix_of_begins_inside h ht hs htExtent hsExtent hge hself
    exact hsuffix.eq_of_length_le hback.length_le

/-- Two intervals of scopes are disjoint, or one includes the other. -/
theorem nested_or_disjoint (h : LaidOut 1 .root document.lines) (hs : s ∈ document.scopes)
    (ht : t ∈ document.scopes) (hsExtent : document.extent? s = some (a, b))
    (htExtent : document.extent? t = some (c, d)) :
    b < c ∨ d < a ∨ (a ≤ c ∧ d ≤ b) ∨ (c ≤ a ∧ b ≤ d) := by
  rcases Nat.lt_or_ge b c with hlt | hcb
  · exact .inl hlt
  rcases Nat.lt_or_ge d a with hlt | had
  · exact .inr (.inl hlt)
  -- the intervals overlap, so the one that begins later begins inside the other
  rcases Nat.le_total a c with hac | hca
  · have hsuffix := suffix_of_begins_inside h hs ht hsExtent htExtent hac hcb
    obtain ⟨hge, -, hle⟩ := extent_le_of_suffix h hs ht hsExtent htExtent hsuffix
    exact .inr (.inr (.inl ⟨hge, hle⟩))
  · have hsuffix := suffix_of_begins_inside h ht hs htExtent hsExtent hca had
    obtain ⟨hge, -, hle⟩ := extent_le_of_suffix h ht hs htExtent hsExtent hsuffix
    exact .inr (.inr (.inr ⟨hge, hle⟩))

/-- The parent of a scope is the innermost scope that surrounds it. -/
theorem parent?_eq_some_iff_innermost (h : LaidOut 1 .root document.lines)
    (hs : s ∈ document.scopes) {p : Scope} :
    s.parent? = some p ↔ p ∈ document.scopes ∧ document.Surrounds p s ∧
      ∀ q ∈ document.scopes, document.Surrounds q s → q = p ∨ document.Surrounds q p := by
  cases s with
  | nil =>
    refine iff_of_false (by simp [Scope.parent?]) ?_
    rintro ⟨hp, hsurrounds, -⟩
    obtain ⟨hsuffix, hne⟩ := (surrounds_iff h hp hs).mp hsurrounds
    exact hne (List.suffix_nil.mp hsuffix)
  | cons first outer =>
    have houter : outer ∈ document.scopes := by
      obtain ⟨opening, hopening, -, hscope⟩ :=
        (mem_scopes_iff.mp hs).resolve_left (List.cons_ne_nil _ _)
      exact mem_scopes_of_suffix h hopening (hscope ▸ List.suffix_cons first outer)
    have hsurrounds : document.Surrounds outer (first :: outer) :=
      (surrounds_iff h houter hs).mpr
        ⟨List.suffix_cons first outer, (List.cons_ne_self first outer).symm⟩
    have hinside {q : Scope} (hq : q ∈ document.scopes)
        (hsurrounds : document.Surrounds q (first :: outer)) : q <:+ outer := by
      obtain ⟨hsuffix, hne⟩ := (surrounds_iff h hq hs).mp hsurrounds
      exact (List.suffix_cons_iff.mp hsuffix).resolve_left hne
    rw [Scope.parent?, Option.some.injEq]
    constructor
    · rintro rfl
      refine ⟨houter, hsurrounds, fun q hq hq' => ?_⟩
      rcases eq_or_ne q outer with heq | hne
      · exact .inl heq
      · exact .inr ((surrounds_iff h hq houter).mpr ⟨hinside hq hq', hne⟩)
    · rintro ⟨hp, hp', hinnermost⟩
      refine (hinnermost outer houter hsurrounds).resolve_right fun hlarger => ?_
      obtain ⟨hsuffix, hne⟩ := (surrounds_iff h houter hp).mp hlarger
      exact hne (hsuffix.eq_of_length_le (hinside hp hp').length_le)

end Document

/-- Around a scope there are as many scopes as assumptions are in force in it. -/
theorem Scope.ncard_around (scope : Scope) :
    {outer | outer ∈ scope.chain ∧ outer ≠ scope}.ncard = scope.length := by
  have himage : {outer | outer ∈ scope.chain ∧ outer ≠ scope} =
      Set.image (outermost · scope) (Finset.range scope.length) := by
    ext outer
    constructor
    · rintro ⟨hmem, hne⟩
      have hsuffix := mem_chain_iff.mp hmem
      have hlt : outer.length < scope.length :=
        Nat.lt_of_le_of_ne hsuffix.length_le fun heq => hne (hsuffix.eq_of_length heq)
      exact ⟨outer.length, by simpa using hlt, outermost_length_of_suffix hsuffix⟩
    · rintro ⟨n, hn, rfl⟩
      have hlt : n < scope.length := by simpa using hn
      refine ⟨mem_chain_iff.mpr (outermost_suffix n scope), fun heq => ?_⟩
      have hlength := length_outermost (Nat.le_of_lt hlt)
      simp only at heq
      rw [heq] at hlength
      omega
  rw [himage, Set.InjOn.ncard_image, Set.ncard_coe_finset, Finset.card_range]
  intro n hn m hm heq
  have hn' : n < scope.length := by simpa using hn
  have hm' : m < scope.length := by simpa using hm
  rw [← length_outermost (Nat.le_of_lt hn'), ← length_outermost (Nat.le_of_lt hm')]
  exact congrArg List.length heq

namespace Document

/-! ### Laminar documents -/

/-- The scopes of a document make up a laminar family of intervals of lines. -/
structure Laminar (document : Document α) : Prop where
  /-- Lines are numbered from 1 in their order. -/
  number : ∀ i line, document.lines[i]? = some line → line.number = i + 1
  /-- Lines lie in scopes of the document, and so do these. -/
  chain_subset : ∀ line ∈ document.lines, ∀ scope ∈ line.scope.chain, scope ∈ document.scopes
  /-- Every assumption opens a scope of its own, which is not the root; there are no
  other scopes. -/
  opened : ∀ scope, scope ∈ document.scopes ∧ scope ≠ .root ↔
    ∃! line, line ∈ document.lines ∧ line.rule = .assumption ∧ line.scope = scope
  /-- The depth of a line is the number of scopes around its own. -/
  depth : ∀ line ∈ document.lines,
    {outer | outer ∈ line.scope.chain ∧ outer ≠ line.scope}.ncard = line.depth
  /-- The interval of a subproof begins with its assumption and ends with a line. -/
  extent : ∀ line ∈ document.lines, line.rule = .assumption →
    ∃ closing ∈ document.lines, document.extent? line.scope = some (line.number, closing.number)
  /-- The lines in a scope are those of its interval. -/
  interval : ∀ scope ∈ document.scopes, ∀ first last, document.extent? scope = some (first, last) →
    ∀ line ∈ document.lines, scope ∈ line.scope.chain ↔ first ≤ line.number ∧ line.number ≤ last
  /-- Intervals do not cross. -/
  nested_or_disjoint : ∀ s ∈ document.scopes, ∀ t ∈ document.scopes, ∀ a b c d,
    document.extent? s = some (a, b) → document.extent? t = some (c, d) →
      b < c ∨ d < a ∨ (a ≤ c ∧ d ≤ b) ∨ (c ≤ a ∧ b ≤ d)
  /-- The parent of a scope is the innermost of the scopes that surround it. -/
  parent : ∀ scope ∈ document.scopes, ∀ outer, scope.parent? = some outer ↔
    outer ∈ document.scopes ∧ document.Surrounds outer scope ∧
      ∀ other ∈ document.scopes, document.Surrounds other scope →
        other = outer ∨ document.Surrounds other outer
  /-- A subproof is found by its interval, and by nothing else. -/
  subproof : ∀ first last scope, document.subproof? first last = some scope ↔
    scope ∈ document.scopes ∧ scope ≠ .root ∧ document.extent? scope = some (first, last)
  /-- There is one subproof for the number of an assumption, -/
  subproof_unique : ∀ line ∈ document.lines, line.rule = .assumption →
    ∃! last, (document.subproof? line.number last).isSome
  /-- and none for any other number. -/
  assumption_of_subproof : ∀ first last, (document.subproof? first last).isSome →
    ∃ line ∈ document.lines, line.number = first ∧ line.rule = .assumption

variable {document : Document α} {line : Line α} {s : Scope}

/-- Each scope but the root has an assumption of its own. -/
theorem existsUnique_opening_iff (h : LaidOut 1 .root document.lines) :
    s ∈ document.scopes ∧ s ≠ .root ↔
      ∃! line, line ∈ document.lines ∧ line.rule = .assumption ∧ line.scope = s := by
  constructor
  · rintro ⟨hs, hne⟩
    obtain ⟨line, hline, hrule, rfl⟩ := (mem_scopes_iff.mp hs).resolve_left hne
    refine ⟨line, ⟨hline, hrule, rfl⟩, ?_⟩
    rintro other ⟨hother, hrule', heq⟩
    -- an assumption stands on top of its scope
    obtain ⟨outer, hscope⟩ := h.exists_scope_eq_cons hline hrule
    obtain ⟨outer', hscope'⟩ := h.exists_scope_eq_cons hother hrule'
    rw [hscope, hscope'] at heq
    exact h.eq_of_number_eq hother hline (List.cons.inj heq).1
  · rintro ⟨line, ⟨hline, hrule, rfl⟩, -⟩
    obtain ⟨outer, hscope⟩ := h.exists_scope_eq_cons hline hrule
    exact ⟨mem_scopes_iff.mpr (.inr ⟨line, hline, hrule, rfl⟩), hscope ▸ List.cons_ne_nil _ _⟩

/-- A subproof is found by the interval of its scope. -/
theorem subproof?_eq_some_iff_extent? (h : LaidOut 1 .root document.lines) {first last : Nat} :
    document.subproof? first last = some s ↔
      s ∈ document.scopes ∧ s ≠ .root ∧ document.extent? s = some (first, last) := by
  rw [subproof?_eq_some_iff h]
  constructor
  · rintro ⟨opening, hopening, rfl, hrule, rfl, hlast⟩
    obtain ⟨outer, hscope⟩ := h.exists_scope_eq_cons hopening hrule
    exact ⟨mem_scopes_of_suffix h hopening List.suffix_rfl, hscope ▸ List.cons_ne_nil _ _,
      (extent?_eq_some_iff h hopening hrule).mpr ⟨rfl, hlast⟩⟩
  · rintro ⟨hs, hne, hextent⟩
    obtain ⟨opening, hopening, hrule, rfl⟩ := (mem_scopes_iff.mp hs).resolve_left hne
    obtain ⟨rfl, hlast⟩ := (extent?_eq_some_iff h hopening hrule).mp hextent
    exact ⟨opening, hopening, rfl, hrule, rfl, hlast⟩

/-- The subproof of an assumption has one last line. -/
theorem existsUnique_subproof? (h : LaidOut 1 .root document.lines) (hline : line ∈ document.lines)
    (hrule : line.rule = .assumption) : ∃! last, (document.subproof? line.number last).isSome := by
  obtain ⟨outer, hscope⟩ := h.exists_scope_eq_cons hline hrule
  obtain ⟨last, hlast⟩ := exists_lastIn? hline (hscope ▸ List.mem_cons_self)
  refine ⟨last, Option.isSome_iff_exists.mpr ⟨line.scope, ?_⟩, fun last' hsome => ?_⟩
  · exact (subproof?_eq_some_iff h).mpr ⟨line, hline, rfl, hrule, rfl, hlast⟩
  · obtain ⟨_, hfound⟩ := Option.isSome_iff_exists.mp hsome
    obtain ⟨-, -, -, -, -, hlast'⟩ := (subproof?_eq_some_iff h).mp hfound
    exact Option.some.inj (hlast'.symm.trans hlast)

/-- **Laid out lines are laminar.** -/
theorem laminar (h : LaidOut 1 .root document.lines) : document.Laminar where
  number i line hi := by rw [h.number_of_getElem? hi, Nat.add_comm]
  chain_subset line hline scope hscope :=
    mem_scopes_of_suffix h hline (Scope.mem_chain_iff.mp hscope)
  opened scope := existsUnique_opening_iff h
  depth line hline := by rw [Scope.ncard_around, h.length_scope hline]
  extent line hline hrule := by
    obtain ⟨closing, hclosing, -, hextent⟩ := exists_extent? h hline hrule
    exact ⟨closing, hclosing, hextent⟩
  interval scope hscope first last hextent line hline := by
    rw [Scope.mem_chain_iff, mem_interval_iff h hscope hextent hline]
  nested_or_disjoint s hs t ht a b c d := Document.nested_or_disjoint h hs ht
  parent scope hscope outer := parent?_eq_some_iff_innermost h hscope
  subproof first last scope := subproof?_eq_some_iff_extent? h
  subproof_unique line := existsUnique_subproof? h
  assumption_of_subproof first last hsome := by
    obtain ⟨_, hfound⟩ := Option.isSome_iff_exists.mp hsome
    obtain ⟨line, hline, hnumber, hrule, -⟩ := (subproof?_eq_some_iff h).mp hfound
    exact ⟨line, hline, hnumber, hrule⟩

/-- **Documents are the proofs whose depths nest, and their scopes are laminar.** Building succeeds
exactly if every line may follow the line before it, beginning from depth 0; otherwise it reports
the first line that may not, with what is wrong there. The lines of a document are the drafts it is
built from, each in its place among scopes that form a laminar family. -/
theorem build_laminar (drafts : List (Draft α)) :
    ((∃ document, build drafts = .ok document) ↔ WellNested 0 drafts) ∧
    (∀ error, build drafts = .error error ↔ FirstFault 1 0 drafts error) ∧
    ∀ document, build drafts = .ok document →
      document.lines.map Line.toDraft = drafts ∧ document.Laminar := by
  refine ⟨?_, fun error => ?_, fun document hbuild => ?_⟩
  · have hlaid : (∃ lines, layOut 1 .root drafts = .ok lines) ↔ WellNested 0 drafts :=
      exists_layOut_iff
    rw [← hlaid, build]
    cases layOut 1 .root drafts <;> simp [Except.map]
  · have hfault : layOut 1 .root drafts = .error error ↔ FirstFault 1 0 drafts error :=
      layOut_eq_error_iff
    rw [← hfault, build]
    cases layOut 1 .root drafts <;> simp [Except.map]
  · obtain ⟨hlaid, hdrafts⟩ := build_eq_ok_iff.mp hbuild
    exact ⟨hdrafts, laminar hlaid⟩

/-- Two subproofs in a third, and one behind it. -/
def siblings : List (Draft String) :=
  [⟨"P", .premise, [], 0⟩, ⟨"A", .assumption, [], 1⟩, ⟨"B", .assumption, [], 2⟩,
    ⟨"B", .reiteration, [], 2⟩, ⟨"C", .assumption, [], 2⟩, ⟨"A", .reiteration, [], 1⟩,
    ⟨"D", .assumption, [], 1⟩]

/-- The subproofs of `siblings` are laminar; with a line too deep at the end they are no proof. -/
theorem siblings_laminar :
    (∃ document, build siblings = .ok document ∧ document.Laminar ∧
      document.extent? [2] = some (2, 6) ∧ document.extent? [3, 2] = some (3, 4) ∧
      document.extent? [5, 2] = some (5, 5) ∧ document.extent? [7] = some (7, 7)) ∧
    build (siblings ++ [⟨"E", .assumption, [], 3⟩]) = .error (.depthJump 8 1 3) := by
  refine ⟨⟨_, rfl, ((build_laminar siblings).2.2 _ rfl).2, rfl, rfl, rfl, rfl⟩, ?_⟩
  refine ((build_laminar _).2.1 _).mpr ⟨siblings, _, [], rfl, ?_, .depthJump rfl (by decide)⟩
  exact (build_laminar siblings).1.mp ⟨_, rfl⟩

end Document

end NaturalDeduction
