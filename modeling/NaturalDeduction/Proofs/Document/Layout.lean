import NaturalDeduction.Proof.Document

/-!
# What laying out guarantees

`Document.layOut` either fails or numbers the lines in order and gives each of them a scope.
`LaidOut` says the same of a list of lines: it is what is known of the lines of a document, wherever
they come from, and unlike the function it can be asked of a part of a proof.

## Why scopes stay closed

The scope of a line is a part of the scope before it, with the number of the line on top if the
line is an assumption. So the numbers in a scope are either numbers from before or numbers of later
lines (`LaidOut.mem_scope`). A subproof that is not open at some line has an older number and
cannot come back.

## Main definitions

* `LaidOut`: the lines continue a proof
* `scopeAfter`: the scope that the next line starts from

## Main results

* `Document.build_eq_ok_iff`: documents are the lists of lines that are laid out
* `laidOut_append`: a proof can be cut anywhere
* `LaidOut.mem_scope`, `LaidOut.notMem_scope_of_le`: where the numbers in a scope come from
-/

namespace NaturalDeduction

variable {α : Type}

/-! ### The outer part of a scope -/

namespace Scope

theorem outermost_suffix (n : Nat) (stack : List α) : outermost n stack <:+ stack :=
  List.drop_suffix _ _

theorem length_outermost {n : Nat} {stack : List α} (h : n ≤ stack.length) :
    (outermost n stack).length = n := by
  rw [outermost, List.length_drop]
  omega

/-- Cutting a scope back to the length of a scope around it gives that scope. -/
theorem outermost_length_of_suffix {outer stack : List α} (h : outer <:+ stack) :
    outermost outer.length stack = outer :=
  (List.suffix_iff_eq_drop.mp h).symm

end Scope

/-! ### Placing one line -/

/-- An assumption may go one level deeper and opens a scope; any other line stays in a scope that is
already open. -/
theorem Draft.place_eq_ok_iff {draft : Draft α} {number : Nat} {current scope : Scope} :
    draft.place number current = .ok scope ↔
      (draft.rule = .assumption ∧ ∃ d, draft.depth = d + 1 ∧ d ≤ current.length ∧
        scope = number :: Scope.outermost d current) ∨
      (draft.rule ≠ .assumption ∧ draft.depth ≤ current.length ∧
        scope = Scope.outermost draft.depth current) := by
  rw [Draft.place]
  by_cases hrule : draft.rule = .assumption
  · cases hd : draft.depth with
    | zero => simp [hrule]
    | succ d =>
      by_cases hlt : current.length < d
      · simp [hrule, hlt, Nat.not_le.mpr hlt]
      · simp [hrule, hlt, Nat.not_lt.mp hlt, eq_comm]
  · by_cases hlt : current.length < draft.depth
    · simp [hrule, hlt, Nat.not_le.mpr hlt]
    · simp [hrule, hlt, Nat.not_lt.mp hlt, eq_comm]

/-- In a scope that is open a line can be placed by its depth. -/
theorem Draft.place_of_suffix {draft : Draft α} {number : Nat} {current scope : Scope}
    (hrule : draft.rule ≠ .assumption) (hdepth : draft.depth = scope.length)
    (hscope : scope <:+ current) : draft.place number current = .ok scope := by
  refine place_eq_ok_iff.mpr (.inr ⟨hrule, ?_, ?_⟩)
  · rw [hdepth]
    exact hscope.length_le
  · rw [hdepth, Scope.outermost_length_of_suffix hscope]

/-- In a scope that is open a subproof can be opened. -/
theorem Draft.place_assumption_of_suffix {draft : Draft α} {number : Nat} {current scope : Scope}
    (hrule : draft.rule = .assumption) (hdepth : draft.depth = scope.length + 1)
    (hscope : scope <:+ current) : draft.place number current = .ok (number :: scope) := by
  refine place_eq_ok_iff.mpr (.inl ⟨hrule, scope.length, hdepth, hscope.length_le, ?_⟩)
  rw [Scope.outermost_length_of_suffix hscope]

/-- The depth of a line is the number of subproofs it lies in. -/
theorem Draft.length_of_place {draft : Draft α} {number : Nat} {current scope : Scope}
    (h : draft.place number current = .ok scope) : scope.length = draft.depth := by
  rcases place_eq_ok_iff.mp h with ⟨-, d, hd, hle, rfl⟩ | ⟨-, hle, rfl⟩
  · rw [List.length_cons, Scope.length_outermost hle, hd]
  · exact Scope.length_outermost hle

theorem Draft.mem_of_place {draft : Draft α} {number : Nat} {current scope : Scope}
    (h : draft.place number current = .ok scope) {f : Nat} (hf : f ∈ scope) :
    f = number ∨ f ∈ current := by
  rcases place_eq_ok_iff.mp h with ⟨-, d, -, -, rfl⟩ | ⟨-, -, rfl⟩
  · exact (List.mem_cons.mp hf).imp id (Scope.outermost_suffix d current).mem
  · exact .inr ((Scope.outermost_suffix _ current).mem hf)

/-! ### Laying out all lines -/

/-- The lines continue a proof whose next number is `number` and whose last line lies
in `current`. -/
def LaidOut (number : Nat) (current : Scope) : List (Line α) → Prop
  | [] => True
  | line :: lines =>
    line.number = number ∧ line.toDraft.place number current = .ok line.scope ∧
      LaidOut (number + 1) line.scope lines

/-- The scope that the next line starts from, after lines that continue a proof in `current`. -/
def scopeAfter (current : Scope) : List (Line α) → Scope
  | [] => current
  | line :: lines => scopeAfter line.scope lines

theorem Document.layOut_cons_eq_ok_iff {draft : Draft α} {drafts : List (Draft α)} {number : Nat}
    {current : Scope} {lines : List (Line α)} :
    Document.layOut number current (draft :: drafts) = .ok lines ↔
      ∃ scope rest, draft.place number current = .ok scope ∧
        Document.layOut (number + 1) scope drafts = .ok rest ∧
        lines = ⟨draft, number, scope⟩ :: rest := by
  rw [Document.layOut]
  cases draft.place number current with
  | error => simp
  | ok scope =>
    cases hrest : Document.layOut (number + 1) scope drafts with
    | error => simp [hrest]
    | ok rest => simp [hrest, eq_comm]

theorem Document.layOut_eq_ok_iff {drafts : List (Draft α)} {number : Nat} {current : Scope}
    {lines : List (Line α)} :
    Document.layOut number current drafts = .ok lines ↔
      LaidOut number current lines ∧ lines.map Line.toDraft = drafts := by
  induction drafts generalizing number current lines with
  | nil => cases lines <;> simp [Document.layOut, LaidOut]
  | cons draft drafts ih =>
    rw [Document.layOut_cons_eq_ok_iff]
    constructor
    · rintro ⟨scope, rest, hplace, hrest, rfl⟩
      obtain ⟨hlaid, rfl⟩ := ih.mp hrest
      exact ⟨⟨rfl, hplace, hlaid⟩, rfl⟩
    · rintro ⟨hlaid, hdrafts⟩
      cases lines with
      | nil => cases hdrafts
      | cons line rest =>
        obtain ⟨rfl, hplace, hrest⟩ := hlaid
        obtain ⟨rfl, rfl⟩ := List.cons.inj hdrafts
        exact ⟨line.scope, rest, hplace, ih.mpr ⟨hrest, rfl⟩, rfl⟩

/-- The documents are the proofs whose lines are laid out from the top level on. -/
theorem Document.build_eq_ok_iff {drafts : List (Draft α)} {document : Document α} :
    Document.build drafts = .ok document ↔
      LaidOut 1 .root document.lines ∧ document.lines.map Line.toDraft = drafts := by
  rw [← layOut_eq_ok_iff, Document.build]
  cases Document.layOut 1 .root drafts with
  | error => simp [Except.map]
  | ok lines =>
    simp only [Except.map, Except.ok.injEq]
    exact ⟨fun h => h ▸ rfl, fun h => h ▸ rfl⟩

/-- What comes behind a line continues the proof from that line's scope. -/
theorem laidOut_append {number : Nat} {current : Scope} {lines others : List (Line α)} :
    LaidOut number current (lines ++ others) ↔
      LaidOut number current lines ∧
        LaidOut (number + lines.length) (scopeAfter current lines) others := by
  induction lines generalizing number current with
  | nil => simp [LaidOut, scopeAfter]
  | cons line lines ih =>
    rw [List.cons_append, LaidOut, LaidOut, scopeAfter, ih, List.length_cons, and_assoc, and_assoc,
      Nat.add_right_comm, Nat.add_assoc]

/-- Drafts behind others only add lines behind theirs. -/
theorem Document.exists_append_of_build {drafts others : List (Draft α)}
    {document extended : Document α} (hbuild : Document.build drafts = .ok document)
    (hextended : Document.build (drafts ++ others) = .ok extended) :
    ∃ lines, extended = ⟨document.lines ++ lines⟩ := by
  obtain ⟨all⟩ := extended
  obtain ⟨hlaid, hdrafts⟩ := build_eq_ok_iff.mp hextended
  obtain ⟨lines, behind, rfl, hmap, -⟩ := List.map_eq_append_iff.mp hdrafts
  -- the same drafts cannot be laid out in two ways
  have hbuild' : Document.build drafts = .ok ⟨lines⟩ :=
    build_eq_ok_iff.mpr ⟨(laidOut_append.mp hlaid).1, hmap⟩
  obtain rfl : document = ⟨lines⟩ := Except.ok.inj (hbuild.symm.trans hbuild')
  exact ⟨behind, rfl⟩

theorem scopeAfter_append (current : Scope) (lines others : List (Line α)) :
    scopeAfter current (lines ++ others) = scopeAfter (scopeAfter current lines) others := by
  induction lines generalizing current with
  | nil => rfl
  | cons line lines ih => exact ih line.scope

@[simp] theorem scopeAfter_concat (current : Scope) (lines : List (Line α)) (line : Line α) :
    scopeAfter current (lines ++ [line]) = line.scope :=
  scopeAfter_append current lines [line]

/-- One more line. -/
theorem laidOut_concat {number : Nat} {current : Scope} {lines : List (Line α)} {line : Line α} :
    LaidOut number current (lines ++ [line]) ↔
      LaidOut number current lines ∧ line.number = number + lines.length ∧
        line.toDraft.place line.number (scopeAfter current lines) = .ok line.scope := by
  rw [laidOut_append, LaidOut, LaidOut, and_true]
  exact and_congr_right fun _ => and_congr_right fun hnumber => by rw [hnumber]

namespace LaidOut

variable {number : Nat} {current : Scope} {lines before after : List (Line α)} {line other : Line α}

/-- A line in the middle of a proof has its number and its scope from the lines before it. -/
theorem place_of_eq (h : LaidOut number current lines) (hl : lines = before ++ line :: after) :
    line.number = number + before.length ∧
      line.toDraft.place line.number (scopeAfter current before) = .ok line.scope := by
  rw [hl, laidOut_append, LaidOut] at h
  obtain ⟨-, hnumber, hplace, -⟩ := h
  exact ⟨hnumber, by rw [hnumber]; exact hplace⟩

theorem number_of_getElem? (h : LaidOut number current lines) {i : Nat}
    (hi : lines[i]? = some line) : line.number = number + i := by
  induction lines generalizing number current i with
  | nil => simp at hi
  | cons first lines ih =>
    obtain ⟨hfirst, -, hrest⟩ := h
    cases i with
    | zero =>
      obtain rfl : first = line := by simpa using hi
      exact hfirst
    | succ i =>
      rw [ih hrest (by simpa using hi)]
      omega

/-- The numbers are consecutive. -/
theorem exists_number_eq (h : LaidOut number current lines) {n : Nat} (hge : number ≤ n)
    (hlt : n < number + lines.length) : ∃ line ∈ lines, line.number = n := by
  have hi : n - number < lines.length := by omega
  refine ⟨lines[n - number], List.getElem_mem hi, ?_⟩
  rw [h.number_of_getElem? (List.getElem?_eq_getElem hi)]
  omega

theorem number_le (h : LaidOut number current lines) (hline : line ∈ lines) :
    number ≤ line.number := by
  obtain ⟨i, hi⟩ := List.mem_iff_getElem?.mp hline
  rw [h.number_of_getElem? hi]
  exact Nat.le_add_right number i

theorem number_lt (h : LaidOut number current lines) (hline : line ∈ lines) :
    line.number < number + lines.length := by
  obtain ⟨i, hi⟩ := List.mem_iff_getElem?.mp hline
  rw [h.number_of_getElem? hi]
  exact Nat.add_lt_add_left (List.getElem?_eq_some_iff.mp hi).1 number

/-- Lines are told apart by their numbers. -/
theorem eq_of_number_eq (h : LaidOut number current lines) (hline : line ∈ lines)
    (hother : other ∈ lines) (heq : line.number = other.number) : line = other := by
  obtain ⟨i, hi⟩ := List.mem_iff_getElem?.mp hline
  obtain ⟨j, hj⟩ := List.mem_iff_getElem?.mp hother
  rw [h.number_of_getElem? hi, h.number_of_getElem? hj, Nat.add_left_cancel_iff] at heq
  exact Option.some.inj (hi.symm.trans ((congrArg (lines[·]?) heq).trans hj))

/-- The lines before a line are those with a smaller number. -/
theorem mem_before_iff (h : LaidOut number current lines) (hl : lines = before ++ line :: after)
    (hother : other ∈ lines) : other ∈ before ↔ other.number < line.number := by
  have hnumber := (h.place_of_eq hl).1
  rw [hl, laidOut_append] at h
  constructor
  · intro hmem
    rw [hnumber]
    exact h.1.number_lt hmem
  · intro hlt
    rw [hl] at hother
    refine (List.mem_append.mp hother).resolve_right fun hmem => ?_
    have := h.2.number_le hmem
    omega

/-- The lines behind a line are those with a greater number. -/
theorem mem_after_iff (h : LaidOut number current lines) (hl : lines = before ++ line :: after)
    (hother : other ∈ lines) : other ∈ after ↔ line.number < other.number := by
  constructor
  · intro hmem
    rw [hl, laidOut_append] at h
    have := h.2.2.2.number_le hmem
    have := h.2.1
    omega
  · intro hlt
    have hbefore : other ∉ before := fun hmem => by
      have := (h.mem_before_iff hl hother).mp hmem
      omega
    rw [hl] at hother
    rcases List.mem_cons.mp ((List.mem_append.mp hother).resolve_left hbefore) with rfl | hmem
    · exact absurd hlt (Nat.lt_irrefl _)
    · exact hmem

/-- Every number in a scope is from before the lines, or is the number of one of them. -/
theorem mem_scope (h : LaidOut number current lines) (hline : line ∈ lines) {f : Nat}
    (hf : f ∈ line.scope) : f ∈ current ∨ number ≤ f ∧ f ≤ line.number := by
  induction lines generalizing number current with
  | nil => simp at hline
  | cons first lines ih =>
    obtain ⟨hnumber, hplace, hrest⟩ := h
    rcases List.mem_cons.mp hline with rfl | hline
    · rcases Draft.mem_of_place hplace hf with rfl | hf
      · exact .inr ⟨Nat.le_refl _, Nat.le_of_eq hnumber.symm⟩
      · exact .inl hf
    · rcases ih hrest hline with hf | ⟨hle, hge⟩
      · rcases Draft.mem_of_place hplace hf with rfl | hf
        · have := hrest.number_le hline
          exact .inr ⟨Nat.le_refl _, by omega⟩
        · exact .inl hf
      · exact .inr ⟨Nat.le_of_succ_le hle, hge⟩

/-- In a whole proof the numbers in a scope are those of lines up to it. -/
theorem le_number_of_mem_scope (h : LaidOut number .root lines) (hline : line ∈ lines) {f : Nat}
    (hf : f ∈ line.scope) : f ≤ line.number :=
  ((h.mem_scope hline hf).resolve_left List.not_mem_nil).2

theorem scopeAfter_lt (h : LaidOut number current lines) (hcurrent : ∀ f ∈ current, f < number) :
    ∀ f ∈ scopeAfter current lines, f < number + lines.length := by
  induction lines generalizing number current with
  | nil => exact hcurrent
  | cons line lines ih =>
    obtain ⟨-, hplace, hrest⟩ := h
    have hscope : ∀ f ∈ line.scope, f < number + 1 := by
      intro f hf
      rcases Draft.mem_of_place hplace hf with rfl | hf
      · exact Nat.lt_succ_self _
      · exact Nat.lt_succ_of_lt (hcurrent f hf)
    intro f hf
    have := ih hrest hscope f hf
    rw [List.length_cons]
    omega

/-- The depth of a line is the length of its scope. -/
theorem length_scope (h : LaidOut number current lines) (hline : line ∈ lines) :
    line.scope.length = line.depth := by
  obtain ⟨before, after, hl⟩ := List.append_of_mem hline
  exact Draft.length_of_place (h.place_of_eq hl).2

/-- An assumption stands on top of its own scope. -/
theorem exists_scope_eq_cons (h : LaidOut number current lines) (hline : line ∈ lines)
    (hrule : line.rule = .assumption) : ∃ outer, line.scope = line.number :: outer := by
  obtain ⟨before, after, hl⟩ := List.append_of_mem hline
  rcases Draft.place_eq_ok_iff.mp (h.place_of_eq hl).2 with ⟨-, d, -, -, hscope⟩ | ⟨hne, -⟩
  · exact ⟨_, hscope⟩
  · exact absurd hrule hne

/-- **A closed subproof stays closed.** An assumption that is not in force at a line behind it is
not in force at any later line. -/
theorem notMem_scope_of_le (h : LaidOut number current lines) (hline : line ∈ lines)
    (hother : other ∈ lines) {f : Nat} (hf : f ≤ line.number) (hnot : f ∉ line.scope)
    (hle : line.number ≤ other.number) : f ∉ other.scope := by
  obtain ⟨before, after, rfl⟩ := List.append_of_mem hline
  have hall := h
  rw [laidOut_append, LaidOut] at h
  obtain ⟨hbefore, hnumber, -, hafter⟩ := h
  rcases List.mem_append.mp hother with hother | hother
  · have := hbefore.number_lt hother
    omega
  · rcases List.mem_cons.mp hother with rfl | hother
    · exact hnot
    · intro hmem
      rcases hafter.mem_scope hother hmem with hmem | ⟨hge, -⟩
      · exact hnot hmem
      · omega

end LaidOut

/-! ### Looking lines up -/

/-- A search from the end finds the member that passes and that none behind it does. -/
theorem findRev?_eq_some_iff {p : α → Bool} {l : List α} {a : α} :
    l.findRev? p = some a ↔ ∃ before after, l = before ++ a :: after ∧ p a = true ∧
      ∀ b ∈ after, p b = false := by
  rw [List.findRev?_eq_find?_reverse, List.find?_eq_some_iff_append]
  constructor
  · rintro ⟨ha, after, before, hl, hafter⟩
    refine ⟨before.reverse, after.reverse, ?_, ha, fun b hb => ?_⟩
    · rw [← List.reverse_inj, hl]
      simp
    · simpa using hafter b (List.mem_reverse.mp hb)
  · rintro ⟨before, after, rfl, ha, hafter⟩
    refine ⟨ha, after.reverse, before.reverse, by simp, fun b hb => ?_⟩
    simpa using hafter b (List.mem_reverse.mp hb)

namespace Document

variable {document : Document α} {line : Line α} {n : Nat}

/-- The line stands outside every subproof, and no line behind it does. -/
def IsConclusion (document : Document α) (line : Line α) : Prop :=
  ∃ before after, document.lines = before ++ line :: after ∧ line.depth = 0 ∧
    ∀ other ∈ after, other.depth ≠ 0

theorem conclusion?_eq_some_iff :
    document.conclusion? = some line ↔ document.IsConclusion line := by
  rw [conclusion?, findRev?_eq_some_iff]
  simp [IsConclusion]

/-- The line with a number is the line that has it. -/
theorem line?_eq_some_iff (h : LaidOut 1 .root document.lines) :
    document.line? n = some line ↔ line ∈ document.lines ∧ line.number = n := by
  constructor
  · intro hn
    cases n with
    | zero => simp [line?] at hn
    | succ i =>
      have hi : document.lines[i]? = some line := hn
      exact ⟨List.mem_of_getElem? hi, by rw [h.number_of_getElem? hi, Nat.add_comm]⟩
  · rintro ⟨hline, rfl⟩
    obtain ⟨i, hi⟩ := List.mem_iff_getElem?.mp hline
    rw [h.number_of_getElem? hi, Nat.add_comm]
    exact hi

/-- The last line in the subproof of an assumption is the line in it behind which no
other lies in it. -/
theorem lastIn?_eq_some_iff (h : LaidOut 1 .root document.lines) {first last : Nat} :
    document.lastIn? first = some last ↔
      ∃ closing ∈ document.lines, closing.number = last ∧ first ∈ closing.scope ∧
        ∀ line ∈ document.lines, last < line.number → first ∉ line.scope := by
  have hfind (closing : Line α) :
      document.lines.findRev? (first ∈ ·.scope) = some closing ↔
        closing ∈ document.lines ∧ first ∈ closing.scope ∧
          ∀ line ∈ document.lines, closing.number < line.number → first ∉ line.scope := by
    rw [findRev?_eq_some_iff]
    constructor
    · rintro ⟨before, after, hl, hmem, hafter⟩
      refine ⟨by simp [hl], by simpa using hmem, fun line hline hlt => ?_⟩
      simpa using hafter line ((h.mem_after_iff hl hline).mpr hlt)
    · rintro ⟨hclosing, hmem, hlast⟩
      obtain ⟨before, after, hl⟩ := List.append_of_mem hclosing
      refine ⟨before, after, hl, by simpa using hmem, fun line hbehind => ?_⟩
      have hline : line ∈ document.lines := by simp [hl, hbehind]
      simpa using hlast line hline ((h.mem_after_iff hl hline).mp hbehind)
  rw [lastIn?, Option.map_eq_some_iff]
  constructor
  · rintro ⟨closing, hclosing, rfl⟩
    obtain ⟨hmem, hfirst, hlast⟩ := (hfind closing).mp hclosing
    exact ⟨closing, hmem, rfl, hfirst, hlast⟩
  · rintro ⟨closing, hmem, rfl, hfirst, hlast⟩
    exact ⟨closing, (hfind closing).mpr ⟨hmem, hfirst, hlast⟩, rfl⟩

/-- A subproof is found by the number of its assumption and that of the last line in it. -/
theorem subproof?_eq_some_iff (h : LaidOut 1 .root document.lines) {first last : Nat}
    {scope : Scope} :
    document.subproof? first last = some scope ↔
      ∃ opening ∈ document.lines, opening.number = first ∧ opening.rule = .assumption ∧
        opening.scope = scope ∧ document.lastIn? first = some last := by
  rw [subproof?]
  cases hfirst : document.line? first with
  | none =>
    simp only [reduceCtorEq, false_iff]
    rintro ⟨opening, hmem, hnumber, -⟩
    rw [(line?_eq_some_iff h).mpr ⟨hmem, hnumber⟩] at hfirst
    cases hfirst
  | some opening =>
    obtain ⟨hmem, hnumber⟩ := (line?_eq_some_iff h).mp hfirst
    simp only [Option.ite_none_right_eq_some, Option.some.injEq]
    constructor
    · rintro ⟨⟨hrule, hlast⟩, hscope⟩
      exact ⟨opening, hmem, hnumber, hrule, hscope, hlast⟩
    · rintro ⟨other, hother, hothernumber, hrule, hscope, hlast⟩
      obtain rfl := h.eq_of_number_eq hmem hother (hnumber.trans hothernumber.symm)
      exact ⟨⟨hrule, hlast⟩, hscope⟩

end Document

end NaturalDeduction
