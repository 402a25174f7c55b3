import Mathlib.Control.Monad.Basic
import NaturalDeduction.Proofs.Forest.Interning

/-!
# Forests in use

A forest is grown call by call. A call asks for the formula with a given outermost layer, whose
parts are named by handles that earlier calls have returned, or for the formula that a text writes.
The caller keeps the handles and compares them in place of formulas, so a forest has to be in order
at every moment: also after a text that turned out not to be a formula, which leaves behind what
was finished of it.

`Session.intact` says that it is, after any calls. No call needs to succeed for that, and nothing is
assumed of a forest but that it started empty.

## Implementation notes

That handles are returned before they are used is what a caller owes: `Session.Admits`. It is asked
of the calls one after the other, since it takes a run to know which handles have been returned.

The invariant is `Forest.WellFormed` together with one fact that only a session can state, that the
handles in the caller's hands are handles of the forest.

## Main definitions

* `Forest.Call`, `Forest.Session`: a request to a forest; a forest in use
* `Forest.Session.Admits`: every call uses handles that earlier ones have returned
* `Forest.Session.Sound`: the invariant

## Main results

* `Forest.Session.Sound.call`, `Forest.Session.Sound.run`: one call and all calls keep it
* `Forest.Session.intact`: what a caller can rely on
-/

namespace NaturalDeduction

namespace Forest

variable {forest forest' : Forest} {h : Handle} {calculus : Calculus} {text : String}

/-! ### Handles of a forest -/

/-- A handle that has been given out stays one. -/
theorem Extends.lt_size (hext : forest.Extends forest') (hlt : h < forest.nodes.size) :
    h < forest'.nodes.size :=
  lt_size_of_node? (hext h _ (Array.getElem?_eq_getElem hlt))

theorem node?_isSome_iff : (forest.node? h).isSome = true ↔ h < forest.nodes.size := by
  simp [node?]

/-- The handle that comes out of reading a text is one of the forest that has grown by it. -/
theorem WellFormed.lt_size_of_parse (wf : forest.WellFormed)
    (hparse : (forest.parse calculus text).1 = .ok h) :
    h < (forest.parse calculus text).2.nodes.size := by
  obtain ⟨φ, -, hintern⟩ := parse_eq_ok_iff.mp (Prod.ext hparse rfl)
  have hstored := wf.stored_intern φ
  rw [hintern] at hstored
  exact hstored.wellFormed.lt_size hstored.formula?_eq

/-- One handle is a child of another. -/
def IsChild (forest : Forest) (child h : Handle) : Prop :=
  ∃ node, forest.node? h = some node ∧ child ∈ node.children

/-- Going from nodes to their children comes to an end, since the children are older. -/
theorem WellFormed.wellFounded_isChild (wf : forest.WellFormed) : WellFounded forest.IsChild := by
  have hlt : Subrelation forest.IsChild (· < ·) := by
    rintro child h ⟨node, hnode, hchild⟩
    exact wf.older hnode child hchild
  exact hlt.wf Nat.lt_wfRel.wf

/-! ### Sessions -/

/-- A request for the handle of a formula. -/
inductive Call where
  /-- The formula with this outermost layer. -/
  | insert (node : Node)
  /-- The formula that a text writes. -/
  | parse (calculus : Calculus) (text : String)
deriving DecidableEq, Repr

/-- The handle that a call returns, if it returns one, and the forest behind the call. -/
def Call.perform (forest : Forest) : Call → Option Handle × Forest
  | insert node => ((forest.insert node).1, (forest.insert node).2)
  | parse calculus text => ((forest.parse calculus text).1.toOption, (forest.parse calculus text).2)

/-- A forest in use. -/
structure Session where
  forest : Forest
  /-- The handles that calls have returned, oldest first. -/
  returned : List Handle

namespace Session

/-- Before the first call. -/
def start : Session := ⟨.empty, []⟩

/-- The session after one more call. -/
def call (session : Session) (call : Call) : Session :=
  ⟨(call.perform session.forest).2, session.returned ++ (call.perform session.forest).1.toList⟩

/-- The session after further calls. -/
def run (session : Session) (calls : List Call) : Session := calls.foldl Session.call session

theorem run_append (session : Session) (calls others : List Call) :
    session.run (calls ++ others) = (session.run calls).run others :=
  List.foldl_append

/-- The parts of the formula that is asked for have been returned by earlier calls. -/
def Knows (session : Session) : Call → Prop
  | .insert node => ∀ child ∈ node.children, child ∈ session.returned
  | .parse .. => True

/-- Every one of the calls uses what the calls before it have returned. -/
def Admits (session : Session) : List Call → Prop
  | [] => True
  | call :: calls => session.Knows call ∧ (session.call call).Admits calls

theorem admits_append {session : Session} {calls others : List Call} :
    session.Admits (calls ++ others) ↔
      session.Admits calls ∧ (session.run calls).Admits others := by
  induction calls generalizing session with
  | nil => simp [Admits, run]
  | cons call calls ih =>
    rw [List.cons_append, Admits, Admits, ih, and_assoc]
    rfl

/-- The forest is in order, and the caller holds handles of it. -/
structure Sound (session : Session) : Prop where
  wellFormed : session.forest.WellFormed
  lt_size : ∀ h ∈ session.returned, h < session.forest.nodes.size

theorem sound_start : start.Sound := ⟨.empty, nofun⟩

variable {session : Session}

/-- What a call does to a forest, and which handle it returns. -/
theorem Sound.perform (hsound : session.Sound) {call : Call} (hknows : session.Knows call) :
    (call.perform session.forest).2.WellFormed ∧
      session.forest.Extends (call.perform session.forest).2 ∧
      ∀ h ∈ (call.perform session.forest).1, h < (call.perform session.forest).2.nodes.size := by
  have wf := hsound.wellFormed
  cases call with
  | insert node =>
    refine ⟨wf.insert fun child hchild => hsound.lt_size child (hknows child hchild),
      extends_insert _ node, ?_⟩
    rintro h ⟨⟩
    exact lt_size_of_node? (wf.node?_insert node)
  | parse calculus text =>
    obtain ⟨hwf, hext⟩ := wf.parse calculus text
    refine ⟨hwf, hext, fun h hh => ?_⟩
    -- only a text that is a formula returns a handle
    have hok : (session.forest.parse calculus text).1 = .ok h := by
      change (session.forest.parse calculus text).1.toOption = some h at hh
      cases hparse : (session.forest.parse calculus text).1 with
      | error error => simp [hparse, Except.toOption] at hh
      | ok h' =>
        rw [hparse] at hh
        exact congrArg Except.ok (Option.some.inj hh)
    exact wf.lt_size_of_parse hok

/-- **One call** leaves a sound session, and all nodes where they were. -/
theorem Sound.call (hsound : session.Sound) {call : Call} (hknows : session.Knows call) :
    (session.call call).Sound ∧ session.forest.Extends (session.call call).forest := by
  obtain ⟨hwf, hext, hnew⟩ := hsound.perform hknows
  refine ⟨⟨hwf, fun h hh => ?_⟩, hext⟩
  rcases List.mem_append.mp hh with hh | hh
  · exact hext.lt_size (hsound.lt_size h hh)
  · exact hnew h (Option.mem_toList.mp hh)

/-- **Any calls** do. -/
theorem Sound.run (hsound : session.Sound) {calls : List Call} (hadmits : session.Admits calls) :
    (session.run calls).Sound ∧ session.forest.Extends (session.run calls).forest := by
  induction calls generalizing session with
  | nil => exact ⟨hsound, .refl _⟩
  | cons call calls ih =>
    obtain ⟨hknows, hadmits⟩ := hadmits
    obtain ⟨hcall, hext⟩ := hsound.call hknows
    obtain ⟨hrun, hext'⟩ := ih hcall hadmits
    exact ⟨hrun, hext.trans hext'⟩

/-- **A forest in use is in order.** After any calls, some of which may have been texts that are not
formulas: the table of handles is the inverse of the list of nodes; the children of a node are
stored, and older than the node; every handle of the forest stands for a formula, and two of them
for the same formula only if they are equal; and what earlier calls have returned stands for what it
stood for then. -/
theorem intact {calls others : List Call} (hadmits : start.Admits (calls ++ others)) :
    let earlier := start.run calls
    let forest := (earlier.run others).forest
    (∀ node h, forest.handles[node]? = some h ↔ forest.node? h = some node) ∧
      ((∀ child h, forest.IsChild child h → child < h ∧ (forest.node? child).isSome = true) ∧
        WellFounded forest.IsChild) ∧
      (∀ h, (forest.node? h).isSome = true → ∃ φ, forest.formula? h = some φ ∧
        ∀ h', forest.formula? h' = some φ ↔ h' = h) ∧
      ∀ h ∈ earlier.returned, ∃ φ, earlier.forest.formula? h = some φ ∧
        forest.formula? h = some φ := by
  obtain ⟨hcalls, hothers⟩ := admits_append.mp hadmits
  obtain ⟨hearlier, -⟩ := sound_start.run hcalls
  obtain ⟨hlater, hext⟩ := hearlier.run hothers
  have wf := hlater.wellFormed
  refine ⟨wf.handle_iff, ⟨?_, wf.wellFounded_isChild⟩, ?_, ?_⟩
  · rintro child h ⟨node, hnode, hchild⟩
    have holder := wf.older hnode child hchild
    exact ⟨holder, node?_isSome_iff.mpr (Nat.lt_trans holder (lt_size_of_node? hnode))⟩
  · intro h hh
    obtain ⟨φ, hφ⟩ := wf.exists_formula (node?_isSome_iff.mp hh)
    exact ⟨φ, hφ, fun h' => ⟨fun hφ' => wf.handle_unique hφ' hφ, fun heq => heq ▸ hφ⟩⟩
  · intro h hh
    obtain ⟨φ, hφ⟩ := hearlier.wellFormed.exists_formula (hearlier.lt_size h hh)
    exact ⟨φ, hφ, hext.formula?_eq hearlier.wellFormed wf hφ⟩

/-- A text that breaks off behind `P` and `Q`, and three calls after it. -/
def brokenOff : List Call :=
  [.parse .propositional "P ∧ (Q", .insert (.atom "P" []), .insert (.not 0), .parse .predicate "∀x"]

/-- The text returns no handle but leaves `P` in the forest, so `P` has the first handle when it is
asked for, and keeps it. -/
theorem brokenOff_intact :
    start.Admits (brokenOff.take 2 ++ brokenOff.drop 2) ∧
    (start.run (brokenOff.take 2)).returned = [0] ∧
      (start.run brokenOff).forest.formula? 0 = some (.atom "P" []) := by
  let broken := start.call (.parse .propositional "P ∧ (Q")
  have hread : Formula.read .propositional "P ∧ (Q".toList =
      .error ⟨.closeParen, [], [.atom "P" [], .atom "Q" []]⟩ := by decide +kernel
  have hforest : broken.forest = empty.internAll [.atom "P" [], .atom "Q" []] := by
    show (empty.parse .propositional "P ∧ (Q").2 = _
    rw [Forest.parse, hread]
  have hreturned : broken.returned = [] := by
    show (empty.parse .propositional "P ∧ (Q").1.toOption.toList = []
    rw [Forest.parse, hread]
    rfl
  have hstored : broken.forest.node? 0 = some (.atom "P" []) := by
    have hfirst := extends_insert (empty.insert (.atom "P" [])).2 (.atom "Q" []) 0 (.atom "P" [])
    rw [hforest]
    exact hfirst (by simp [empty, Forest.insert, node?])
  have hknows : start.Knows (.parse .propositional "P ∧ (Q") := trivial
  have hsound : broken.Sound := (sound_start.call hknows).1
  have hatom : broken.forest.formula? 0 = some (.atom "P" []) :=
    hsound.wellFormed.formula?_eq_some_iff.mpr ⟨_, hstored, .atom⟩
  have hinsert : broken.call (.insert (.atom "P" [])) = ⟨broken.forest, [0]⟩ := by
    simp [Session.call, Call.perform, hsound.wellFormed.insert_eq hstored, hreturned]
  have hearlier : start.run (brokenOff.take 2) = ⟨broken.forest, [0]⟩ := hinsert
  have hadmits : start.Admits (brokenOff.take 2 ++ brokenOff.drop 2) := by
    refine ⟨trivial, fun _ hchild => absurd hchild List.not_mem_nil, ?_, trivial, trivial⟩
    rintro child hchild
    have : child = 0 := by simpa [Node.children] using hchild
    rw [this, hinsert]
    exact List.mem_singleton_self 0
  obtain ⟨-, -, -, hkept⟩ := intact hadmits
  rw [hearlier] at hkept
  obtain ⟨φ, hφ, hφ'⟩ := hkept 0 (List.mem_singleton_self 0)
  obtain rfl : φ = .atom "P" [] := Option.some.inj (hφ.symm.trans hatom)
  have hrun : start.run brokenOff = (start.run (brokenOff.take 2)).run (brokenOff.drop 2) :=
    run_append start (brokenOff.take 2) (brokenOff.drop 2)
  rw [hrun, hearlier]
  exact ⟨hadmits, rfl, hφ'⟩

end Session

end Forest

end NaturalDeduction
