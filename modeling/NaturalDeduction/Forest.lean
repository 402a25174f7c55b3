import NaturalDeduction.Formula.Instance
import NaturalDeduction.Formula.Parser
import NaturalDeduction.Formula.Printer
import Std.Data.HashMap

/-!
# Forests of shared formulas

A forest stores formulas node by node and stores no node twice, so the subformulas that formulas
have in common are shared, and two formulas of one forest are the same exactly if they have the same
handle. A node refers to its children by their handles, which are smaller than its own.

## Total, permissive semantics

A handle is a number, and any number may be asked for: `Forest.formula?` reads a handle that the
forest does not hold as no formula, and so does every question asked about one. That a forest grown
from the empty one by its own operations reads every handle it gave out is a fact about runs, not a
field of the structure.

## Main definitions

* `Node`, `Forest`: one layer of a formula; the store
* `Forest.insert`: the handle of a node, new or old
* `Forest.intern`, `Forest.parse`: the handle of a formula, of the formula in a text
* `Forest.formula?`: the formula that a handle stands for
-/

namespace NaturalDeduction

/-- The place of a formula in a forest. -/
abbrev Handle := Nat

/-- The outermost layer of a formula, with handles in place of its immediate subformulas. -/
inductive Node where
  | atom (name : Name) (args : List Name)
  | not (inner : Handle)
  | binary (connective : Connective) (left right : Handle)
  | quantified (quantifier : Quantifier) (bound : Name) (body : Handle)
  | bottom
  | top
deriving DecidableEq, Hashable, Repr

/-- The immediate subformulas of a node. -/
def Node.children : Node → List Handle
  | atom .. | bottom | top => []
  | not inner => [inner]
  | binary _ left right => [left, right]
  | quantified _ _ body => [body]

/-- A store of nodes. -/
structure Forest where
  /-- The nodes by handle, oldest first. -/
  nodes : Array Node
  /-- The handle of every stored node. -/
  handles : Std.HashMap Node Handle

namespace Forest

/-- The forest without nodes. -/
def empty : Forest := ⟨#[], ∅⟩

/-- The node at a handle. -/
def node? (forest : Forest) (h : Handle) : Option Node := forest.nodes[h]?

/-- The handle of a node: the one that it has, or the next free one. -/
def insert (forest : Forest) (node : Node) : Handle × Forest :=
  match forest.handles[node]? with
  | some h => (h, forest)
  | none =>
    let h := forest.nodes.size
    (h, ⟨forest.nodes.push node, forest.handles.insert node h⟩)

/-- The handle of a formula, whose subformulas are stored before it, from left to right. -/
def intern (forest : Forest) : Formula → Handle × Forest
  | .atom name args => forest.insert (.atom name args)
  | .not inner =>
    let (i, forest) := forest.intern inner
    forest.insert (.not i)
  | .binary c left right =>
    let (l, forest) := forest.intern left
    let (r, forest) := forest.intern right
    forest.insert (.binary c l r)
  | .quantified q x body =>
    let (b, forest) := forest.intern body
    forest.insert (.quantified q x b)
  | .bottom => forest.insert .bottom
  | .top => forest.insert .top

/-- The forest after formulas have been stored, one after the other. -/
def internAll (forest : Forest) (φs : List Formula) : Forest :=
  φs.foldl (fun forest φ => (forest.intern φ).2) forest

/-- The handle of the formula that a text writes. Formulas are stored while the text is read, so a
text that turns out not to be a formula leaves behind those that were finished by then. -/
def parse (forest : Forest) (calculus : Calculus) (text : String) :
    Except SyntaxError Handle × Forest :=
  match Formula.read calculus text.toList with
  | .error stuck => (.error (stuck.locate text.toList), forest.internAll stuck.finished)
  | .ok φ =>
    let (h, forest) := forest.intern φ
    (.ok h, forest)

/-- The formula that a handle stands for. A child that is not older than its parent stands for
nothing. -/
def formula? (forest : Forest) (h : Handle) : Option Formula :=
  match forest.node? h with
  | none => none
  | some (.atom name args) => some (.atom name args)
  | some (.not i) => if _older : i < h then (forest.formula? i).map .not else none
  | some (.binary c l r) =>
    if _older : l < h ∧ r < h then
      match forest.formula? l, forest.formula? r with
      | some left, some right => some (.binary c left right)
      | _, _ => none
    else none
  | some (.quantified q x b) =>
    if _older : b < h then (forest.formula? b).map (.quantified q x) else none
  | some .bottom => some .bottom
  | some .top => some .top
termination_by h
decreasing_by
  · exact _older
  · exact _older.1
  · exact _older.2
  · exact _older

/-! ### Questions about stored formulas -/

/-- The canonical text of a stored formula. -/
def render? (forest : Forest) (h : Handle) : Option String := (forest.formula? h).map Formula.render

/-- The free names of a stored formula, once each and sorted. -/
def freeNames? (forest : Forest) (h : Handle) : Option (List Name) :=
  (forest.formula? h).map Formula.sortedFreeNames

/-- Whether two stored formulas are equal up to the order of operands. -/
def reorders? (forest : Forest) (a b : Handle) : Option Bool :=
  match forest.formula? a, forest.formula? b with
  | some φ, some ψ => some (φ.reorders ψ)
  | _, _ => none

/-- How one stored formula is an instance of another. -/
def instanceOf? (forest : Forest) (body : Handle) (x : Name) (target : Handle) :
    Option (Option Instance) :=
  match forest.formula? body, forest.formula? target with
  | some φ, some ψ => some (φ.instanceOf? x ψ)
  | _, _ => none

end Forest

end NaturalDeduction
