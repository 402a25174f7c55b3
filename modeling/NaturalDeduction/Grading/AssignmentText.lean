import NaturalDeduction.Grading.Assignment
import NaturalDeduction.Toml.Decode

/-!
# Assignments as texts

An assignment is written in TOML. Its problems are the series `problem`, and the lines of a problem
the series `line` in it:

```
[[problem]]
id = "commutation"
premises = ["P ∧ Q"]
goal = "Q ∧ P"

[[problem.line]]
expr = "P ∧ Q"
rule = "premise"
```

A problem may also name its `calculus`, and a line its `depth` and the list `cites` of its
citations. No two problems of an assignment have the same id.

## Main definitions

* `Assignment.parse`: the assignment that a text writes
* `AssignmentError`: why a text is not an assignment

## Main results

* `Assignment.nodup_of_parse`: the ids of an assignment that was read are distinct
-/

namespace NaturalDeduction

open Toml

/-- The calculus that a value names. A table with the name as its only key, and nothing behind it,
names a calculus as well. -/
def Calculus.decode : Value → Except Misfit Calculus
  | .string name | .table [(name, .table [])] | .table [(name, .array [])] =>
    match Calculus.ofName? name with
    | some calculus => .ok calculus
    | none => .error (.form .calculus)
  | _ => .error (.form .calculus)

/-- The line of a proof that a record writes. -/
def Entry.decode (value : Value) : Except Misfit Entry := do
  let fields ← value.fields ["expr", "rule", "depth", "cites"] 2
  let formula ← required Value.toText fields "expr"
  let rule ← required Value.toText fields "rule"
  let depth ← optional Value.toNat fields "depth"
  let citations ← optional (Value.toListOf Value.toText) fields "cites"
  return ⟨formula, rule, depth.getD 0, citations.getD []⟩

/-- The problem that a record writes. -/
def Problem.decode (value : Value) : Except Misfit Problem := do
  let fields ← value.fields ["id", "calculus", "premises", "goal", "line"] 1
  let id ← required Value.toText fields "id"
  let calculus ← optional Calculus.decode fields "calculus"
  let premises ← optional (Value.toListOf Value.toText) fields "premises"
  let goal ← optional Value.toText fields "goal"
  let lines ← optional (Value.toListOf Entry.decode) fields "line"
  return ⟨id, calculus.getD .propositional, premises, goal, lines.getD []⟩

/-- The assignment that a record writes. -/
def Assignment.decode (value : Value) : Except Misfit Assignment := do
  let fields ← value.fields ["problem"] 0
  let problems ← optional (Value.toListOf Problem.decode) fields "problem"
  return ⟨problems.getD []⟩

/-! ### Distinct ids -/

/-- The first element of a list that occurs before its place, in the list or among those already
`seen`. -/
def firstRepeated? {α : Type} [DecidableEq α] (seen : List α) : List α → Option α
  | [] => none
  | a :: others => if a ∈ seen then some a else firstRepeated? (a :: seen) others

theorem firstRepeated?_eq_none_iff {α : Type} [DecidableEq α] {seen list : List α} :
    firstRepeated? seen list = none ↔ list.Nodup ∧ ∀ a ∈ list, a ∉ seen := by
  induction list generalizing seen with
  | nil => simp [firstRepeated?]
  | cons a others ih =>
    by_cases h : a ∈ seen
    · simp [firstRepeated?, h]
    · simp only [firstRepeated?, h, ite_false, ih, List.nodup_cons, List.mem_cons, not_or]
      constructor
      · rintro ⟨hn, hs⟩
        refine ⟨⟨fun ha => (hs a ha).1 rfl, hn⟩, ?_⟩
        rintro b (rfl | hb)
        · exact h
        · exact (hs b hb).2
      · rintro ⟨⟨ha, hn⟩, hs⟩
        refine ⟨hn, fun b hb => ⟨?_, hs b (.inr hb)⟩⟩
        rintro rfl
        exact ha hb

/-! ### Texts -/

/-- Why a text is not an assignment. -/
inductive AssignmentError where
  | refused (refusal : Refusal)
  /-- An id occurs a second time, before any other one does. -/
  | duplicate (id : String)
deriving DecidableEq, Repr

/-- The reason in words. The path tells where the text comes from. -/
def AssignmentError.message (path : String) : AssignmentError → String
  | refused refusal => s!"`{path}` is not a valid assignment: {refusal.message}"
  | duplicate id => s!"problem `{id}` appears more than once in `{path}`"

namespace Assignment

/-- The ids of the problems, in order. -/
def ids (assignment : Assignment) : List String := assignment.problems.map Problem.id

/-- The assignment that a text writes. -/
def parse (text : String) : Except AssignmentError Assignment :=
  match Toml.read Assignment.decode text with
  | .error refusal => .error (.refused refusal)
  | .ok assignment =>
    match firstRepeated? [] assignment.ids with
    | some id => .error (.duplicate id)
    | none => .ok assignment

theorem nodup_of_parse {text : String} {assignment : Assignment}
    (h : Assignment.parse text = .ok assignment) : assignment.ids.Nodup := by
  unfold parse at h
  split at h
  · cases h
  · split at h
    · cases h
    · rename_i hn
      cases h
      exact (firstRepeated?_eq_none_iff.1 hn).1

end Assignment

end NaturalDeduction
