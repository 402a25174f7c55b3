import Mathlib.Data.Finset.Sort
import Mathlib.Data.String.Basic
import NaturalDeduction.Proofs.Forest.FreeNames

/-!
# Comparing stored formulas node by node

A forest need not build formulas to compare them. To find out whether two are equal up to the order
of operands, or whether one is an instance of another, it is enough to go down in both at once, from
node to node, and to look at handles and names on the way.

## Where handles stand in for formulas

The walk for the order of operands answers at once where both handles are the same. In a well-formed
forest this is a shortcut and no more, since there the formulas are the same; and it is all the walk
knows about atoms, of which two with different handles are different. So the walk is right because a
formula has at most one handle, and would not be right in a forest that stores a node twice.

The walk for instances compares no handles. It carries a stack with the variables of the quantifiers
that it has entered, the name that it has found, and a mark that the variable is shadowed by one of
the quantifiers. That the mark and the stack always agree is part of what is shown about a walk in
the middle of another one (`Forest.WellFormed.comes_matchNodes`).

## Main definitions

* `Forest.walkNames?`: the free names, once each and sorted
* `Forest.walkReorders?`: whether two formulas are equal up to the order of operands
* `Matcher`, `Forest.matchNodes`: the walk for instances, with its stack and its name
* `Forest.walkInstance?`: how one formula is an instance of another

## Main results

* `Forest.walkNames?_eq`, `Forest.WellFormed.walkReorders?_eq`,
  `Forest.WellFormed.walkInstance?_eq`: the walks find what the formulas say
-/

namespace NaturalDeduction

namespace Forest

variable {forest : Forest} {a b h : Handle} {φ ψ : Formula}

/-! ### Layers -/

/-- In a well-formed forest equal formulas are equal handles. -/
theorem WellFormed.eq_iff (wf : forest.WellFormed) (hφ : forest.formula? a = some φ)
    (hψ : forest.formula? b = some ψ) : a = b ↔ φ = ψ := by
  constructor
  · rintro rfl
    exact Option.some.inj (hφ.symm.trans hψ)
  · rintro rfl
    exact wf.handle_unique hφ hψ

/-! ### Free names -/

/-- The names that a walk finds, once each and sorted. -/
def walkNames? (forest : Forest) (h : Handle) : Option (List Name) :=
  (forest.collectNames? h).map fun names => names.sort (· ≤ ·)

theorem sort_freeSet (φ : Formula) : φ.freeSet.sort (· ≤ ·) = φ.sortedFreeNames := by
  rw [← Formula.toFinset_sortedFreeNames, List.toFinset_sort _ φ.nodup_sortedFreeNames]
  have hsorted : φ.sortedFreeNames.Pairwise fun m n => decide (m ≤ n) = true :=
    List.pairwise_mergeSort
      (fun _ _ _ hmn hnk => by simpa using le_trans (of_decide_eq_true hmn) (of_decide_eq_true hnk))
      (fun m n => by simpa using le_total m n) _
  exact hsorted.imp of_decide_eq_true

theorem walkNames?_eq (forest : Forest) (h : Handle) :
    forest.walkNames? h = forest.freeNames? h := by
  rw [walkNames?, collectNames?_eq, Option.map_map, freeNames?]
  exact congrArg (Option.map · _) (funext sort_freeSet)

/-! ### The order of operands -/

/-- Whether two stored formulas are equal up to the order of operands. Where the handles are the
same there is nothing to walk through; where they are not, atoms differ. -/
def walkReorders? (forest : Forest) (a b : Handle) : Option Bool :=
  if a = b then some true
  else
    match forest.node? a, forest.node? b with
    | some (.not i), some (.not j) => if _older : i < a then forest.walkReorders? i j else none
    | some (.binary c l r), some (.binary c' l' r') =>
      if _older : l < a ∧ r < a then
        if c = c' then
          (forest.walkReorders? l l' <&&> forest.walkReorders? r r') <||>
            (some c.overlooksOrder <&&> forest.walkReorders? l r' <&&> forest.walkReorders? r l')
        else some false
      else none
    | some (.quantified q x i), some (.quantified q' y j) =>
      if _older : i < a then
        if q = q' ∧ x = y then forest.walkReorders? i j else some false
      else none
    | some _, some _ => some false
    | _, _ => none
termination_by a
decreasing_by
  · exact _older
  · exact _older.1
  · exact _older.2
  · exact _older.1
  · exact _older.2
  · exact _older

theorem some_andM (p q : Bool) : (some p <&&> some q) = some (p && q) := by
  cases p <;> rfl

theorem some_orM (p q : Bool) : (some p <||> some q) = some (p || q) := by
  cases p <;> rfl

/-- **The walk finds what the formulas say.** Handles that differ stand for formulas that differ, so
nothing is lost by looking at handles first. -/
theorem WellFormed.walkReorders?_eq (wf : forest.WellFormed) (hφ : forest.formula? a = some φ)
    (hψ : forest.formula? b = some ψ) : forest.walkReorders? a b = some (φ.reorders ψ) := by
  induction a using Nat.strongRecOn generalizing b φ ψ with
  | _ a ih =>
    by_cases heq : a = b
    · obtain rfl := (wf.eq_iff hφ hψ).mp heq
      rw [walkReorders?, if_pos heq, Formula.reorders_refl]
    · have hne : φ ≠ ψ := fun h => heq ((wf.eq_iff hφ hψ).mpr h)
      obtain ⟨node, hnode, hlayer⟩ := wf.formula?_eq_some_iff.mp hφ
      obtain ⟨node', hnode', hlayer'⟩ := wf.formula?_eq_some_iff.mp hψ
      have older := wf.older hnode
      rw [walkReorders?, if_neg heq, hnode, hnode']
      cases hlayer with
      | @not i φ hi =>
        have hi' : i < a := older i (by simp [Node.children])
        cases hlayer' with
        | not hj => simp only [dif_pos hi', ih i hi' hi hj, Formula.reorders]
        | _ => simp [Formula.reorders]
      | @binary c l r φ ψ hl hr =>
        have hl' : l < a := older l (by simp [Node.children])
        have hr' : r < a := older r (by simp [Node.children])
        cases hlayer' with
        | @binary c' _ _ _ _ hleft hright =>
          simp only [dif_pos (And.intro hl' hr'), ih l hl' hl hleft, ih l hl' hl hright,
            ih r hr' hr hleft, ih r hr' hr hright, some_andM, some_orM, Formula.reorders]
          by_cases hc : c = c'
          · simp [hc, Bool.and_assoc]
          · simp [hc]
        | _ => simp [Formula.reorders]
      | @quantified q x i φ hi =>
        have hi' : i < a := older i (by simp [Node.children])
        cases hlayer' with
        | @quantified q' y _ _ hj =>
          simp only [dif_pos hi', ih i hi' hi hj, Formula.reorders]
          by_cases hq : q = q' ∧ x = y
          · simp [hq]
          · simp only [if_neg hq]
            simp_all
        | _ => simp [Formula.reorders]
      | _ => cases hlayer' <;> simp_all [Formula.reorders]

/-- Building both formulas first comes to the same, for handles that have been given out. -/
theorem WellFormed.walkReorders?_eq_reorders? (wf : forest.WellFormed)
    (ha : a < forest.nodes.size) (hb : b < forest.nodes.size) :
    forest.walkReorders? a b = forest.reorders? a b := by
  obtain ⟨φ, hφ⟩ := wf.exists_formula ha
  obtain ⟨ψ, hψ⟩ := wf.exists_formula hb
  rw [wf.walkReorders?_eq hφ hψ, reorders?, hφ, hψ]

/-! ### Instances -/

/-- What a walk through a body and a formula carries along. -/
structure Matcher where
  /-- The variables of the quantifiers that have been entered and not been left, the
  innermost first. -/
  bound : List Name
  /-- The name that stands in place of the variable, once it has been found. -/
  name : Option Name

/-- A walk that may break off where a node is missing. -/
abbrev Matching := StateT Matcher Option

/-- Whether an argument of the body fits an argument of the formula. A free occurrence of the
variable fits one name only, wherever it occurs, and none that a quantifier binds. -/
def matchArgument (x : Name) (shadowed : Bool) (pattern target : Name) : Matching Bool :=
  fun matcher =>
  if pattern ≠ x ∨ shadowed then some (pattern = target, matcher)
  else if target ∈ matcher.bound then some (false, matcher)
  else
    match matcher.name with
    | some name => some (name = target, matcher)
    | none => some (true, { matcher with name := some target })

/-- Whether arguments fit one by one, up to the first that do not. -/
def matchArguments (x : Name) (shadowed : Bool) : List (Name × Name) → Matching Bool
  | [] => return true
  | (pattern, target) :: others => do
    if ← matchArgument x shadowed pattern target then matchArguments x shadowed others
    else return false

/-- Whether a body fits a formula. -/
def matchNodes (forest : Forest) (x : Name) (shadowed : Bool) (body target : Handle) :
    Matching Bool :=
  match forest.node? body, forest.node? target with
  | some (.atom p ps), some (.atom t ts) =>
    if p = t ∧ ps.length = ts.length then matchArguments x shadowed (ps.zip ts) else return false
  | some (.not i), some (.not j) =>
    if _older : i < body then forest.matchNodes x shadowed i j else failure
  | some (.binary c l r), some (.binary c' l' r') =>
    if _older : l < body ∧ r < body then
      if c = c' then do
        if ← forest.matchNodes x shadowed l l' then forest.matchNodes x shadowed r r'
        else return false
      else return false
    else failure
  | some (.quantified q y i), some (.quantified q' y' j) =>
    if _older : i < body then
      if q = q' ∧ y = y' then do
        modify fun matcher => { matcher with bound := y :: matcher.bound }
        let answer ← forest.matchNodes x (shadowed || y = x) i j
        modify fun matcher => { matcher with bound := matcher.bound.tail }
        return answer
      else return false
    else failure
  | some .bottom, some .bottom | some .top, some .top => return true
  | some _, some _ => return false
  | _, _ => failure
termination_by body
decreasing_by
  · exact _older
  · exact _older.1
  · exact _older.2
  · exact _older

/-- How one stored formula is an instance of another, found by a walk through both. -/
def walkInstance? (forest : Forest) (body : Handle) (x : Name) (target : Handle) :
    Option (Option Instance) :=
  ((forest.matchNodes x false body target).run ⟨[], none⟩).map fun (fits, matcher) =>
    if fits then some (matcher.name.elim .vacuous .name) else none

/-- A walk has come to a result: the stack is as it was, and if the answer is positive, the name is
the one that has been found. -/
def Comes (bound : List Name) (result : Option (Option Name))
    (run : Option (Bool × Matcher)) : Prop :=
  ∃ name, run = some (result.isSome, ⟨bound, name⟩) ∧ ∀ found, result = some found → name = found

section Matching

variable {x : Name} {bound : List Name} {found : Option Name}

theorem comes_some : Comes bound (some found) (some (true, ⟨bound, found⟩)) :=
  ⟨found, rfl, fun _ h => Option.some.inj h⟩

theorem comes_none {name : Option Name} : Comes bound none (some (false, ⟨bound, name⟩)) :=
  ⟨name, rfl, nofun⟩

/-- Of two walks the second begins with the name that the first has found, and is not made if the
first has failed. -/
theorem Comes.bind {first second : Matching Bool} {result : Option (Option Name)}
    {next : Option Name → Option (Option Name)}
    (hfirst : Comes bound result (first.run ⟨bound, found⟩))
    (hsecond : ∀ found, Comes bound (next found) (second.run ⟨bound, found⟩)) :
    Comes bound (result.bind next)
      ((do if ← first then second else return false : Matching Bool).run ⟨bound, found⟩) := by
  obtain ⟨name, hrun, hname⟩ := hfirst
  rw [StateT.run_bind, hrun]
  cases result with
  | none => exact comes_none
  | some found' =>
    obtain rfl := hname found' rfl
    exact hsecond name

theorem comes_matchArgument (pattern target : Name) :
    Comes bound (Formula.matchName x bound found pattern target)
      ((matchArgument x (decide (x ∈ bound)) pattern target).run ⟨bound, found⟩) := by
  rw [StateT.run]
  by_cases hfree : pattern = x ∧ x ∉ bound
  · have hstays : ¬(pattern ≠ x ∨ decide (x ∈ bound) = true) := by simpa using hfree
    simp only [Formula.matchName, matchArgument, if_pos hfree, if_neg hstays]
    by_cases hbound : target ∈ bound
    · simp only [if_pos hbound]
      exact comes_none
    · simp only [if_neg hbound]
      cases found with
      | none => exact comes_some
      | some name =>
        by_cases hname : name = target
        · simpa [hname] using comes_some
        · simpa [hname] using comes_none
  · have hstays : pattern ≠ x ∨ decide (x ∈ bound) = true := by
      simpa [← imp_iff_not_or] using hfree
    simp only [Formula.matchName, matchArgument, if_neg hfree, if_pos hstays]
    by_cases heq : pattern = target
    · simpa [heq] using comes_some
    · simpa [heq] using comes_none

/-- Arguments of one number fit as the body says. -/
theorem comes_matchArguments {patterns targets : List Name}
    (hlength : patterns.length = targets.length) :
    Comes bound (Formula.matchNames x bound found patterns targets)
      ((matchArguments x (decide (x ∈ bound)) (patterns.zip targets)).run ⟨bound, found⟩) := by
  induction patterns generalizing targets found with
  | nil =>
    cases targets with
    | nil => exact comes_some
    | cons target targets => cases hlength
  | cons pattern patterns ih =>
    cases targets with
    | nil => cases hlength
    | cons target targets =>
      exact (comes_matchArgument pattern target).bind fun _ => ih (Nat.succ.inj hlength)

/-- Arguments of different numbers do not fit. -/
theorem matchNames_eq_none {patterns targets : List Name}
    (hlength : patterns.length ≠ targets.length) :
    Formula.matchNames x bound found patterns targets = none := by
  induction patterns generalizing targets found with
  | nil =>
    cases targets with
    | nil => exact absurd rfl hlength
    | cons target targets => rfl
  | cons pattern patterns ih =>
    cases targets with
    | nil => rfl
    | cons target targets =>
      rw [Formula.matchNames]
      cases Formula.matchName x bound found pattern target with
      | none => rfl
      | some found' => exact ih fun h => hlength (congrArg Nat.succ h)

/-- **A walk comes to what the body says and leaves the stack as it was**, wherever it begins. The
variable is shadowed exactly if it is on the stack. -/
theorem WellFormed.comes_matchNodes (wf : forest.WellFormed) {body target : Handle}
    (hφ : forest.formula? body = some φ) (hψ : forest.formula? target = some ψ) :
    Comes bound (Formula.matchBody x bound found φ ψ)
      ((forest.matchNodes x (decide (x ∈ bound)) body target).run ⟨bound, found⟩) := by
  induction body using Nat.strongRecOn generalizing target φ ψ bound found with
  | _ body ih =>
    obtain ⟨node, hnode, hlayer⟩ := wf.formula?_eq_some_iff.mp hφ
    obtain ⟨node', hnode', hlayer'⟩ := wf.formula?_eq_some_iff.mp hψ
    have older := wf.older hnode
    rw [matchNodes, hnode, hnode']
    cases hlayer with
    | @atom p ps =>
      cases hlayer' with
      | @atom t ts =>
        simp only [Formula.matchBody]
        by_cases hp : p = t
        · by_cases hlength : ps.length = ts.length
          · simp only [hp, hlength, and_self, if_true]
            exact comes_matchArguments hlength
          · rw [if_pos hp, if_neg fun h => hlength h.2, matchNames_eq_none hlength]
            exact comes_none
        · rw [if_neg hp, if_neg fun h => hp h.1]
          exact comes_none
      | _ => exact comes_none
    | @not i φ hi =>
      have hi' : i < body := older i (by simp [Node.children])
      cases hlayer' with
      | not hj =>
        simp only [dif_pos hi', Formula.matchBody]
        exact ih i hi' hi hj
      | _ => exact comes_none
    | @binary c l r φ ψ hl hr =>
      have hl' : l < body := older l (by simp [Node.children])
      have hr' : r < body := older r (by simp [Node.children])
      cases hlayer' with
      | @binary c' _ _ _ _ hleft hright =>
        simp only [dif_pos (And.intro hl' hr'), Formula.matchBody]
        by_cases hc : c = c'
        · rw [if_pos hc, if_pos hc]
          exact (ih l hl' hl hleft).bind fun _ => ih r hr' hr hright
        · rw [if_neg hc, if_neg hc]
          exact comes_none
      | _ => exact comes_none
    | @quantified q y i φ hi =>
      have hi' : i < body := older i (by simp [Node.children])
      cases hlayer' with
      | @quantified q' y' j ψ hj =>
        simp only [dif_pos hi', Formula.matchBody]
        by_cases hq : q = q' ∧ y = y'
        · rw [if_pos hq, if_pos hq]
          have hshadowed : (decide (x ∈ bound) || decide (y = x)) = decide (x ∈ y :: bound) := by
            simp [Bool.or_comm, eq_comm]
          rw [hshadowed]
          obtain ⟨name, hrun, hname⟩ :
              Comes (y :: bound) (Formula.matchBody x (y :: bound) found φ ψ)
            ((forest.matchNodes x (decide (x ∈ y :: bound)) i j).run ⟨y :: bound, found⟩) :=
              ih i hi' hi hj
          refine ⟨name, ?_, hname⟩
          simp only [StateT.run_bind, StateT.run_modify, Option.pure_def, Option.bind_eq_bind,
            Option.bind_some, hrun, StateT.run_pure, List.tail_cons]
        · rw [if_neg hq, if_neg hq]
          exact comes_none
      | _ => exact comes_none
    | bottom => cases hlayer' with
      | bottom => exact comes_some
      | _ => exact comes_none
    | top => cases hlayer' with
      | top => exact comes_some
      | _ => exact comes_none

end Matching

/-- **The walk finds the instance that the formulas say.** -/
theorem WellFormed.walkInstance?_eq (wf : forest.WellFormed) {body target : Handle}
    (hφ : forest.formula? body = some φ) (hψ : forest.formula? target = some ψ) (x : Name) :
    forest.walkInstance? body x target = some (φ.instanceOf? x ψ) := by
  obtain ⟨name, hrun, hname⟩ : Comes [] (Formula.matchBody x [] none φ ψ)
    ((forest.matchNodes x false body target).run ⟨[], none⟩) := wf.comes_matchNodes hφ hψ
  rw [walkInstance?, hrun, Formula.instanceOf?]
  cases hresult : Formula.matchBody x [] none φ ψ with
  | none => rfl
  | some found =>
    obtain rfl := hname found hresult
    cases name <;> rfl

/-- Building both formulas first comes to the same, for handles that have been given out. -/
theorem WellFormed.walkInstance?_eq_instanceOf? (wf : forest.WellFormed)
    (ha : a < forest.nodes.size) (hb : b < forest.nodes.size) (x : Name) :
    forest.walkInstance? a x b = forest.instanceOf? a x b := by
  obtain ⟨φ, hφ⟩ := wf.exists_formula ha
  obtain ⟨ψ, hψ⟩ := wf.exists_formula hb
  rw [wf.walkInstance?_eq hφ hψ, instanceOf?, hφ, hψ]

end Forest

end NaturalDeduction
