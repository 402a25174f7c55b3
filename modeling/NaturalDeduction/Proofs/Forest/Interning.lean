import NaturalDeduction.Forest
import NaturalDeduction.Proofs.Formula.Rendering

/-!
# Forests that have been grown

Every forest that is grown from the empty one is well-formed: its table of handles is the inverse of
its list of nodes, and a node is younger than its children. In such a forest a handle stands for one
formula and a formula has at most one handle, so two stored formulas are the same exactly if their
handles are. Storing a formula that is stored already finds its handle and changes nothing.

Together with the round trip of texts this makes the canonical text of a stored formula a way to
write its handle: reading that text gives the handle back.

## Main definitions

* `Forest.WellFormed`: the invariant
* `Forest.Extends`: a later forest has all the nodes of an earlier one, in the same places
* `Forest.Layer`: a node is the outermost layer of a formula

## Main results

* `Forest.WellFormed.exists_formula`, `Forest.WellFormed.handle_unique`: a handle that has been
  given out stands for a formula, and a formula has at most one handle
* `Forest.WellFormed.intern_eq`: storing a formula again finds it
* `Forest.WellFormed.stored_intern`, `Forest.WellFormed.parse`: what growing a forest keeps
* `Forest.parse_render`: reading undoes writing, handle for handle
-/

namespace NaturalDeduction

namespace Forest

variable {forest forest' : Forest} {h h' : Handle} {node : Node} {φ : Formula}

/-! ### The invariant -/

/-- The table and the list of nodes say the same, and children are older than their parents. -/
structure WellFormed (forest : Forest) : Prop where
  /-- The table finds a node where it is, and only there. -/
  handle_iff (node : Node) (h : Handle) : forest.handles[node]? = some h ↔
    forest.node? h = some node
  older {h : Handle} {node : Node} (hnode : forest.node? h = some node) :
    ∀ child ∈ node.children, child < h

theorem WellFormed.empty : empty.WellFormed where
  handle_iff node h := by simp [Forest.empty, node?]
  older hnode := by simp [Forest.empty, node?] at hnode

theorem lt_size_of_node? (hnode : forest.node? h = some node) : h < forest.nodes.size :=
  (Array.getElem?_eq_some_iff.mp hnode).1

/-- All the nodes of the first forest stand in the second where they stood. -/
def Extends (forest forest' : Forest) : Prop :=
  ∀ h node, forest.node? h = some node → forest'.node? h = some node

theorem Extends.refl (forest : Forest) : forest.Extends forest := fun _ _ hnode => hnode

theorem Extends.trans {forest'' : Forest} (hfirst : forest.Extends forest')
    (hsecond : forest'.Extends forest'') : forest.Extends forest'' :=
  fun h node hnode => hsecond h node (hfirst h node hnode)

/-! ### Inserting a node -/

/-- A node that is stored is found. -/
theorem WellFormed.insert_eq (wf : forest.WellFormed) (hnode : forest.node? h = some node) :
    forest.insert node = (h, forest) := by
  rw [insert, (wf.handle_iff node h).mpr hnode]

/-- The list of nodes with a new one behind it. -/
theorem node?_push {table : Std.HashMap Node Handle} :
    node? ⟨forest.nodes.push node, table⟩ h =
      if h = forest.nodes.size then some node else forest.node? h := by
  simp only [node?, Array.getElem?_push]

theorem extends_insert (forest : Forest) (node : Node) : forest.Extends (forest.insert node).2 := by
  intro h node' hnode'
  rw [insert]
  split
  · exact hnode'
  · rw [node?_push, if_neg (Nat.ne_of_lt (lt_size_of_node? hnode'))]
    exact hnode'

theorem WellFormed.node?_insert (wf : forest.WellFormed) (node : Node) :
    (forest.insert node).2.node? (forest.insert node).1 = some node := by
  rw [insert]
  split
  · next h hfound => exact (wf.handle_iff node h).mp hfound
  · rw [node?_push, if_pos rfl]

theorem WellFormed.insert (wf : forest.WellFormed)
    (hchildren : ∀ child ∈ node.children, child < forest.nodes.size) :
    (forest.insert node).2.WellFormed := by
  rw [Forest.insert]
  split
  · exact wf
  · next hnew =>
    constructor
    · intro node' h
      rw [node?_push, Std.HashMap.getElem?_insert]
      by_cases hnode : node = node'
      · subst hnode
        have hold : forest.node? h ≠ some node := fun hold => by
          rw [(wf.handle_iff node h).mpr hold] at hnew
          cases hnew
        by_cases hsize : h = forest.nodes.size
        · simp [hsize]
        · simp [hsize, hold, Ne.symm hsize]
      · have hsize : forest.node? forest.nodes.size = none := by simp [node?]
        by_cases hlast : h = forest.nodes.size
        · simp [hlast, hnode, wf.handle_iff, hsize]
        · simp [hlast, hnode, wf.handle_iff]
    · intro h node' hnode'
      rw [node?_push] at hnode'
      split at hnode'
      · next hlast =>
        obtain rfl := Option.some.inj hnode'
        exact hlast ▸ hchildren
      · exact wf.older hnode'

/-! ### The formula behind a handle -/

/-- The node is the outermost layer of the formula, and its handles stand for the parts. -/
inductive Layer (forest : Forest) : Node → Formula → Prop
  | atom {p : Name} {args : List Name} : Layer forest (.atom p args) (.atom p args)
  | not {i : Handle} {φ : Formula} (inner : forest.formula? i = some φ) :
      Layer forest (.not i) (.not φ)
  | binary {c : Connective} {l r : Handle} {φ ψ : Formula} (left : forest.formula? l = some φ)
      (right : forest.formula? r = some ψ) : Layer forest (.binary c l r) (.binary c φ ψ)
  | quantified {q : Quantifier} {x : Name} {b : Handle} {φ : Formula}
      (body : forest.formula? b = some φ) :
      Layer forest (.quantified q x b) (.quantified q x φ)
  | bottom : Layer forest .bottom .bottom
  | top : Layer forest .top .top

/-- In a well-formed forest no child is refused for its age. -/
theorem WellFormed.formula?_eq_some_iff (wf : forest.WellFormed) :
    forest.formula? h = some φ ↔ ∃ node, forest.node? h = some node ∧ forest.Layer node φ := by
  rw [formula?]
  cases hnode : forest.node? h with
  | none => simp
  | some node =>
    have older := wf.older hnode
    simp only [Option.some.injEq, exists_eq_left']
    cases node with
    | atom p args =>
      exact ⟨fun heq => Option.some.inj heq ▸ .atom, by rintro ⟨⟩; rfl⟩
    | not i =>
      simp only [dif_pos (older i (by simp [Node.children])), Option.map_eq_some_iff]
      constructor
      · rintro ⟨ψ, hψ, rfl⟩
        exact .not hψ
      · rintro ⟨⟩
        next ψ hψ => exact ⟨ψ, hψ, rfl⟩
    | binary c l r =>
      have hchildren : l < h ∧ r < h :=
        ⟨older l (by simp [Node.children]), older r (by simp [Node.children])⟩
      simp only [dif_pos hchildren]
      constructor
      · intro heq
        split at heq
        · next hl hr => exact Option.some.inj heq ▸ .binary hl hr
        · cases heq
      · rintro ⟨⟩
        next hl hr => simp [hl, hr]
    | quantified q x b =>
      simp only [dif_pos (older b (by simp [Node.children])), Option.map_eq_some_iff]
      constructor
      · rintro ⟨ψ, hψ, rfl⟩
        exact .quantified hψ
      · rintro ⟨⟩
        next ψ hψ => exact ⟨ψ, hψ, rfl⟩
    | bottom => exact ⟨fun heq => Option.some.inj heq ▸ .bottom, by rintro ⟨⟩; rfl⟩
    | top => exact ⟨fun heq => Option.some.inj heq ▸ .top, by rintro ⟨⟩; rfl⟩

theorem WellFormed.formula?_eq_not (wf : forest.WellFormed) : forest.formula? h = some (.not φ) ↔
    ∃ i, forest.node? h = some (.not i) ∧ forest.formula? i = some φ := by
  rw [wf.formula?_eq_some_iff]
  constructor
  · rintro ⟨_, hnode, hlayer⟩
    cases hlayer with | not inner => exact ⟨_, hnode, inner⟩
  · rintro ⟨i, hnode, inner⟩
    exact ⟨_, hnode, .not inner⟩

theorem WellFormed.formula?_eq_binary (wf : forest.WellFormed) {c : Connective} {ψ : Formula} :
    forest.formula? h = some (.binary c φ ψ) ↔ ∃ l r, forest.node? h = some (.binary c l r) ∧
      forest.formula? l = some φ ∧ forest.formula? r = some ψ := by
  rw [wf.formula?_eq_some_iff]
  constructor
  · rintro ⟨_, hnode, hlayer⟩
    cases hlayer with | binary left right => exact ⟨_, _, hnode, left, right⟩
  · rintro ⟨l, r, hnode, left, right⟩
    exact ⟨_, hnode, .binary left right⟩

theorem WellFormed.formula?_eq_quantified (wf : forest.WellFormed) {q : Quantifier} {x : Name} :
    forest.formula? h = some (.quantified q x φ) ↔
      ∃ b, forest.node? h = some (.quantified q x b) ∧ forest.formula? b = some φ := by
  rw [wf.formula?_eq_some_iff]
  constructor
  · rintro ⟨_, hnode, hlayer⟩
    cases hlayer with | quantified body => exact ⟨_, hnode, body⟩
  · rintro ⟨b, hnode, body⟩
    exact ⟨_, hnode, .quantified body⟩

theorem WellFormed.lt_size (wf : forest.WellFormed) (hφ : forest.formula? h = some φ) :
    h < forest.nodes.size := by
  obtain ⟨node, hnode, -⟩ := wf.formula?_eq_some_iff.mp hφ
  exact lt_size_of_node? hnode

/-- Every handle that has been given out stands for a formula. -/
theorem WellFormed.exists_formula (wf : forest.WellFormed) (hlt : h < forest.nodes.size) :
    ∃ φ, forest.formula? h = some φ := by
  induction h using Nat.strongRecOn with
  | _ h ih =>
    obtain ⟨node, hnode⟩ : ∃ node, forest.node? h = some node :=
      ⟨_, Array.getElem?_eq_getElem hlt⟩
    have part (child : Handle) (hchild : child ∈ node.children) :
        ∃ φ, forest.formula? child = some φ :=
      have hlt' := wf.older hnode child hchild
      ih child hlt' (Nat.lt_trans hlt' hlt)
    obtain ⟨φ, hlayer⟩ : ∃ φ, forest.Layer node φ := by
      cases node with
      | atom p args => exact ⟨_, .atom⟩
      | not i =>
        obtain ⟨φ, hφ⟩ := part i (by simp [Node.children])
        exact ⟨_, .not hφ⟩
      | binary c l r =>
        obtain ⟨φ, hφ⟩ := part l (by simp [Node.children])
        obtain ⟨ψ, hψ⟩ := part r (by simp [Node.children])
        exact ⟨_, .binary hφ hψ⟩
      | quantified q x b =>
        obtain ⟨φ, hφ⟩ := part b (by simp [Node.children])
        exact ⟨_, .quantified hφ⟩
      | bottom => exact ⟨_, .bottom⟩
      | top => exact ⟨_, .top⟩
    exact ⟨φ, wf.formula?_eq_some_iff.mpr ⟨node, hnode, hlayer⟩⟩

/-- A node is stored once. -/
theorem WellFormed.node?_unique (wf : forest.WellFormed) (hnode : forest.node? h = some node)
    (hnode' : forest.node? h' = some node) : h = h' := by
  rw [← wf.handle_iff] at hnode hnode'
  exact Option.some.inj (hnode.symm.trans hnode')

/-- A formula has at most one handle. -/
theorem WellFormed.handle_unique (wf : forest.WellFormed) (hφ : forest.formula? h = some φ)
    (hφ' : forest.formula? h' = some φ) : h = h' := by
  induction φ generalizing h h' with
  | not φ ih =>
    obtain ⟨i, hnode, hφ⟩ := wf.formula?_eq_not.mp hφ
    obtain ⟨i', hnode', hφ'⟩ := wf.formula?_eq_not.mp hφ'
    obtain rfl := ih hφ hφ'
    exact wf.node?_unique hnode hnode'
  | binary c φ ψ ihφ ihψ =>
    obtain ⟨l, r, hnode, hφ, hψ⟩ := wf.formula?_eq_binary.mp hφ
    obtain ⟨l', r', hnode', hφ', hψ'⟩ := wf.formula?_eq_binary.mp hφ'
    obtain rfl := ihφ hφ hφ'
    obtain rfl := ihψ hψ hψ'
    exact wf.node?_unique hnode hnode'
  | quantified q x φ ih =>
    obtain ⟨b, hnode, hφ⟩ := wf.formula?_eq_quantified.mp hφ
    obtain ⟨b', hnode', hφ'⟩ := wf.formula?_eq_quantified.mp hφ'
    obtain rfl := ih hφ hφ'
    exact wf.node?_unique hnode hnode'
  | atom | bottom | top =>
    obtain ⟨_, hnode, ⟨⟩⟩ := wf.formula?_eq_some_iff.mp hφ
    obtain ⟨_, hnode', ⟨⟩⟩ := wf.formula?_eq_some_iff.mp hφ'
    exact wf.node?_unique hnode hnode'

/-- Old handles keep their formulas. -/
theorem Extends.formula?_eq (hext : forest.Extends forest') (wf : forest.WellFormed)
    (wf' : forest'.WellFormed) (hφ : forest.formula? h = some φ) : forest'.formula? h = some φ := by
  induction φ generalizing h with
  | not φ ih =>
    obtain ⟨i, hnode, hφ⟩ := wf.formula?_eq_not.mp hφ
    exact wf'.formula?_eq_not.mpr ⟨i, hext _ _ hnode, ih hφ⟩
  | binary c φ ψ ihφ ihψ =>
    obtain ⟨l, r, hnode, hφ, hψ⟩ := wf.formula?_eq_binary.mp hφ
    exact wf'.formula?_eq_binary.mpr ⟨l, r, hext _ _ hnode, ihφ hφ, ihψ hψ⟩
  | quantified q x φ ih =>
    obtain ⟨b, hnode, hφ⟩ := wf.formula?_eq_quantified.mp hφ
    exact wf'.formula?_eq_quantified.mpr ⟨b, hext _ _ hnode, ih hφ⟩
  | atom | bottom | top =>
    obtain ⟨_, hnode, ⟨⟩⟩ := wf.formula?_eq_some_iff.mp hφ
    exact wf'.formula?_eq_some_iff.mpr ⟨_, hext _ _ hnode, by constructor⟩

/-! ### Storing a formula -/

/-- Storing a formula that is stored already changes nothing. -/
theorem WellFormed.intern_eq (wf : forest.WellFormed) (hφ : forest.formula? h = some φ) :
    forest.intern φ = (h, forest) := by
  induction φ generalizing h with
  | not φ ih =>
    obtain ⟨i, hnode, hφ⟩ := wf.formula?_eq_not.mp hφ
    simp only [intern, ih hφ]
    exact wf.insert_eq hnode
  | binary c φ ψ ihφ ihψ =>
    obtain ⟨l, r, hnode, hφ, hψ⟩ := wf.formula?_eq_binary.mp hφ
    simp only [intern, ihφ hφ, ihψ hψ]
    exact wf.insert_eq hnode
  | quantified q x φ ih =>
    obtain ⟨b, hnode, hφ⟩ := wf.formula?_eq_quantified.mp hφ
    simp only [intern, ih hφ]
    exact wf.insert_eq hnode
  | atom | bottom | top =>
    obtain ⟨_, hnode, ⟨⟩⟩ := wf.formula?_eq_some_iff.mp hφ
    exact wf.insert_eq hnode

/-- The handle of a formula that has been stored, and the forest that has grown by it. -/
structure Stored (before : Forest) (φ : Formula) (handle : Handle) (after : Forest) : Prop where
  wellFormed : after.WellFormed
  extends_before : before.Extends after
  formula?_eq : after.formula? handle = some φ

/-- Inserting the outermost layer stores a formula whose parts are stored. -/
theorem WellFormed.stored_insert (wf : forest.WellFormed) (hlayer : forest.Layer node φ) :
    Stored forest φ (forest.insert node).1 (forest.insert node).2 := by
  have hchildren : ∀ child ∈ node.children, child < forest.nodes.size := by
    cases hlayer with
    | not inner => simpa [Node.children] using wf.lt_size inner
    | binary left right => simpa [Node.children] using ⟨wf.lt_size left, wf.lt_size right⟩
    | quantified body => simpa [Node.children] using wf.lt_size body
    | atom | bottom | top => exact nofun
  have wf' := wf.insert hchildren
  have hext := extends_insert forest node
  refine ⟨wf', hext, wf'.formula?_eq_some_iff.mpr ⟨node, wf.node?_insert node, ?_⟩⟩
  cases hlayer with
  | not inner => exact .not (hext.formula?_eq wf wf' inner)
  | binary left right =>
    exact .binary (hext.formula?_eq wf wf' left) (hext.formula?_eq wf wf' right)
  | quantified body => exact .quantified (hext.formula?_eq wf wf' body)
  | atom => exact .atom
  | bottom => exact .bottom
  | top => exact .top

/-- What is stored in a forest that has grown is stored. -/
theorem Stored.of_extends (hstored : Stored forest' φ h after) (hext : forest.Extends forest') :
    Stored forest φ h after :=
  { hstored with extends_before := hext.trans hstored.extends_before }

theorem WellFormed.stored_intern (wf : forest.WellFormed) (φ : Formula) :
    Stored forest φ (forest.intern φ).1 (forest.intern φ).2 := by
  induction φ generalizing forest with
  | atom p args => exact wf.stored_insert .atom
  | not φ ih =>
    have hφ := ih wf
    exact (hφ.wellFormed.stored_insert (.not hφ.formula?_eq)).of_extends hφ.extends_before
  | binary c φ ψ ihφ ihψ =>
    have hφ := ihφ wf
    have hψ := ihψ hφ.wellFormed
    have hleft := hψ.extends_before.formula?_eq hφ.wellFormed hψ.wellFormed hφ.formula?_eq
    exact (hψ.wellFormed.stored_insert (.binary hleft hψ.formula?_eq)).of_extends
      (hφ.extends_before.trans hψ.extends_before)
  | quantified q x φ ih =>
    have hφ := ih wf
    exact (hφ.wellFormed.stored_insert (.quantified hφ.formula?_eq)).of_extends hφ.extends_before
  | bottom => exact wf.stored_insert .bottom
  | top => exact wf.stored_insert .top

/-! ### Reading texts into a forest -/

variable {calculus : Calculus} {text : String}

theorem parse_eq_ok_iff : forest.parse calculus text = (.ok h, forest') ↔
    ∃ φ, Formula.parse calculus text = .ok φ ∧ forest.intern φ = (h, forest') := by
  simp only [parse, Formula.parse_eq_ok_iff_read]
  cases Formula.read calculus text.toList with
  | error stuck => simp
  | ok φ => simp [Prod.ext_iff]

/-- Storing formulas one after the other makes a well-formed forest grow. -/
theorem WellFormed.internAll (wf : forest.WellFormed) (φs : List Formula) :
    (forest.internAll φs).WellFormed ∧ forest.Extends (forest.internAll φs) := by
  induction φs generalizing forest with
  | nil => exact ⟨wf, .refl forest⟩
  | cons φ φs ih =>
    have hφ := wf.stored_intern φ
    obtain ⟨hwf, hext⟩ := ih hφ.wellFormed
    exact ⟨hwf, hφ.extends_before.trans hext⟩

/-- Reading a text makes a well-formed forest grow, whether or not the text is a formula. -/
theorem WellFormed.parse (wf : forest.WellFormed) (calculus : Calculus) (text : String) :
    (forest.parse calculus text).2.WellFormed ∧ forest.Extends (forest.parse calculus text).2 := by
  rw [Forest.parse]
  cases Formula.read calculus text.toList with
  | error stuck => exact wf.internAll stuck.finished
  | ok φ => exact ⟨(wf.stored_intern φ).wellFormed, (wf.stored_intern φ).extends_before⟩

/-- The text of a stored formula is read as its handle. -/
theorem WellFormed.parse_render_eq (wf : forest.WellFormed) (hφ : forest.formula? h = some φ)
    (hnames : φ.HasIdentifiers) (hcalculus : calculus = .propositional → φ.IsPropositional) :
    forest.parse calculus φ.render = (.ok h, forest) :=
  parse_eq_ok_iff.mpr ⟨φ, Formula.parse_render_eq hnames hcalculus, wf.intern_eq hφ⟩

/-- **Reading undoes writing.** A stored formula that can be written is read back from its canonical
text, as the same handle and without a change to the forest; and what a text has been read as is
such a formula, in the calculus of that text. -/
theorem parse_render (wf : forest.WellFormed) :
    (∀ h φ, forest.formula? h = some φ → φ.HasIdentifiers →
      forest.parse .predicate φ.render = (.ok h, forest) ∧
        (φ.IsPropositional → forest.parse .propositional φ.render = (.ok h, forest))) ∧
    ∀ calculus text h forest', forest.parse calculus text = (.ok h, forest') →
      ∃ φ, forest'.formula? h = some φ ∧ φ.HasIdentifiers ∧
        (calculus = .propositional → φ.IsPropositional) ∧
        forest'.parse calculus φ.render = (.ok h, forest') := by
  constructor
  · intro h φ hφ hnames
    exact ⟨wf.parse_render_eq hφ hnames nofun,
      fun hletters => wf.parse_render_eq hφ hnames fun _ => hletters⟩
  · intro calculus text h forest' hparse
    obtain ⟨φ, hread, hintern⟩ := parse_eq_ok_iff.mp hparse
    obtain ⟨hnames, hcalculus⟩ := Formula.writable_of_parse hread
    have hstored := wf.stored_intern φ
    rw [hintern] at hstored
    exact ⟨φ, hstored.formula?_eq, hnames, hcalculus,
      hstored.wellFormed.parse_render_eq hstored.formula?_eq hnames hcalculus⟩

/-- In a forest that holds `∀x ¬∃y Loves(x, y)`, this text is read as the handle of
that sentence. -/
theorem loves_parse_render :
    let stored := empty.intern (.forAll "x" (.not (.forSome "y" (.atom "Loves" ["x", "y"]))))
    stored.2.WellFormed ∧
      stored.2.parse .predicate "∀x ¬∃y Loves(x, y)" = (.ok stored.1, stored.2) := by
  intro stored
  let φ : Formula := .forAll "x" (.not (.forSome "y" (.atom "Loves" ["x", "y"])))
  have hrender : φ.render = "∀x ¬∃y Loves(x, y)" := by decide +kernel
  have hx : IsIdentifier "x" := ⟨'x', [], by decide, by decide, nofun⟩
  have hy : IsIdentifier "y" := ⟨'y', [], by decide, by decide, nofun⟩
  have hloves : IsIdentifier "Loves" :=
    ⟨'L', "oves".toList, by decide, by decide, List.all_eq_true.mp (by decide)⟩
  have hnames : φ.HasIdentifiers :=
    ⟨hx, hy, hloves, by decide, by decide,
      List.forall_mem_cons.mpr ⟨hx, List.forall_mem_singleton.mpr hy⟩⟩
  have hstored : Stored empty φ stored.1 stored.2 := WellFormed.empty.stored_intern φ
  obtain ⟨hparse, -⟩ := (parse_render hstored.wellFormed).1 stored.1 φ hstored.formula?_eq hnames
  rw [hrender] at hparse
  exact ⟨hstored.wellFormed, hparse⟩

end Forest

end NaturalDeduction
