import Mathlib.Data.List.Infix
import NaturalDeduction.Proofs.Document.Layout

/-!
# Scopes by depths

Laying out records in every scope which assumptions are in force. The depths of the lines say the
same without any record: a scope that is open at a line stays open until a line comes that is less
deep, or an assumption of its own depth, which opens the next subproof. This file proves that the
two accounts agree.

## Why a scope is never mistaken for another

Of two subproofs at one depth the lines look alike, and a depth that has been left can be reached
again. The numbers in a scope keep them apart: the numbers of later assumptions are not in it
(`Draft.suffix_iff_of_place` needs this), so whatever closes a scope closes it for good.

## Main definitions

* `Scope.chain`: a scope and the scopes around it
* `Draft.Closes`, `ClosedBetween`: the lines that end the subproofs at a depth

## Main results

* `LaidOut.suffix_scope_iff_not_closed`: a scope is open at a later line if nothing in
  between closes it
* `LaidOut.exists_opening`: every scope but the root is the scope of an assumption
* `LaidOut.number_mem_iff`: the numbers in a scope are those of the assumptions around it
-/

namespace NaturalDeduction

variable {α : Type}

/-! ### Scopes around a scope -/

namespace Scope

/-- A scope and the scopes around it: each is followed by its parent, and the root comes last. -/
def chain : Scope → List Scope
  | [] => [root]
  | first :: outer => (first :: outer) :: chain outer

theorem chain_eq_tails : ∀ scope : Scope, scope.chain = scope.tails
  | [] => rfl
  | first :: outer => congrArg ((first :: outer) :: ·) (chain_eq_tails outer)

@[simp] theorem mem_chain_iff {outer scope : Scope} : outer ∈ scope.chain ↔ outer <:+ scope := by
  rw [chain_eq_tails, List.mem_tails]

theorem length_chain (scope : Scope) : scope.chain.length = scope.length + 1 := by
  rw [chain_eq_tails, List.length_tails]

/-- What lies around the outer part of a stack lies around the stack and is not too long. -/
theorem suffix_outermost_iff {n : Nat} {s stack : List α} :
    s <:+ outermost n stack ↔ s <:+ stack ∧ s.length ≤ n := by
  have hlength : (outermost n stack).length = min n stack.length := by
    rw [outermost, List.length_drop]
    omega
  constructor
  · intro h
    have := h.length_le
    exact ⟨h.trans (outermost_suffix n stack), by omega⟩
  · rintro ⟨hs, hn⟩
    have := hs.length_le
    exact List.suffix_of_suffix_length_le hs (outermost_suffix n stack) (by omega)

end Scope

/-! ### Closing a scope -/

/-- Whether a line ends the subproofs at depth `d` that are open before it: it is less deep than
they are, or it is an assumption at their depth, which opens a subproof of its own. -/
def Draft.Closes (draft : Draft α) (d : Nat) : Prop :=
  draft.depth < d ∨ draft.rule = .assumption ∧ draft.depth = d

instance (draft : Draft α) (d : Nat) : Decidable (draft.Closes d) :=
  inferInstanceAs (Decidable (_ ∨ _))

/-- Whether some line behind line `m`, up to line `n`, ends the subproofs at depth `d`. -/
def ClosedBetween (lines : List (Line α)) (d m n : Nat) : Prop :=
  ∃ line ∈ lines, m < line.number ∧ line.number ≤ n ∧ line.Closes d

instance (lines : List (Line α)) (d m n : Nat) : Decidable (ClosedBetween lines d m n) :=
  inferInstanceAs (Decidable (∃ line ∈ lines, _))

/-- **The step.** A line is in a scope from before it exactly if the line before it is and the line
does not close it. -/
theorem Draft.suffix_iff_of_place {draft : Draft α} {number : Nat} {current scope s : Scope}
    (h : draft.place number current = .ok scope) (hs : number ∉ s) :
    s <:+ scope ↔ s <:+ current ∧ ¬ draft.Closes s.length := by
  rcases place_eq_ok_iff.mp h with ⟨hrule, d, hd, -, rfl⟩ | ⟨hrule, -, rfl⟩
  · have hnew : s ≠ number :: Scope.outermost d current := by
      rintro rfl
      exact hs List.mem_cons_self
    rw [List.suffix_cons_iff, or_iff_right hnew, Scope.suffix_outermost_iff, Closes, hd,
      and_iff_right hrule]
    exact and_congr_right fun _ => by omega
  · rw [Scope.suffix_outermost_iff, Closes, or_iff_left fun h => hrule h.1, Nat.not_lt]

/-- A scope that a line lies in is from before the line, or the line is the assumption
that opens it. -/
theorem Draft.suffix_of_place {draft : Draft α} {number : Nat} {current scope s : Scope}
    (h : draft.place number current = .ok scope) (hs : s <:+ scope) :
    s <:+ current ∨ draft.rule = .assumption ∧ scope = s := by
  rcases place_eq_ok_iff.mp h with ⟨hrule, d, -, -, rfl⟩ | ⟨-, -, rfl⟩
  · rcases List.suffix_cons_iff.mp hs with rfl | hs
    · exact .inr ⟨hrule, rfl⟩
    · exact .inl (hs.trans (Scope.outermost_suffix d current))
  · exact .inl (hs.trans (Scope.outermost_suffix _ current))

namespace LaidOut

variable {number : Nat} {current s : Scope} {lines : List (Line α)} {line other : Line α}

/-- **The run.** A scope from before the lines is open at one of them exactly if it was open to
begin with and no line up to that one closes it. -/
theorem suffix_scope_iff (h : LaidOut number current lines) (hline : line ∈ lines)
    (hs : ∀ f ∈ s, f < number) :
    s <:+ line.scope ↔
      s <:+ current ∧ ∀ other ∈ lines, other.number ≤ line.number → ¬ other.Closes s.length := by
  induction lines generalizing number current with
  | nil => simp at hline
  | cons first rest ih =>
    obtain ⟨hnumber, hplace, hrest⟩ := h
    have hstep : s <:+ first.scope ↔ s <:+ current ∧ ¬ first.Closes s.length :=
      Draft.suffix_iff_of_place hplace fun hmem => Nat.lt_irrefl _ (hs number hmem)
    rcases List.mem_cons.mp hline with rfl | hline
    · rw [hstep, List.forall_mem_cons, forall_prop_of_true (Nat.le_refl _)]
      refine and_congr_right fun _ => (and_iff_left fun other hother hle => ?_).symm
      have := hrest.number_le hother
      omega
    · have hle : first.number ≤ line.number := by
        have := hrest.number_le hline
        omega
      rw [ih hrest hline fun f hf => Nat.lt_succ_of_lt (hs f hf), hstep, and_assoc,
        List.forall_mem_cons, forall_prop_of_true hle]

/-- **Scopes by depths.** Of the scopes that a line lies in, those are open at a later line that
nothing closes in between. -/
theorem suffix_scope_iff_not_closed (h : LaidOut 1 .root lines) (hline : line ∈ lines)
    (hother : other ∈ lines) (hle : line.number ≤ other.number) (hs : s <:+ line.scope) :
    s <:+ other.scope ↔ ¬ ClosedBetween lines s.length line.number other.number := by
  obtain ⟨before, after, hl⟩ := List.append_of_mem hline
  have hclosed : (∀ l ∈ after, l.number ≤ other.number → ¬ l.Closes s.length) ↔
      ¬ ClosedBetween lines s.length line.number other.number := by
    constructor
    · rintro hopen ⟨l, hmem, hlt, hle, hcloses⟩
      exact hopen l ((h.mem_after_iff hl hmem).mpr hlt) hle hcloses
    · intro hopen l hbehind hle hcloses
      have hmem : l ∈ lines := by simp [hl, hbehind]
      exact hopen ⟨l, hmem, (h.mem_after_iff hl hmem).mp hbehind, hle, hcloses⟩
  rw [← hclosed]
  rcases Nat.eq_or_lt_of_le hle with heq | hlt
  · -- no line stands between a line and itself
    obtain rfl := h.eq_of_number_eq hline hother heq
    refine iff_of_true hs fun l hbehind hle => ?_
    have := (h.mem_after_iff hl (by simp [hl, hbehind])).mp hbehind
    omega
  · have hafter : LaidOut (line.number + 1) line.scope after := by
      have hrest := (laidOut_append.mp (hl ▸ h)).2
      exact hrest.1 ▸ hrest.2.2
    have hbound : ∀ f ∈ s, f < line.number + 1 := fun f hf =>
      Nat.lt_succ_of_le (h.le_number_of_mem_scope hline (hs.mem hf))
    rw [hafter.suffix_scope_iff ((h.mem_after_iff hl hother).mpr hlt) hbound, and_iff_right hs]

/-! ### Assumptions open scopes -/

/-- Every scope that a line lies in was open before the lines, or is opened by an
assumption among them. -/
theorem suffix_or_exists_opening (h : LaidOut number current lines) (hline : line ∈ lines)
    (hs : s <:+ line.scope) :
    s <:+ current ∨ ∃ opening ∈ lines, opening.rule = .assumption ∧ opening.scope = s ∧
      opening.number ≤ line.number := by
  induction lines generalizing number current with
  | nil => simp at hline
  | cons first rest ih =>
    obtain ⟨hnumber, hplace, hrest⟩ := h
    have hstep (hle : first.number ≤ line.number) (hs : s <:+ first.scope) :
        s <:+ current ∨ ∃ opening ∈ first :: rest, opening.rule = .assumption ∧ opening.scope = s ∧
          opening.number ≤ line.number :=
      (Draft.suffix_of_place hplace hs).imp_right fun ⟨hrule, hscope⟩ =>
        ⟨first, List.mem_cons_self, hrule, hscope, hle⟩
    rcases List.mem_cons.mp hline with rfl | hline
    · exact hstep (Nat.le_refl _) hs
    · rcases ih hrest hline with hs | ⟨opening, hopening, hrest'⟩
      · have := hrest.number_le hline
        exact hstep (by omega) hs
      · exact .inr ⟨opening, List.mem_cons_of_mem _ hopening, hrest'⟩

/-- Every scope but the root that a line lies in is opened by an assumption, at that
line or before. -/
theorem exists_opening (h : LaidOut 1 .root lines) (hline : line ∈ lines) (hs : s <:+ line.scope)
    (hne : s ≠ .root) :
    ∃ opening ∈ lines, opening.rule = .assumption ∧ opening.scope = s ∧
      opening.number ≤ line.number :=
  (h.suffix_or_exists_opening hline hs).resolve_left fun hroot => hne (List.suffix_nil.mp hroot)

/-- The numbers in a scope are those of the assumptions that open it and the scopes around it. -/
theorem number_mem_iff (h : LaidOut 1 .root lines) (hline : line ∈ lines) (hs : s <:+ line.scope)
    (hother : other ∈ lines) :
    other.number ∈ s ↔ other.rule = .assumption ∧ other.scope <:+ s := by
  constructor
  · intro hmem
    obtain ⟨inner, outer, rfl⟩ := List.append_of_mem hmem
    have hsuffix : other.number :: outer <:+ inner ++ other.number :: outer :=
      List.suffix_append _ _
    obtain ⟨opening, hopening, hrule, hscope, -⟩ :=
      h.exists_opening hline (hsuffix.trans hs) (List.cons_ne_nil _ _)
    -- the scope of an assumption has the number of the assumption on top
    obtain ⟨around, hcons⟩ := h.exists_scope_eq_cons hopening hrule
    have hnumber : opening.number = other.number := (List.cons.inj (hcons.symm.trans hscope)).1
    obtain rfl := h.eq_of_number_eq hopening hother hnumber
    exact ⟨hrule, hscope ▸ hsuffix⟩
  · rintro ⟨hrule, hsuffix⟩
    obtain ⟨outer, hcons⟩ := h.exists_scope_eq_cons hother hrule
    exact hsuffix.mem (hcons ▸ List.mem_cons_self)

end LaidOut

end NaturalDeduction
