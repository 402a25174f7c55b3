import NaturalDeduction.Formula.Basic

/-!
# Instances of a quantified body

The quantifier rules ask whether one formula is the body of a quantifier with a single name in place
of the variable. `Formula.instanceOf?` answers by walking through both formulas at once, and finds
the name on the way: nothing is substituted and no name has to be guessed.

## Implementation notes

The walk keeps two things: the variables of the quantifiers that it has entered, and the name
found so far. Where one of those variables is the one being replaced, the occurrence is bound
inside the body and has to stay as it is. A free occurrence may only stand against a name that
none of the entered quantifiers binds: otherwise that name would be captured, and the formula
would not be an instance.
-/

namespace NaturalDeduction

/-- How one formula is an instance of another. -/
inductive Instance where
  /-- The variable does not occur free in the body, which is therefore its own only instance. -/
  | vacuous
  /-- Every free occurrence of the variable was replaced by this name. -/
  | name (n : Name)
deriving DecidableEq, Repr

namespace Formula

/-- The name that has been found so far after `pattern`, an argument in the body, has met
`target`; `none` if they do not fit together. The variables of the quantifiers around the
argument are `bound`.
-/
def matchName (x : Name) (bound : List Name) (found : Option Name) (pattern target : Name) :
    Option (Option Name) :=
  if pattern = x ∧ x ∉ bound then
    if target ∈ bound then none
    else
      match found with
      | none => some (some target)
      | some name => if name = target then some found else none
  else if pattern = target then some found
  else none

/-- Argument lists fit together if they have one length and fit name by name. -/
def matchNames (x : Name) (bound : List Name) (found : Option Name) :
    (patterns targets : List Name) → Option (Option Name)
  | [], [] => some found
  | p :: ps, t :: ts =>
    (matchName x bound found p t).bind fun found => matchNames x bound found ps ts
  | _, _ => none

/-- The name found after the whole of a body has met a formula; `none` if they do not fit. -/
def matchBody (x : Name) (bound : List Name) (found : Option Name) :
    (body target : Formula) → Option (Option Name)
  | atom p ps, atom t ts => if p = t then matchNames x bound found ps ts else none
  | not φ, not ψ => matchBody x bound found φ ψ
  | binary c l r, binary c' l' r' =>
    if c = c' then (matchBody x bound found l l').bind fun found => matchBody x bound found r r'
    else none
  | quantified q y φ, quantified q' y' ψ =>
    if q = q' ∧ y = y' then matchBody x (y :: bound) found φ ψ else none
  | bottom, bottom => some found
  | top, top => some found
  | _, _ => none

/-- How `target` is `body` with the free occurrences of `x` replaced throughout by one name, without
that name being captured; `none` if it is not. -/
def instanceOf? (body : Formula) (x : Name) (target : Formula) : Option Instance :=
  (matchBody x [] none body target).map fun
    | none => .vacuous
    | some name => .name name

end Formula

end NaturalDeduction
