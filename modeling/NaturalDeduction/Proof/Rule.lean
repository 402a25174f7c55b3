import NaturalDeduction.Text.Blank

/-!
# Rules of inference

The twenty rules of the calculus, and the names by which proofs refer to them. Each rule has a
canonical name; some have a second, traditional one. Case does not matter in a name, and a blank or
an underscore may stand for a hyphen.
-/

namespace NaturalDeduction

/-- The rules. -/
inductive Rule where
  | premise
  | assumption
  | reiteration
  | andIntro
  | andElim
  | orIntro
  | orElim
  | impliesIntro
  | impliesElim
  | notIntro
  | notElim
  | contradictionIntro
  | contradictionElim
  | tautologyIntro
  | iffIntro
  | iffElim
  | forAllIntro
  | forAllElim
  | forSomeIntro
  | forSomeElim
deriving DecidableEq, Repr

namespace Rule

/-- Every rule once. -/
def all : List Rule :=
  [premise, assumption, reiteration, andIntro, andElim, orIntro, orElim, impliesIntro, impliesElim,
   notIntro, notElim, contradictionIntro, contradictionElim, tautologyIntro, iffIntro, iffElim,
   forAllIntro, forAllElim, forSomeIntro, forSomeElim]

theorem mem_all (rule : Rule) : rule ∈ all := by cases rule <;> decide

/-- The canonical name. -/
def name : Rule → String
  | premise => "premise"
  | assumption => "assumption"
  | reiteration => "reiteration"
  | andIntro => "and-intro"
  | andElim => "and-elim"
  | orIntro => "or-intro"
  | orElim => "or-elim"
  | impliesIntro => "implies-intro"
  | impliesElim => "implies-elim"
  | notIntro => "not-intro"
  | notElim => "not-elim"
  | contradictionIntro => "contradiction-intro"
  | contradictionElim => "contradiction-elim"
  | tautologyIntro => "tautology-intro"
  | iffIntro => "iff-intro"
  | iffElim => "iff-elim"
  | forAllIntro => "forall-intro"
  | forAllElim => "forall-elim"
  | forSomeIntro => "exists-intro"
  | forSomeElim => "exists-elim"

/-- The traditional name, if the rule has one. -/
def alias? : Rule → Option String
  | assumption => some "assume"
  | reiteration => some "reit"
  | impliesIntro => some "conditional-proof"
  | impliesElim => some "modus-ponens"
  | notElim => some "double-negation"
  | contradictionElim => some "explosion"
  | iffIntro => some "biconditional-intro"
  | iffElim => some "biconditional-elim"
  | _ => none

/-- A name as written, brought to the form of the canonical names: without surrounding blanks, in
lower case, and with hyphens. -/
def normalizeName (text : String) : String :=
  String.ofList <| (Text.trim text.toList).map fun c => if c = '_' ∨ c = ' ' then '-' else c.toLower

/-- The rule of a given name. -/
def ofName? (text : String) : Option Rule :=
  let name := normalizeName text
  all.find? fun rule => rule.name = name ∨ rule.alias? = some name

/-- The rules that introduce and eliminate quantifiers, which predicate logic alone has. -/
def needsQuantifiers : Rule → Bool
  | forAllIntro | forAllElim | forSomeIntro | forSomeElim => true
  | _ => false

end Rule

end NaturalDeduction
