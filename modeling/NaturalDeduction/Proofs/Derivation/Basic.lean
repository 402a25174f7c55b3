import NaturalDeduction.Calculus
import NaturalDeduction.Proofs.Formula.Substitution

/-!
# Natural deduction as a relation

The calculus as textbooks define it: a formula is derived from a list of hypotheses, and a rule that
discharges an assumption has a premise with one more hypothesis. There are no line numbers, no
scopes and no citations here. Documents are an account of the same derivations line by line, and
`Derives.exists_document` says that nothing is lost in it.

## Implementation notes

The order of the hypotheses and how often one occurs do not matter to any rule, so there is no
structural rule. Weakening is not among the rules either: a hypothesis need not be used.

An instance is `φ.replace x t` with `φ.FreeFor t x`. If `x` is not free in `φ`, that is `φ` itself,
so a vacuous quantifier needs no rule of its own.

## Main definitions

* `Fresh`: a name that can stand for an arbitrary individual
* `Derives`: derivability from a list of hypotheses
-/

namespace NaturalDeduction

open Formula

/-- A name that is free in none of the formulas. -/
def Fresh (n : Name) (Γ : List Formula) : Prop := ∀ γ ∈ Γ, n ∉ γ.freeNames

/-- Derivability in a calculus. The rules for quantifiers belong to predicate logic alone. -/
inductive Derives (calculus : Calculus) : List Formula → Formula → Prop
  | hypothesis {Γ φ} (h : φ ∈ Γ) : Derives calculus Γ φ
  | andIntro {Γ φ ψ} (hφ : Derives calculus Γ φ) (hψ : Derives calculus Γ ψ) :
    Derives calculus Γ (and φ ψ)
  | andLeft {Γ φ ψ} (h : Derives calculus Γ (and φ ψ)) : Derives calculus Γ φ
  | andRight {Γ φ ψ} (h : Derives calculus Γ (and φ ψ)) : Derives calculus Γ ψ
  | orLeft {Γ φ ψ} (h : Derives calculus Γ φ) : Derives calculus Γ (or φ ψ)
  | orRight {Γ φ ψ} (h : Derives calculus Γ ψ) : Derives calculus Γ (or φ ψ)
  | orElim {Γ φ ψ χ} (h : Derives calculus Γ (or φ ψ)) (hφ : Derives calculus (φ :: Γ) χ)
    (hψ : Derives calculus (ψ :: Γ) χ) : Derives calculus Γ χ
  | impliesIntro {Γ φ ψ} (h : Derives calculus (φ :: Γ) ψ) : Derives calculus Γ (implies φ ψ)
  | impliesElim {Γ φ ψ} (h : Derives calculus Γ (implies φ ψ)) (hφ : Derives calculus Γ φ) :
    Derives calculus Γ ψ
  | notIntro {Γ φ} (h : Derives calculus (φ :: Γ) bottom) : Derives calculus Γ (not φ)
  | notElim {Γ φ} (h : Derives calculus Γ (not (not φ))) : Derives calculus Γ φ
  | bottomIntro {Γ φ} (hφ : Derives calculus Γ φ) (hnot : Derives calculus Γ (not φ)) :
    Derives calculus Γ bottom
  | bottomElim {Γ φ} (h : Derives calculus Γ bottom) : Derives calculus Γ φ
  | topIntro {Γ} : Derives calculus Γ top
  | iffIntro {Γ φ ψ} (hφ : Derives calculus (φ :: Γ) ψ) (hψ : Derives calculus (ψ :: Γ) φ) :
    Derives calculus Γ (iff φ ψ)
  | iffLeft {Γ φ ψ} (h : Derives calculus Γ (iff φ ψ)) (hψ : Derives calculus Γ ψ) :
    Derives calculus Γ φ
  | iffRight {Γ φ ψ} (h : Derives calculus Γ (iff φ ψ)) (hφ : Derives calculus Γ φ) :
    Derives calculus Γ ψ
  | forAllIntro {Γ φ x c} (hq : calculus.hasQuantifiers = true) (hfree : φ.FreeFor c x)
    (hc : Fresh c (forAll x φ :: Γ)) (h : Derives calculus Γ (φ.replace x c)) :
    Derives calculus Γ (forAll x φ)
  | forAllElim {Γ φ x t} (hq : calculus.hasQuantifiers = true) (hfree : φ.FreeFor t x)
    (h : Derives calculus Γ (forAll x φ)) : Derives calculus Γ (φ.replace x t)
  | forSomeIntro {Γ φ x t} (hq : calculus.hasQuantifiers = true) (hfree : φ.FreeFor t x)
    (h : Derives calculus Γ (φ.replace x t)) : Derives calculus Γ (forSome x φ)
  | forSomeElim {Γ φ x c χ} (hq : calculus.hasQuantifiers = true) (hfree : φ.FreeFor c x)
    (hc : Fresh c (forSome x φ :: χ :: Γ)) (h : Derives calculus Γ (forSome x φ))
    (hχ : Derives calculus (φ.replace x c :: Γ) χ) : Derives calculus Γ χ

end NaturalDeduction
