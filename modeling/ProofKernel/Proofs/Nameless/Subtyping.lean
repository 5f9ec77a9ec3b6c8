import ProofKernel.Proofs.Nameless.Equality
import ProofKernel.Proofs.Typing.Rules

/-!
# Subtyping as a partial order

Subtyping compares normal forms by cumulativity of universes and contravariance of products, and
is read off their nameless forms.  Two nameless forms that agree are below one another, and two that
are below one another agree.

* `Nameless.Agrees.le` and `Nameless.Le.antisymm` are the two directions.
* `isSubtype_partialOrder` is subtyping of types whose normal forms are definite, with equality up
  to bound names for equality.
-/

set_option autoImplicit false
namespace ProofKernel

theorem Universe.le_antisymm {u v : Universe} (h : u.le v = true) (h' : v.le u = true) : u = v := by
  cases u <;> cases v <;> simp_all [le]
  exact Int64.le_antisymm h h'

/-! ## The order of nameless forms -/

namespace Nameless

/-- What agrees is below one another. -/
theorem Agrees.le {u v : Nameless} : Agrees u v → Le u v
  | .left h => .left h
  | .right h => .right h
  | .sort u => .sort u.le_refl
  -- the domain is compared the other way round
  | .pi ha hb => .pi (le ha.symm) (le hb)
  | h@(.atom _) | h@(.global _) | h@(.lit _) | h@(.lam _ _) | h@(.app _ _) | h@(.elim _ _ _)
  | h@(.fix _) => .other h nofun nofun
termination_by sizeOf u + sizeOf v

/-- **The order of types is antisymmetric**: what is below one another agrees. -/
theorem Le.antisymm {u v : Nameless} : Le u v → Le v u → Agrees u v
  | .left h, _ => .left h
  | .right h, _ => .right h
  | .other h _ _, _ => h
  | _, .other h _ _ => h.symm
  | _, .left h => .right h
  | _, .right h => .left h
  | .sort h, .sort h' => Universe.le_antisymm h h' ▸ .sort _
  | .pi ha hb, .pi ha' hb' => .pi (antisymm ha' ha) (antisymm hb hb')
termination_by sizeOf u + sizeOf v

/-- What agrees with one side of a comparison may stand in its place. -/
theorem Le.congr {u v u' v' : Nameless} (hu : u.Settled) (hv : v.Settled) (h : Le u v)
    (hu' : Agrees u u') (hv' : Agrees v v') : Le u' v' :=
  (hu'.symm.le.trans hu h).trans hv hv'.le

end Nameless

/-! ## Subtyping -/

theorem Term.le_iff_nameless (t u : Term) :
    t.le u = true ↔ Nameless.Le t.nameless u.nameless := by
  rw [le_eq Naming.faithful_free, Nameless.le_iff]
  rfl

theorem isSubtype_iff {options : Options} {table : SymbolTable} {a b : Term} :
    (isSubtype options table a b).value = true ↔
      Nameless.Le (normalize options table a).value.nameless
        (normalize options table b).value.nameless := by
  rw [isSubtype_value, ← SymbolTable.value_normalize, ← SymbolTable.value_normalize,
    Term.le_iff_nameless]

/-- **Subtyping is a partial order up to bound names.**  A type whose normal form has no NaN is a
subtype of itself; subtyping goes through a type whose normal form has no placeholders; types that
are subtypes of one another have normal forms that are equal up to bound names.  Whether one type is
a subtype of another does not change when either is replaced by a type whose normal form has the
same nameless form; nor, without placeholders, when it is replaced by one whose normal form is equal
up to bound names. -/
theorem isSubtype_partialOrder (options : Options) (table : SymbolTable) :
    let normal := fun t => (normalize options table t).value
    let below := fun a b => (isSubtype options table a b).value
    let given := fun t => (normal t).Over Leaf.Given
    (∀ a, (normal a).Numeric → below a a = true) ∧
    (∀ a b c, given b → below a b = true → below b c = true → below a c = true) ∧
    (∀ a b, below a b = true → below b a = true → (normal a).agrees (normal b) = true) ∧
    (∀ a a' b b', (normal a).nameless = (normal a').nameless →
      (normal b).nameless = (normal b').nameless → below a b = below a' b') ∧
    (∀ a a' b b', given a → given a' → given b → given b' →
      (normal a).agrees (normal a') = true → (normal b).agrees (normal b') = true →
      below a b = below a' b') := by
  intro normal below given
  have hsettled : ∀ {t}, given t → (normal t).nameless.Settled :=
    fun h => h.settled Naming.faithful_free
  refine ⟨?refl, ?trans, ?antisymm, ?renamed, ?replaced⟩
  case refl =>
    intro a ha
    have hself : Nameless.Agrees (normal a).nameless (normal a).nameless :=
      ha.agrees_self Naming.faithful_free
    exact isSubtype_iff.2 hself.le
  case trans =>
    intro a b c hb hab hbc
    exact isSubtype_iff.2 ((isSubtype_iff.1 hab).trans (hsettled hb) (isSubtype_iff.1 hbc))
  case antisymm =>
    intro a b hab hba
    have hagree := (isSubtype_iff.1 hab).antisymm (isSubtype_iff.1 hba)
    exact (Term.agrees_iff_nameless _ _).2 hagree
  case renamed =>
    intro a a' b b' ha hb
    rw [Bool.eq_iff_iff, isSubtype_iff, isSubtype_iff]
    exact iff_of_eq (congrArg₂ Nameless.Le ha hb)
  case replaced =>
    intro a a' b b' ha ha' hb hb' haa hbb
    rw [Term.agrees_iff_nameless] at haa hbb
    rw [Bool.eq_iff_iff, isSubtype_iff, isSubtype_iff]
    constructor
    · exact fun h => h.congr (hsettled ha) (hsettled hb) haa hbb
    · exact fun h => h.congr (hsettled ha') (hsettled hb') haa.symm hbb.symm

/-- Functions into universes, in three sizes and over three names: a larger domain makes a smaller
type. -/
theorem isSubtype_partialOrder_functions :
    let options : Options := ⟨10, false, false, false⟩
    let table : SymbolTable := ⟨Layer.empty, []⟩
    let small := Term.pi "x" (.sort (.type 1)) (.sort .prop)
    let middle := Term.pi "y" (.sort (.type 0)) (.sort (.type 0))
    let large := Term.pi "z" (.sort .prop) (.sort (.type 1))
    let below := fun a b => (isSubtype options table a b).value
    middle.Definite ∧ below small middle = true ∧ below middle large = true ∧
      below small large = true ∧ below middle middle = true ∧ ¬below large small = true := by
  intro options table small middle large below
  have hgiven : middle.Over Leaf.Given := by simp [middle]
  have hnumeric : middle.Numeric := by simp [middle, Term.Numeric, Term.literals]
  have hsmall : below small middle = true := isSubtype_iff.2 (.pi (.sort rfl) (.sort rfl))
  have hlarge : below middle large = true := isSubtype_iff.2 (.pi (.sort rfl) (.sort rfl))
  obtain ⟨hrefl, htrans, hantisymm, -, -⟩ := isSubtype_partialOrder options table
  have hsl := htrans small middle large hgiven hsmall hlarge
  refine ⟨⟨hgiven, hnumeric⟩, hsmall, hlarge, hsl, hrefl middle hnumeric, fun hls => ?_⟩
  -- the two would be equal up to bound names
  have hagree := (Term.agrees_iff_nameless _ _).1 (hantisymm small large hsl hls)
  cases hagree with
  | left h | right h => cases h
  | pi ha hb => cases ha with | left h | right h => cases h

end ProofKernel
