import ProofKernel.Proofs.Nameless.Contraction

/-!
# The references of a fixpoint

Without names, the condition on the recursive calls of a fixpoint is about references: each
reference to the fixpoint is applied to arguments, and the one in structural position is a variable
that a case of a match binds, where the match is on the structural parameter or again on such a
variable.

* `Guard.references` lists the references of a nameless term, each with the binders around it and
  the arguments it is applied to.
* `Guard.Reference.Guarded` is the condition on one reference, `Guard.Condition` that on a fixpoint.
* `Term.varRefs` lists the variables that a term with names refers to.
-/

set_option autoImplicit false
namespace ProofKernel

open Term (interpret)

/-! ## Outsides of nameless terms -/

namespace Nameless

/-- The global at the head of an application. -/
def headGlobal? : Nameless → Option String
  | global x => some x
  | app f _ => f.headGlobal?
  | _ => none

/-- The types that a product is over, outermost first. -/
def domains : Nameless → List Nameless
  | pi a b => a :: b.domains
  | _ => []

end Nameless

namespace Term

variable {σ : Naming}

theorem headGlobal?_interpret (hσ : σ.Faithful) (t : Term) :
    (t.interpret σ).headGlobal? = t.headGlobal? := by
  induction t with
  | var x =>
    obtain ⟨a, ha⟩ := hσ.atomic x
    rw [interpret, ha]
    rfl
  | app f a ihf _ => exact ihf
  | _ => rfl

theorem domains_interpret (hσ : σ.Faithful) (t : Term) :
    (t.interpret σ).domains.map Nameless.headGlobal? =
      t.piChain.1.map fun p => p.2.headGlobal? := by
  induction t generalizing σ with
  | var x =>
    obtain ⟨a, ha⟩ := hσ.atomic x
    rw [interpret, ha]
    rfl
  | pi x a b _ ihb =>
    rw [interpret, Nameless.domains, List.map_cons, headGlobal?_interpret hσ, ihb (hσ.under x)]
    rfl
  | _ => rfl

theorem eq_var_of_interpret {t : Term} {a : Atom} (h : t.interpret σ = .atom a) :
    ∃ x, t = .var x := by
  cases t with
  | var x => exact ⟨x, rfl⟩
  | _ => cases h

mutual

/-- The variables that a term refers to, bound or free, each as often as it does. -/
def varRefs : Term → List String
  | sort _ | global _ | lit _ | hole => []
  | var x => [x]
  | pi _ a b | lam _ a b | app a b => a.varRefs ++ b.varRefs
  | elim s m cases => s.varRefs ++ m.varRefs ++ varRefsAll cases
  | fix _ b => b.varRefs

/-- The variables that a list of terms refers to. -/
def varRefsAll : List Term → List String
  | [] => []
  | t :: rest => t.varRefs ++ varRefsAll rest

end

theorem mem_varRefsAll {x : String} {ts : List Term} :
    x ∈ varRefsAll ts ↔ ∃ t ∈ ts, x ∈ t.varRefs := by
  induction ts with
  | nil => simp [varRefsAll]
  | cons t ts ih => simp [varRefsAll, ih]

end Term

/-- Whether a name is not empty, and that of an inductive type. -/
def SymbolTable.isNamedFamily (table : SymbolTable) (name : String) : Bool :=
  name != "" && table.isFamily name

namespace Guard

/-! ## References -/

/-- What a binder around a reference binds. -/
inductive Binder where
  | fixpoint
  /-- The structural parameter, which an inductive type heads the type of. -/
  | parameter (family : String)
  /-- A field of a constructor that a case is for, in a match on the structural parameter or on
  another such field; and the inductive type that it can be matched at in turn, if any. -/
  | field (family : Option String)
  | other
deriving DecidableEq

/-- The inductive type at which a variable can be matched for smaller ones. -/
def Binder.family? : Binder → Option String
  | parameter family => some family
  | field family => family
  | fixpoint | other => none

/-- Where a part of the body of a fixpoint stands. -/
inductive Place where
  /-- Among the leading functions, so many of which come before the structural parameter. -/
  | parameters (before : Nat)
  /-- In a case, with fields that are not bound yet. -/
  | fields (families : List (Option String))
  /-- Anywhere else, applied to arguments. -/
  | applied (args : List Nameless)

namespace Place

def operand : Place :=
  applied []

def args : Place → List Nameless
  | applied args => args
  | parameters _ | fields _ => []

/-- What a function at a place binds. -/
def binder : Place → Nameless → Binder
  | parameters 0, type => (type.headGlobal?.map .parameter).getD .other
  | fields (family :: _), _ => .field family
  | parameters (_ + 1), _ | fields [], _ | applied _, _ => .other

/-- The place of the body of a function at a place. -/
def body : Place → Place
  | parameters (n + 1) => parameters n
  | fields (_ :: rest) => fields rest
  | parameters 0 | fields [] | applied _ => operand

end Place

/-- A reference to a bound variable: the binders around it, innermost first, which of them it refers
to, and the arguments that it is applied to. -/
structure Reference where
  binders : List Binder
  index : Nat
  args : List Nameless

/-- A reference that is not to the fixpoint, or that passes a field in structural position. -/
def Reference.Guarded (structural : Nat) (r : Reference) : Prop :=
  r.binders[r.index]? = some .fixpoint →
    ∃ k family, r.args[structural]? = some (.atom (.bound k)) ∧
      r.binders[k]? = some (.field family)

instance (structural : Nat) (r : Reference) : Decidable (r.Guarded structural) :=
  let passed : Option Binder := match r.args[structural]? with
    | some (.atom (.bound k)) => r.binders[k]?
    | _ => none
  have hpassed : (∃ family, passed = some (.field family)) ↔
      ∃ k family, r.args[structural]? = some (.atom (.bound k)) ∧
        r.binders[k]? = some (.field family) := by
    simp only [passed]
    split <;> simp_all
  have : Decidable (∃ family, passed = some (.field family)) :=
    match passed with
    | some (.field family) => isTrue ⟨family, rfl⟩
    | some .fixpoint | some (.parameter _) | some .other | none => isFalse (by simp)
  decidable_of_iff (r.binders[r.index]? = some .fixpoint → ∃ family, passed = some (.field family))
    (imp_congr_right fun _ => hpassed)

section

variable (table : SymbolTable) (matchable : String → Bool)

/-- For each field of a constructor, the inductive type that heads its type, if there is one that
can be matched further. -/
def fieldsOf (constructor : String) : List (Option String) :=
  match table.constructor? constructor with
  | none => []
  | some c =>
    match table.family? c.family with
    | none => []
    | some family =>
      (c.type.nameless.domains.drop family.params).map fun type => type.headGlobal?.filter matchable

/-- The constructors that the cases of a match are for, if the match is on a variable that can be
matched for smaller ones. -/
def constructorsAt (binders : List Binder) : Nameless → List String
  | .atom (.bound k) =>
    match binders[k]?.bind Binder.family? with
    | some family => ((table.family? family).map (·.constructors)).getD []
    | none => []
  | _ => []

/-- The place of a case, given the constructor that it is for. -/
def casePlace : Option String → Place
  | none => .operand
  | some constructor => .fields (fieldsOf table matchable constructor)

mutual

/-- The references of a term at a place inside binders. -/
def references (binders : List Binder) (place : Place) : Nameless → List Reference
  | .atom (.bound k) => [⟨binders, k, place.args⟩]
  | .atom (.free _) | .sort _ | .global _ | .lit _ | .hole => []
  | .app f a =>
    references binders (.applied (a :: place.args)) f ++ references binders .operand a
  | .lam a b =>
    references binders .operand a ++ references (place.binder a :: binders) place.body b
  | .pi a b => references binders .operand a ++ references (.other :: binders) .operand b
  | .fix b => references (.other :: binders) .operand b
  | .elim s m cases =>
    references binders .operand s ++ references binders .operand m ++
      referencesAll binders (constructorsAt table binders s) cases

/-- The references of the cases of a match. -/
def referencesAll (binders : List Binder) (constructors : List String) :
    List Nameless → List Reference
  | [] => []
  | c :: rest =>
    references binders (casePlace table matchable constructors.head?) c ++
      referencesAll binders constructors.tail rest

end

/-- The guard condition on the body of a fixpoint, where `matchable` says at which inductive types
a field can be matched: there is a structural parameter, and each reference to the fixpoint passes
a field in its position. -/
def Condition (body : Nameless) : Prop :=
  ∃ index, Nameless.StructuralArgument table body index ∧
    ∀ r ∈ references table matchable [.fixpoint] (.parameters index) body, r.Guarded index

end

end Guard
end ProofKernel
