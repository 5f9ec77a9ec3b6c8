import ProofKernel.Term

/-!
# Nameless terms

Terms in which a bound variable is the number of binders between it and its own, and a free variable
is a name.  Two terms that differ only in the names of bound variables have the same nameless form,
so that a function of the nameless form cannot depend on them.

* `Nameless.rename` and `Nameless.subst` replace the variables of a nameless term; they go under
  binders by `Atom.lift` and `Nameless.lift`.
* `Nameless.rename_subst` and `Nameless.subst_rename` compose the two.
* `Nameless.frees` lists the names of the free variables.
-/

set_option autoImplicit false
namespace ProofKernel

/-- A variable of a nameless term. -/
inductive Atom where
  /-- Bound by the binder that so many binders lie inside of. -/
  | bound (index : Nat)
  | free (name : String)
deriving DecidableEq

/-- A term without the names of its bound variables. -/
inductive Nameless where
  | sort (u : Universe)
  | atom (a : Atom)
  | global (name : String)
  | pi (type body : Nameless)
  | lam (type body : Nameless)
  | app (fn arg : Nameless)
  | elim (scrutinee motive : Nameless) (cases : List Nameless)
  | fix (body : Nameless)
  | lit (value : Literal)
  | hole

namespace Atom

/-- A variable seen from inside another binder. -/
def succ : Atom → Atom
  | bound i => bound (i + 1)
  | free x => free x

/-- A renaming of variables, seen from inside a binder. -/
def lift (f : Atom → Atom) : Atom → Atom
  | bound 0 => bound 0
  | bound (i + 1) => (f (bound i)).succ
  | free x => (f (free x)).succ

theorem lift_succ (f : Atom → Atom) (a : Atom) : lift f a.succ = (f a).succ := by
  cases a <;> rfl

theorem lift_lift (f g : Atom → Atom) (a : Atom) : lift g (lift f a) = lift (g ∘ f) a := by
  match a with
  | bound 0 => rfl
  | bound (i + 1) => exact lift_succ g (f (bound i))
  | free x => exact lift_succ g (f (free x))

/-- The name of a variable that is free. -/
def frees : Atom → List String
  | bound _ => []
  | free x => [x]

theorem frees_succ (a : Atom) : a.succ.frees = a.frees := by
  cases a <;> rfl

end Atom

namespace Nameless

/-- Induction on nameless terms, with the property of each case of a `match`. -/
@[induction_eliminator, elab_as_elim]
theorem induct {P : Nameless → Prop}
    (sort : ∀ u, P (.sort u))
    (atom : ∀ a, P (.atom a))
    (global : ∀ x, P (.global x))
    (pi : ∀ a b, P a → P b → P (.pi a b))
    (lam : ∀ a b, P a → P b → P (.lam a b))
    (app : ∀ f a, P f → P a → P (.app f a))
    (elim : ∀ s m cases, P s → P m → (∀ c ∈ cases, P c) → P (.elim s m cases))
    (fix : ∀ b, P b → P (.fix b))
    (lit : ∀ l, P (.lit l))
    (hole : P .hole) (u : Nameless) : P u :=
  @Nameless.rec P (fun cases => ∀ c ∈ cases, P c) sort atom global pi lam app elim fix lit hole
    (by simp) (by simp +contextual) u

/-! ## Renaming -/

mutual

/-- Replaces each variable by another one. -/
def rename (f : Atom → Atom) : Nameless → Nameless
  | sort u => sort u
  | atom a => atom (f a)
  | global x => global x
  | pi a b => pi (a.rename f) (b.rename (Atom.lift f))
  | lam a b => lam (a.rename f) (b.rename (Atom.lift f))
  | app g a => app (g.rename f) (a.rename f)
  | elim s m cases => elim (s.rename f) (m.rename f) (renameAll f cases)
  | fix b => fix (b.rename (Atom.lift f))
  | lit l => lit l
  | hole => hole

/-- Replaces each variable in a list of terms. -/
def renameAll (f : Atom → Atom) : List Nameless → List Nameless
  | [] => []
  | u :: rest => u.rename f :: renameAll f rest

end

section

attribute [local simp] rename renameAll

theorem renameAll_eq_map (f : Atom → Atom) (us : List Nameless) :
    renameAll f us = us.map (rename f) := by
  induction us with
  | nil => simp
  | cons u us ih => simp [ih]

theorem rename_rename (f g : Atom → Atom) (u : Nameless) :
    (u.rename f).rename g = u.rename (g ∘ f) := by
  have hlift : ∀ f g, Atom.lift g ∘ Atom.lift f = Atom.lift (g ∘ f) :=
    fun f g => funext (Atom.lift_lift f g)
  induction u generalizing f g with
  | sort | atom | global | lit | hole => simp
  | pi a b iha ihb | lam a b iha ihb => simp [iha, ihb, hlift]
  | app h a ihh iha => simp [ihh, iha]
  | fix b ihb => simp [ihb, hlift]
  | elim s m cases ihs ihm ihc =>
    simp only [rename, ihs, ihm, renameAll_eq_map, List.map_map]
    congr 1
    exact List.map_congr_left fun c hc => ihc c hc f g

end

/-- A term seen from inside another binder. -/
def shift (u : Nameless) : Nameless :=
  u.rename Atom.succ

@[simp] theorem shift_atom (a : Atom) : (atom a).shift = atom a.succ := rfl

theorem rename_shift (f : Atom → Atom) (u : Nameless) :
    u.shift.rename (Atom.lift f) = (u.rename f).shift := by
  rw [shift, shift, rename_rename, rename_rename]
  exact congrArg u.rename (funext (Atom.lift_succ f))

/-! ## Substitution -/

/-- A substitution for variables, seen from inside a binder. -/
def lift (τ : Atom → Nameless) : Atom → Nameless
  | .bound 0 => atom (.bound 0)
  | .bound (i + 1) => (τ (.bound i)).shift
  | .free x => (τ (.free x)).shift

theorem lift_succ (τ : Atom → Nameless) (a : Atom) : lift τ a.succ = (τ a).shift := by
  cases a <;> rfl

mutual

/-- Replaces each variable by a term. -/
def subst (τ : Atom → Nameless) : Nameless → Nameless
  | sort u => sort u
  | atom a => τ a
  | global x => global x
  | pi a b => pi (a.subst τ) (b.subst (lift τ))
  | lam a b => lam (a.subst τ) (b.subst (lift τ))
  | app g a => app (g.subst τ) (a.subst τ)
  | elim s m cases => elim (s.subst τ) (m.subst τ) (substAll τ cases)
  | fix b => fix (b.subst (lift τ))
  | lit l => lit l
  | hole => hole

/-- Replaces each variable in a list of terms. -/
def substAll (τ : Atom → Nameless) : List Nameless → List Nameless
  | [] => []
  | u :: rest => u.subst τ :: substAll τ rest

end

section

attribute [local simp] rename subst substAll

theorem substAll_eq_map (τ : Atom → Nameless) (us : List Nameless) :
    substAll τ us = us.map (subst τ) := by
  induction us with
  | nil => simp
  | cons u us ih => simp [ih]

/-- Substitution after renaming. -/
theorem subst_rename (f : Atom → Atom) (τ : Atom → Nameless) (u : Nameless) :
    (u.rename f).subst τ = u.subst (τ ∘ f) := by
  have hlift : ∀ (f : Atom → Atom) τ, lift τ ∘ Atom.lift f = lift (τ ∘ f) := by
    intro f τ
    funext a
    match a with
    | .bound 0 => rfl
    | .bound (i + 1) => exact lift_succ τ (f (.bound i))
    | .free x => exact lift_succ τ (f (.free x))
  induction u generalizing f τ with
  | sort | atom | global | lit | hole => rfl
  | pi a b iha ihb | lam a b iha ihb => simp [iha, ihb, hlift]
  | app h a ihh iha => simp [ihh, iha]
  | fix b ihb => simp [ihb, hlift]
  | elim s m cases ihs ihm ihc =>
    simp only [rename, subst, ihs, ihm, renameAll_eq_map, substAll_eq_map, List.map_map]
    congr 1
    exact List.map_congr_left fun c hc => ihc c hc f τ

end

/-- Renaming after substitution. -/
theorem rename_subst (τ : Atom → Nameless) (f : Atom → Atom) (u : Nameless) :
    (u.subst τ).rename f = u.subst (rename f ∘ τ) := by
  have hlift : ∀ (f : Atom → Atom) τ, rename (Atom.lift f) ∘ lift τ = lift (rename f ∘ τ) := by
    intro f τ
    funext a
    match a with
    | .bound 0 => rfl
    | .bound (i + 1) => exact rename_shift f (τ (.bound i))
    | .free x => exact rename_shift f (τ (.free x))
  induction u generalizing f τ with
  | sort | atom | global | lit | hole => rfl
  | pi a b iha ihb | lam a b iha ihb => simp only [rename, subst, iha, ihb, hlift]
  | app h a ihh iha => simp only [rename, subst, ihh, iha]
  | fix b ihb => simp only [rename, subst, ihb, hlift]
  | elim s m cases ihs ihm ihc =>
    simp only [rename, subst, ihs, ihm, renameAll_eq_map, substAll_eq_map, List.map_map]
    congr 1
    exact List.map_congr_left fun c hc => ihc c hc τ f

theorem subst_shift (τ : Atom → Nameless) (u : Nameless) :
    u.shift.subst (lift τ) = (u.subst τ).shift := by
  rw [shift, shift, subst_rename, rename_subst]
  exact congrArg u.subst (funext (lift_succ τ))

theorem lift_atom : lift atom = atom := by
  funext a
  match a with
  | .bound 0 | .bound (_ + 1) | .free _ => rfl

/-- Replacing each variable by itself changes nothing. -/
theorem subst_atom (u : Nameless) : u.subst atom = u := by
  induction u with
  | sort | atom | global | lit | hole => rfl
  | pi a b iha ihb | lam a b iha ihb => simp only [subst, lift_atom, iha, ihb]
  | app h a ihh iha => simp only [subst, ihh, iha]
  | fix b ihb => simp only [subst, lift_atom, ihb]
  | elim s m cases ihs ihm ihc =>
    simp only [subst, ihs, ihm, substAll_eq_map]
    congr 1
    exact (List.map_congr_left ihc).trans (List.map_id' cases)

/-! ## The body of a binder at a value -/

/-- Replaces the innermost bound variable by a term. -/
def point (v : Nameless) : Atom → Nameless
  | .bound 0 => v
  | .bound (i + 1) => atom (.bound i)
  | .free x => atom (.free x)

/-- The body of a binder at a value. -/
def instantiate (u v : Nameless) : Nameless :=
  u.subst (point v)

@[simp] theorem instantiate_shift (u v : Nameless) : u.shift.instantiate v = u := by
  rw [instantiate, shift, subst_rename]
  have hpoint : point v ∘ Atom.succ = atom := by
    funext a
    cases a <;> rfl
  rw [hpoint, subst_atom]

theorem shift_injective : Function.Injective shift := by
  intro u w h
  rw [← instantiate_shift u .hole, h, instantiate_shift]

/-! ## Free variables -/

mutual

/-- The names of the free variables of a nameless term, each as often as it occurs. -/
def frees : Nameless → List String
  | sort _ | global _ | lit _ | hole => []
  | atom a => a.frees
  | pi a b | lam a b | app a b => a.frees ++ b.frees
  | elim s m cases => s.frees ++ m.frees ++ freesAll cases
  | fix b => b.frees

/-- The names of the free variables of a list of terms. -/
def freesAll : List Nameless → List String
  | [] => []
  | u :: rest => u.frees ++ freesAll rest

end

theorem freesAll_eq_flatMap (us : List Nameless) : freesAll us = us.flatMap frees := by
  induction us with
  | nil => rfl
  | cons u us ih => rw [freesAll, ih, List.flatMap_cons]

theorem frees_rename {f : Atom → Atom} (hf : ∀ a, (f a).frees = a.frees) (u : Nameless) :
    (u.rename f).frees = u.frees := by
  have hlift : ∀ f : Atom → Atom, (∀ a, (f a).frees = a.frees) →
      ∀ a, (Atom.lift f a).frees = a.frees := by
    intro f hf a
    match a with
    | .bound 0 => rfl
    | .bound (i + 1) => rw [Atom.lift, Atom.frees_succ, hf]; rfl
    | .free x => rw [Atom.lift, Atom.frees_succ, hf]
  induction u generalizing f with
  | sort | global | lit | hole => rfl
  | atom a => exact hf a
  | pi a b iha ihb | lam a b iha ihb => rw [rename, frees, iha hf, ihb (hlift f hf), frees]
  | app h a ihh iha => rw [rename, frees, ihh hf, iha hf, frees]
  | fix b ihb => rw [rename, frees, ihb (hlift f hf), frees]
  | elim s m cases ihs ihm ihc =>
    rw [rename, frees, ihs hf, ihm hf, frees, renameAll_eq_map, freesAll_eq_flatMap,
      freesAll_eq_flatMap, List.flatMap_map, List.flatMap_def, List.flatMap_def]
    congr 2
    exact List.map_congr_left fun c hc => ihc c hc hf

@[simp] theorem frees_shift (u : Nameless) : u.shift.frees = u.frees :=
  frees_rename Atom.frees_succ u

end Nameless
end ProofKernel
