import ProofKernel.Proofs.Nameless.Interpretation

/-!
# Replacing a free name

In a nameless term a free variable is a name, so that it can be replaced leaf by leaf: no binder can
hide it, and nothing can be captured.  This is what substitution does to the nameless form of a
term, whatever binders it has to rename on the way.

* `Nameless.replace` replaces a free name.
* `Term.shift_nameless`: a nameless form is the same seen from inside a binder, so that it can be
  put anywhere.
* `Term.nameless_substitute`: **substitution replaces the free name**.
-/

set_option autoImplicit false
namespace ProofKernel

/-! ## Replacement -/

/-- What a variable becomes when the free name `x` is replaced by `v`. -/
def Atom.replace (a : Atom) (x : String) (v : Nameless) : Nameless :=
  if a = free x then v else .atom a

namespace Nameless

mutual

/-- A nameless term with each free variable `x` replaced by `v`. -/
def replace (u : Nameless) (x : String) (v : Nameless) : Nameless :=
  match u with
  | sort u => sort u
  | atom a => a.replace x v
  | global y => global y
  | pi a b => pi (a.replace x v) (b.replace x v)
  | lam a b => lam (a.replace x v) (b.replace x v)
  | app f a => app (f.replace x v) (a.replace x v)
  | elim s m cases => elim (s.replace x v) (m.replace x v) (replaceAll cases x v)
  | fix b => fix (b.replace x v)
  | lit l => lit l
  | hole => hole

/-- A list of nameless terms with each free variable `x` replaced by `v`. -/
def replaceAll (us : List Nameless) (x : String) (v : Nameless) : List Nameless :=
  match us with
  | [] => []
  | u :: rest => u.replace x v :: replaceAll rest x v

end

variable {x : String} {v : Nameless}

theorem replaceAll_eq_map (us : List Nameless) (x : String) (v : Nameless) :
    replaceAll us x v = us.map fun u => u.replace x v := by
  induction us with
  | nil => rfl
  | cons u us ih => rw [replaceAll, ih, List.map_cons]

/-- The replacement of a name is the same inside a binder, if what is put there is. -/
theorem lift_replace (hv : v.shift = v) :
    lift (fun a => a.replace x v) = fun a => a.replace x v := by
  funext a
  match a with
  | .bound 0 | .bound (_ + 1) => rfl
  | .free y =>
    by_cases hy : y = x
    · simp [lift, Atom.replace, hy, hv]
    · simp [lift, Atom.replace, hy, Atom.succ]

/-- Replacement of a name is a substitution. -/
theorem replace_eq_subst (hv : v.shift = v) (u : Nameless) :
    u.replace x v = u.subst fun a => a.replace x v := by
  induction u with
  | sort | atom | global | lit | hole => rfl
  | pi a b iha ihb | lam a b iha ihb => rw [replace, subst, lift_replace hv, iha, ihb]
  | app f a ihf iha => rw [replace, subst, ihf, iha]
  | fix b ihb => rw [replace, subst, lift_replace hv, ihb]
  | elim s m cases ihs ihm ihc =>
    rw [replace, subst, ihs, ihm, replaceAll_eq_map, substAll_eq_map, List.map_congr_left ihc]

end Nameless

/-! ## Substitution -/

namespace Term

/-- A nameless form refers to no binder around it. -/
theorem shift_nameless (t : Term) : t.nameless.shift = t.nameless :=
  interpret_rename Atom.succ Naming.free t

/-- **Substitution is capture-avoiding**: the nameless form of a term with `x` replaced by `r` is
the nameless form of the term, with the free name `x` replaced by the nameless form of `r`. -/
theorem nameless_substitute (t : Term) (x : String) (r : Term) :
    (t.substitute x r).nameless = t.nameless.replace x r.nameless := by
  have hmeaning : ∀ y, Naming.free.set x r.nameless y =
      (Naming.free y).subst fun a => a.replace x r.nameless := by
    intro y
    by_cases hy : y = x
    · simp [hy, Naming.free, Nameless.subst, Atom.replace]
    · simp [hy, Naming.set_of_ne, Naming.free, Nameless.subst, Atom.replace]
  calc (t.substitute x r).nameless
      = t.interpret (Naming.free.set x r.nameless) := interpret_substitute t x r Naming.free
    _ = t.interpret fun y => (Naming.free y).subst fun a => a.replace x r.nameless :=
        interpret_congr fun y _ => hmeaning y
    _ = t.nameless.subst fun a => a.replace x r.nameless := (interpret_subst _ Naming.free t).symm
    _ = t.nameless.replace x r.nameless := (Nameless.replace_eq_subst r.shift_nameless _).symm

/-- A binder of the replaced name, and a binder that clashes with the replacement while its new name
clashes with the binder inside it. -/
example : (lam "x" (var "x") (app (var "x") (var "z"))).substitute "x" (var "y") =
      lam "x" (var "y") (app (var "x") (var "z")) ∧
    (pi "y" (var "x") (fix "y'" (app (var "x") (var "y")))).substitute "x" (var "y") =
      pi "y'" (var "y") (fix "y''" (app (var "y") (var "y'"))) := by
  decide +kernel

end Term
end ProofKernel
