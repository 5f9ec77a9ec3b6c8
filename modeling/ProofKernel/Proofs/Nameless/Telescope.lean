import Mathlib.Data.List.Basic
import Mathlib.Data.List.Induction
import Mathlib.Logic.Function.Iterate
import Mathlib.Tactic.Tauto
import ProofKernel.Proofs.Nameless.Cases
import ProofKernel.Proofs.Nameless.Spine

/-!
# Telescopes

Products over several binders at once, and what the names of the binders mean inside them.

* `Nameless.pis` is a product over a list of types, each inside the binders before it.  What it is
  over and what it ends in can be read off it (`Nameless.pis_injective`).
* `Telescope.types` are the types of named binders; `Term.interpret_pis` reads a product over them.
* `Naming.underAll_of_mem`: **inside several binders, a name means the innermost one of that name**.
  `Naming.map_underAll_eq_boundVars_iff` says when the names of the outer binders mean these
  binders.
-/

set_option autoImplicit false
namespace ProofKernel

open Term (interpret)

namespace Nameless

/-! ## Products -/

/-- The product over binders of these types, outermost first. -/
def pis (types : List Nameless) (u : Nameless) : Nameless :=
  types.foldr pi u

@[simp] theorem pis_nil (u : Nameless) : pis [] u = u := rfl

@[simp] theorem pis_cons (a : Nameless) (types : List Nameless) (u : Nameless) :
    pis (a :: types) u = pi a (pis types u) := rfl

theorem pis_append (as bs : List Nameless) (u : Nameless) : pis (as ++ bs) u = pis as (pis bs u) :=
  List.foldr_append

/-- A product is over what it is written over, if what it ends in is no product. -/
theorem pis_injective {as bs : List Nameless} {u v : Nameless} (hu : ∀ a b, u ≠ pi a b)
    (hv : ∀ a b, v ≠ pi a b) (h : pis as u = pis bs v) : as = bs ∧ u = v := by
  induction as generalizing bs with
  | nil =>
    cases bs with
    | nil => exact ⟨rfl, h⟩
    | cons b bs => exact absurd h (hu _ _)
  | cons a as ih =>
    cases bs with
    | nil => exact absurd h.symm (hv _ _)
    | cons b bs =>
      rw [pis_cons, pis_cons, Nameless.pi.injEq] at h
      obtain ⟨rfl, rfl⟩ := ih h.2
      exact ⟨congrArg (· :: as) h.1, rfl⟩

/-- What is headed by a global is no product. -/
theorem ne_pi_of_head_global {u : Nameless} {g : String} (h : u.head = global g) (a b : Nameless) :
    u ≠ pi a b := by
  rintro rfl
  cases h

/-! ## The variables of binders -/

/-- The variables of `n` binders, outermost first, inside `inner` more binders. -/
def boundVars (inner : Nat) : Nat → List Nameless
  | 0 => []
  | n + 1 => atom (.bound (inner + n)) :: boundVars inner n

end Nameless

/-! ## Named binders -/

/-- The types of binders, each inside the binders before it. -/
def Telescope.types (σ : Naming) : Telescope → List Nameless
  | [] => []
  | (x, a) :: rest => a.interpret σ :: Telescope.types (σ.under x) rest

theorem Telescope.length_types (σ : Naming) (binders : Telescope) :
    (binders.types σ).length = binders.length := by
  induction binders generalizing σ with
  | nil => rfl
  | cons b rest ih => rw [types, List.length_cons, List.length_cons, ih]

/-- A product over named binders. -/
theorem Term.interpret_pis (σ : Naming) (binders : Telescope) (t : Term) :
    (pis binders t).interpret σ =
      .pis (binders.types σ) (t.interpret (σ.underAll (binders.map Prod.fst))) := by
  induction binders generalizing σ with
  | nil => rfl
  | cons b rest ih => exact congrArg (Nameless.pi _) (ih (σ.under b.1))

namespace Naming

variable {x : String} {xs ys : List String}

theorem underAll_cons (σ : Naming) (x : String) (xs : List String) :
    σ.underAll (x :: xs) = (σ.under x).underAll xs := rfl

theorem underAll_concat (σ : Naming) (xs : List String) (x : String) :
    σ.underAll (xs ++ [x]) = (σ.underAll xs).under x := by
  rw [underAll, List.foldl_append]
  rfl

/-- **Inside several binders, a name means the innermost one of that name.** -/
theorem underAll_of_mem (hx : x ∈ xs) (σ : Naming) :
    σ.underAll xs x = .atom (.bound (xs.reverse.idxOf x)) := by
  induction xs using List.reverseRecOn with
  | nil => cases hx
  | append_singleton xs y ih =>
    rw [underAll_concat, List.reverse_concat]
    by_cases hxy : x = y
    · rw [hxy, under_self, List.idxOf_cons_self]
    · have hmem : x ∈ xs := (List.mem_append.1 hx).resolve_right fun h =>
        hxy (List.mem_singleton.1 h)
      rw [under_of_ne hxy, ih hmem, List.idxOf_cons_ne _ (Ne.symm hxy)]
      rfl

/-- A name that no binder has means what it does outside. -/
theorem underAll_of_not_mem (hx : x ∉ xs) (σ : Naming) :
    σ.underAll xs x = Nameless.shift^[xs.length] (σ x) := by
  induction xs generalizing σ with
  | nil => rfl
  | cons y ys ih =>
    rw [List.mem_cons, not_or] at hx
    rw [underAll_cons, ih hx.2, under_of_ne hx.1, List.length_cons, Function.iterate_succ_apply]

theorem iterate_shift_bound (n i : Nat) :
    Nameless.shift^[n] (.atom (.bound i)) = .atom (.bound (i + n)) := by
  induction n with
  | zero => rfl
  | succ n ih =>
    rw [Function.iterate_succ_apply', ih]
    rfl

/-- The outermost of several binders is what its name means inside them iff no other one has it. -/
theorem underAll_under_self_iff (σ : Naming) :
    (σ.under x).underAll xs x = .atom (.bound xs.length) ↔ x ∉ xs := by
  constructor
  · intro h hx
    rw [underAll_of_mem hx, Nameless.atom.injEq, Atom.bound.injEq] at h
    have := List.idxOf_lt_length_of_mem (List.mem_reverse.2 hx)
    rw [List.length_reverse] at this
    omega
  · intro hx
    rw [underAll_of_not_mem hx, under_self, iterate_shift_bound, Nat.zero_add]

/-- The names of the outer binders mean these binders iff no binder inside has one of the names. -/
theorem map_underAll_eq_boundVars_iff (σ : Naming) :
    xs.map (σ.underAll (xs ++ ys)) = Nameless.boundVars ys.length xs.length ↔
      xs.Nodup ∧ ∀ x ∈ xs, x ∉ ys := by
  induction xs generalizing σ with
  | nil => simp [Nameless.boundVars]
  | cons x xs ih =>
    rw [List.map_cons, List.cons_append, underAll_cons, List.length_cons, Nameless.boundVars,
      List.cons.injEq, ih, Nat.add_comm, ← List.length_append, underAll_under_self_iff,
      List.nodup_cons, List.forall_mem_cons, List.mem_append, not_or]
    tauto

end Naming
end ProofKernel
