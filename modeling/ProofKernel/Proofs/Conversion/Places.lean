import Mathlib.Logic.Function.Iterate
import ProofKernel.Proofs.Conversion.Step
import ProofKernel.Proofs.Nameless.Spine

/-!
# Structural positions through reduction

The reducer reads the structural position of a fixpoint off the binder types of its body, as they
are at the time.  A contraction may move it: one in a binder type, or one that puts an inductive
type into it.

* `Nameless.KeepsPlaces` is a substitution that moves no position in a term.
* `Nameless.Steady` is a term in which no contraction moves a position, `Nameless.Calm` one that
  reduces to such terms only.
-/

set_option autoImplicit false
namespace ProofKernel
namespace Nameless

variable {table : SymbolTable} {u v : Nameless} {τ : Atom → Nameless}

/-! ## Parts -/

/-- A part of a term, and the number of binders that it is inside of. -/
inductive Part : Nat → Nameless → Nameless → Prop
  | whole (u : Nameless) : Part 0 u u
  | inside {k : Nat} {p u : Nameless} (slot : Slot) (h : Part k p u) :
      Part (k + slot.binders) p (slot.fill u)

/-! ## Substitution -/

/-- A substitution leaves the structural position of each fixpoint in a term alone. -/
def KeepsPlaces (table : SymbolTable) (τ : Atom → Nameless) (u : Nameless) : Prop :=
  ∀ k b i, Part k (fix b) u → StructuralArgument table b i →
    StructuralArgument table (b.subst (lift^[k + 1] τ)) i

namespace KeepsPlaces

theorem part (slot : Slot) (h : KeepsPlaces table τ (slot.fill u)) :
    KeepsPlaces table (lift^[slot.binders] τ) u := by
  intro k b i hpart hb
  have hkeep := h _ b i (.inside slot hpart) hb
  rwa [Nat.add_right_comm, Function.iterate_add_apply] at hkeep

theorem case {s m c : Nameless} {cases : List Nameless} (h : KeepsPlaces table τ (elim s m cases))
    (hc : c ∈ cases) : KeepsPlaces table τ c := by
  obtain ⟨front, back, rfl⟩ := List.append_of_mem hc
  exact part (.case s m front back) h

/-- A substitution of terms that no inductive type heads moves no position. -/
theorem of_not_headed (hτ : ∀ a, ¬HeadedByFamily table (τ a)) (u : Nameless) :
    KeepsPlaces table τ u := by
  intro k b i _ hb
  refine hb.subst ?_
  generalize k + 1 = n
  induction n with
  | zero => exact hτ
  | succ n ih =>
    rw [Function.iterate_succ_apply']
    exact not_headedByFamily_lift ih

/-- Unfolding a fixpoint moves no position. -/
theorem point_fix (b u : Nameless) : KeepsPlaces table (point (fix b)) u := by
  refine of_not_headed (fun a => ?_) u
  match a with
  | .bound 0 | .bound (_ + 1) | .free _ => simp [point, headedByFamily_iff_head, head]

theorem atom_comp (f : Atom → Atom) (u : Nameless) : KeepsPlaces table (atom ∘ f) u :=
  of_not_headed (fun a => by simp [headedByFamily_iff_head, head]) u

end KeepsPlaces

theorem Awaits.subst {i : Nat} (h : Awaits table u i) (hkeep : KeepsPlaces table τ u) :
    Awaits table (u.subst τ) i := by
  induction h with
  | fix h => exact .fix (hkeep 0 _ _ (.whole _) h)
  | app _ ih => exact .app (ih (hkeep.part (.frame (.fn _))))

/-! ## Contractions -/

/-- No contraction in a term moves the structural position of a fixpoint of it: neither one in the
body of the fixpoint, nor one of a function that the fixpoint is a part of. -/
structure Steady (table : SymbolTable) (u : Nameless) : Prop where
  step : ∀ {k b b' i}, Part k (fix b) u → Step table b b' → StructuralArgument table b i →
    StructuralArgument table b' i
  beta : ∀ {k a b c}, Part k (app (lam a b) c) u → KeepsPlaces table (point c) b

/-- No contraction moves the structural position of a fixpoint, in whatever a term reduces to. -/
def Calm (table : SymbolTable) (u : Nameless) : Prop :=
  ∀ v, Steps table u v → Steady table v

namespace Calm

theorem steps (h : Calm table u) (huv : Steps table u v) : Calm table v :=
  fun w hw => h w (huv.trans hw)

theorem part (slot : Slot) (h : Calm table (slot.fill u)) : Calm table u := by
  intro v hv
  have hsteady := h _ (hv.fill slot)
  exact ⟨fun hpart => hsteady.step (.inside slot hpart),
    fun hpart => hsteady.beta (.inside slot hpart)⟩

theorem case {s m c : Nameless} {cases : List Nameless} (h : Calm table (elim s m cases))
    (hc : c ∈ cases) : Calm table c := by
  obtain ⟨front, back, rfl⟩ := List.append_of_mem hc
  exact part (.case s m front back) h

/-- Steps in the body of a fixpoint leave its structural position where it is. -/
theorem structuralArgument {b b' : Nameless} {i : Nat} (h : Calm table (fix b))
    (hb : StructuralArgument table b i) (hsteps : Steps table b b') :
    StructuralArgument table b' i := by
  induction hsteps with
  | refl => exact hb
  | tail hsteps hstep ih => exact (h _ (Steps.fix hsteps)).step (.whole _) hstep ih

end Calm
end Nameless
end ProofKernel
