import ProofKernel.Proofs.Nameless.Order

/-!
# Equality up to bound names

Two terms agree when their nameless forms do, position by position.  A placeholder agrees with
everything, and a NaN with nothing, itself included; on terms that have neither, agreement is an
equivalence.

* `Nameless.Agrees.symm`: agreement is symmetric on all terms.
* `Term.Numeric.agrees_self`: a term without NaN agrees with itself.
* `Term.Definite` is a term without placeholders and without NaN.
* `Term.agrees_decides` puts together what `Term.agrees` decides.
-/

set_option autoImplicit false
namespace ProofKernel

/-! ## Literals -/

theorem Binary64.same_comm (x y : Binary64) : x.same y = y.same x := by
  simp only [same, Bool.and_comm, BEq.comm]

theorem Literal.same_comm (a b : Literal) : a.same b = b.same a := by
  cases a <;> cases b <;> simp only [same, BEq.comm, Binary64.same_comm]

/-- Whether a literal is a float that is no number. -/
def Literal.isNaN : Literal → Bool
  | float x => x.isNaN
  | int _ | text _ => false

/-- A literal is the same as itself, unless it is no number. -/
theorem Literal.same_self (a : Literal) : a.same a = !a.isNaN := by
  cases a <;> simp [same, isNaN, Binary64.same]

/-! ## Symmetry -/

namespace Nameless

theorem Agrees.symm_of_forall₂ {us vs : List Nameless}
    (h : ∀ u ∈ us, ∀ v, Agrees u v → Agrees v u) (huv : List.Forall₂ Agrees us vs) :
    List.Forall₂ Agrees vs us := by
  induction huv with
  | nil => exact .nil
  | cons huv _ ih =>
    rw [List.forall_mem_cons] at h
    exact .cons (h.1 _ huv) (ih h.2)

/-- **Agreement is symmetric.** -/
theorem Agrees.symm {u v : Nameless} : Agrees u v → Agrees v u
  | .left h => .right h
  | .right h => .left h
  | .sort u => .sort u
  | .atom a => .atom a
  | .global x => .global x
  | .lit h => .lit ((Literal.same_comm _ _).trans h)
  | .pi ha hb => .pi (symm ha) (symm hb)
  | .lam ha hb => .lam (symm ha) (symm hb)
  | .app hf ha => .app (symm hf) (symm ha)
  | .fix hb => .fix (symm hb)
  | .elim hs hm hc => .elim (symm hs) (symm hm) (symm_of_forall₂ (fun _ _ _ => symm) hc)
termination_by sizeOf u

end Nameless

/-! ## Reflexivity -/

namespace Term

mutual

/-- The literals of a term, each as often as it occurs. -/
def literals : Term → List Literal
  | sort _ | var _ | global _ | hole => []
  | pi _ a b | lam _ a b | app a b => a.literals ++ b.literals
  | elim s m cases => s.literals ++ m.literals ++ literalsAll cases
  | fix _ b => b.literals
  | lit l => [l]

/-- The literals of a list of terms. -/
def literalsAll : List Term → List Literal
  | [] => []
  | t :: rest => t.literals ++ literalsAll rest

end

theorem mem_literalsAll {l : Literal} {ts : List Term} :
    l ∈ literalsAll ts ↔ ∃ t ∈ ts, l ∈ t.literals := by
  induction ts with
  | nil => simp [literalsAll]
  | cons t ts ih => simp [literalsAll, ih]

/-- No literal of a term is a NaN. -/
def Numeric (t : Term) : Prop :=
  ∀ l ∈ t.literals, l.isNaN = false

/-- A term without placeholders and without NaN. -/
structure Definite (t : Term) : Prop where
  given : t.Over Leaf.Given
  numeric : t.Numeric

variable {σ : Naming} {t : Term}

/-- A term without NaN agrees with itself. -/
theorem Numeric.agrees_self (hσ : σ.Faithful) (h : t.Numeric) :
    Nameless.Agrees (t.interpret σ) (t.interpret σ) := by
  induction t generalizing σ with
  | sort u => exact .sort u
  | var x =>
    obtain ⟨a, ha⟩ := hσ.atomic x
    rw [interpret, ha]
    exact .atom a
  | global x => exact .global x
  | lit l =>
    have hl : l.isNaN = false := h l List.mem_cons_self
    exact .lit (by simp [Literal.same_self, hl])
  | hole => exact .left rfl
  | pi x a b iha ihb =>
    obtain ⟨ha, hb⟩ := List.forall_mem_append.1 h
    exact .pi (iha hσ ha) (ihb (hσ.under x) hb)
  | lam x a b iha ihb =>
    obtain ⟨ha, hb⟩ := List.forall_mem_append.1 h
    exact .lam (iha hσ ha) (ihb (hσ.under x) hb)
  | app f a ihf iha =>
    obtain ⟨hf, ha⟩ := List.forall_mem_append.1 h
    exact .app (ihf hσ hf) (iha hσ ha)
  | fix x b ihb => exact .fix (ihb (hσ.under x) h)
  | elim s m cases ihs ihm ihc =>
    obtain ⟨hsm, hcases⟩ := List.forall_mem_append.1 h
    obtain ⟨hs, hm⟩ := List.forall_mem_append.1 hsm
    refine .elim (ihs hσ hs) (ihm hσ hm) ?_
    rw [interpretAll_eq_map, List.forall₂_map_left_iff, List.forall₂_map_right_iff,
      List.forall₂_same]
    exact fun c hc => ihc c hc hσ fun l hl => hcases l (mem_literalsAll.2 ⟨c, hc, hl⟩)

/-! ## What agreement decides -/

theorem agrees_iff_nameless (t u : Term) :
    t.agrees u = true ↔ Nameless.Agrees t.nameless u.nameless := by
  rw [agrees_eq Naming.faithful_free, Nameless.agrees_iff]
  rfl

theorem agrees_comm (t u : Term) : t.agrees u = u.agrees t := by
  rw [Bool.eq_iff_iff, agrees_iff_nameless, agrees_iff_nameless]
  exact ⟨.symm, .symm⟩

/-- **Agreement decides equality up to bound names.**  Two terms agree iff their nameless forms do,
position by position; so agreement is symmetric, and it is an equivalence on terms without
placeholders and without NaN. -/
theorem agrees_decides :
    (∀ t u : Term, t.agrees u = true ↔ Nameless.Agrees t.nameless u.nameless) ∧
    (∀ t u : Term, t.agrees u = u.agrees t) ∧
    Equivalence fun t u : { t : Term // t.Definite } => t.1.agrees u.1 = true := by
  refine ⟨agrees_iff_nameless, agrees_comm, ?refl, ?symm, ?trans⟩
  case refl =>
    intro t
    exact (agrees_iff_nameless _ _).2 (t.2.numeric.agrees_self Naming.faithful_free)
  case symm =>
    intro t u h
    rwa [agrees_comm]
  case trans =>
    intro t u v htu huv
    -- a placeholder in the middle would agree with both sides
    rw [agrees_iff_nameless] at htu huv ⊢
    exact htu.trans (u.2.given.settled Naming.faithful_free) huv

end Term
end ProofKernel
