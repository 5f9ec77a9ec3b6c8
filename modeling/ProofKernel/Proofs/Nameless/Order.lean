import Mathlib.Data.List.Forall2
import Mathlib.Tactic.MkIffOfInductiveProp
import ProofKernel.Proofs.Nameless.Agreement
import ProofKernel.Proofs.Support.Leaves

/-!
# The order of types

Agreement and subtyping compare nameless forms position by position, and a placeholder compares with
everything.  Two comparisons can be put together where the term in the middle has no placeholder; a
placeholder in the middle loses what it was compared with.

* `Nameless.Agrees` and `Nameless.Le` are the comparisons as relations (`Nameless.agrees_iff`,
  `Nameless.le_iff`).
* `Nameless.Agrees.trans` and `Nameless.Le.trans` put two of them together.
* `Term.le_trans` is subtyping of normal forms; `Leaf.Given` says of a leaf that it is no
  placeholder.
-/

set_option autoImplicit false
namespace ProofKernel

/-! ## Literals -/

theorem Binary64.same_trans {x y z : Binary64} (h : x.same y = true) (h' : y.same z = true) :
    x.same z = true := by
  simp only [same, Bool.and_eq_true, Bool.or_eq_true, Bool.not_eq_true', beq_iff_eq] at h h' ⊢
  obtain ⟨⟨hx, _⟩, hxy⟩ := h
  obtain ⟨⟨_, hz⟩, hyz⟩ := h'
  refine ⟨⟨hx, hz⟩, ?_⟩
  -- equal bits have equal magnitudes, so a zero stays one
  have hmagnitude : ∀ {v w : Binary64}, v.bits = w.bits → v.magnitude = w.magnitude :=
    fun hbits => congrArg (fun b : UInt64 => b.toNat % Nat.pow 2 63) hbits
  rcases hxy with hxy | ⟨hx0, hy0⟩ <;> rcases hyz with hyz | ⟨hy0', hz0⟩
  · exact .inl (hxy.trans hyz)
  · exact .inr ⟨(hmagnitude hxy).trans hy0', hz0⟩
  · exact .inr ⟨hx0, (hmagnitude hyz).symm.trans hy0⟩
  · exact .inr ⟨hx0, hz0⟩

theorem Literal.same_trans {a b c : Literal} (h : a.same b = true) (h' : b.same c = true) :
    a.same c = true := by
  cases b <;> cases a <;> simp only [same, Bool.false_eq_true, beq_iff_eq] at h <;>
    cases c <;> simp only [same, Bool.false_eq_true, beq_iff_eq] at h' ⊢
  · exact h.trans h'
  · exact Binary64.same_trans h h'
  · exact h.trans h'

namespace Nameless

/-! ## Comparisons as relations -/

/-- Two nameless terms agree: they are made of the same nodes, but for the positions at which one of
them has a placeholder. -/
inductive Agrees : Nameless → Nameless → Prop
  | left {u v : Nameless} (h : u.isPlaceholder = true) : Agrees u v
  | right {u v : Nameless} (h : v.isPlaceholder = true) : Agrees u v
  | sort (u : Universe) : Agrees (sort u) (sort u)
  | atom (a : Atom) : Agrees (atom a) (atom a)
  | global (x : String) : Agrees (global x) (global x)
  | lit {a b : Literal} (h : a.same b = true) : Agrees (lit a) (lit b)
  | pi {a b c d : Nameless} (ha : Agrees a c) (hb : Agrees b d) : Agrees (pi a b) (pi c d)
  | lam {a b c d : Nameless} (ha : Agrees a c) (hb : Agrees b d) : Agrees (lam a b) (lam c d)
  | app {f a g b : Nameless} (hf : Agrees f g) (ha : Agrees a b) : Agrees (app f a) (app g b)
  | elim {s m s' m' : Nameless} {cs cs' : List Nameless} (hs : Agrees s s') (hm : Agrees m m')
      (hc : List.Forall₂ Agrees cs cs') : Agrees (elim s m cs) (elim s' m' cs')
  | fix {b d : Nameless} (hb : Agrees b d) : Agrees (fix b) (fix d)

/-- A nameless type is below another one: universes are cumulative, products are contravariant in
their domain, and other types have to agree. -/
@[mk_iff le_cases_iff]
inductive Le : Nameless → Nameless → Prop
  | sort {u v : Universe} (h : u.le v = true) : Le (sort u) (sort v)
  | pi {a b c d : Nameless} (ha : Le c a) (hb : Le b d) : Le (pi a b) (pi c d)
  | left {u v : Nameless} (h : u.isPlaceholder = true) : Le u v
  | right {u v : Nameless} (h : v.isPlaceholder = true) : Le u v
  | other {u v : Nameless} (h : Agrees u v) (hsort : ∀ w, u ≠ sort w) (hpi : ∀ a b, u ≠ pi a b) :
      Le u v

theorem agreeAll_iff {us vs : List Nameless}
    (h : ∀ u ∈ us, ∀ v, u.agrees v = true ↔ Agrees u v) :
    us.length = vs.length ∧ agreeAll us vs = true ↔ List.Forall₂ Agrees us vs := by
  induction us generalizing vs with
  | nil => cases vs <;> simp [agreeAll]
  | cons u us ih =>
    cases vs with
    | nil => simp
    | cons v vs =>
      rw [List.forall₂_cons, agreeAll, Bool.and_eq_true, h u List.mem_cons_self,
        ← ih fun u hu => h u (List.mem_cons_of_mem _ hu), List.length_cons, List.length_cons,
        Nat.add_right_cancel_iff, and_left_comm]

theorem agrees_of_isPlaceholder {u v : Nameless}
    (h : u.isPlaceholder = true ∨ v.isPlaceholder = true) : u.agrees v = true := by
  rw [agrees.eq_def, if_pos (Bool.or_eq_true_iff.2 h)]

theorem agrees_iff (u v : Nameless) : u.agrees v = true ↔ Agrees u v := by
  induction hn : sizeOf u using Nat.strongRecOn generalizing u v with
  | ind n ih =>
    subst hn
    have hpart : ∀ {a b : Nameless}, sizeOf a < sizeOf u → (a.agrees b = true ↔ Agrees a b) :=
      fun hlt => ih _ hlt _ _ rfl
    have hcases : ∀ {s m : Nameless} {cs : List Nameless}, u = elim s m cs →
        ∀ c ∈ cs, ∀ d, c.agrees d = true ↔ Agrees c d := by
      rintro s m cs rfl c hmem d
      have := List.sizeOf_lt_of_mem hmem
      exact hpart (by simp only [elim.sizeOf_spec]; omega)
    constructor
    · intro h
      rw [agrees.eq_def] at h
      split at h
      · next hp => exact (Bool.or_eq_true_iff.1 hp).elim .left .right
      -- neither is a placeholder, so their nodes are the same
      split at h
      · exact beq_iff_eq.1 h ▸ .sort _
      · exact beq_iff_eq.1 h ▸ .atom _
      · exact beq_iff_eq.1 h ▸ .global _
      · exact .lit h
      · obtain ⟨hf, ha⟩ := Bool.and_eq_true_iff.1 h
        exact .app ((hpart (by decreasing_tactic)).1 hf) ((hpart (by decreasing_tactic)).1 ha)
      · obtain ⟨ha, hb⟩ := Bool.and_eq_true_iff.1 h
        exact .pi ((hpart (by decreasing_tactic)).1 ha) ((hpart (by decreasing_tactic)).1 hb)
      · obtain ⟨ha, hb⟩ := Bool.and_eq_true_iff.1 h
        exact .lam ((hpart (by decreasing_tactic)).1 ha) ((hpart (by decreasing_tactic)).1 hb)
      · exact .fix ((hpart (by decreasing_tactic)).1 h)
      · simp only [Bool.and_eq_true, beq_iff_eq] at h
        obtain ⟨⟨⟨hlen, hs⟩, hm⟩, hc⟩ := h
        exact .elim ((hpart (by decreasing_tactic)).1 hs) ((hpart (by decreasing_tactic)).1 hm)
          ((agreeAll_iff (hcases rfl)).1 ⟨hlen, hc⟩)
      · cases h
    · intro h
      cases h with
      | left h => exact agrees_of_isPlaceholder (.inl h)
      | right h => exact agrees_of_isPlaceholder (.inr h)
      | sort | atom | global => simp [agrees]
      | lit h => simp [agrees, isPlaceholder, h]
      | pi ha hb | lam ha hb | app ha hb =>
        simp [agrees, isPlaceholder, (hpart (by decreasing_tactic)).2 ha,
          (hpart (by decreasing_tactic)).2 hb]
      | fix hb => simp [agrees, isPlaceholder, (hpart (by decreasing_tactic)).2 hb]
      | elim hs hm hc =>
        obtain ⟨hlen, hall⟩ := (agreeAll_iff (hcases rfl)).2 hc
        simp [agrees, isPlaceholder, (hpart (by decreasing_tactic)).2 hs,
          (hpart (by decreasing_tactic)).2 hm, hlen, hall]

theorem le_iff (u v : Nameless) : u.le v = true ↔ Le u v := by
  -- the domains of products are compared the other way round, so that both sides get smaller
  induction hn : sizeOf u + sizeOf v using Nat.strongRecOn generalizing u v with
  | ind n ih =>
    subst hn
    rw [le_cases_iff]
    cases u with
    | sort w => cases v <;> simp [le, agrees, isPlaceholder]
    | pi a b =>
      cases v with
      | pi c d =>
        have ha := ih (sizeOf c + sizeOf a) (by simp only [pi.sizeOf_spec]; omega) c a rfl
        have hb := ih (sizeOf b + sizeOf d) (by simp only [pi.sizeOf_spec]; omega) b d rfl
        simp [le, isPlaceholder, ha, hb]
      | _ => simp [le, agrees, isPlaceholder]
    | _ =>
      simp only [le, agrees_iff, ne_eq, reduceCtorEq, not_false_eq_true, implies_true, false_and,
        and_false, exists_false, false_or, and_true]
      exact ⟨fun h => .inr (.inr h), fun h => h.elim .left (·.elim .right id)⟩

/-! ## Putting comparisons together -/

mutual

/-- No part of a nameless term is a placeholder. -/
def Settled : Nameless → Prop
  | sort _ | atom _ | lit _ => True
  | global x => x ≠ Term.placeholder
  | pi a b | lam a b | app a b => a.Settled ∧ b.Settled
  | elim s m cases => s.Settled ∧ m.Settled ∧ SettledAll cases
  | fix b => b.Settled
  | hole => False

/-- No part of a list of nameless terms is a placeholder. -/
def SettledAll : List Nameless → Prop
  | [] => True
  | u :: rest => u.Settled ∧ SettledAll rest

end

theorem settledAll_iff {us : List Nameless} : SettledAll us ↔ ∀ u ∈ us, u.Settled := by
  induction us with
  | nil => simp [SettledAll]
  | cons u us ih => simp [SettledAll, ih]

theorem Settled.isPlaceholder {u : Nameless} (h : u.Settled) : u.isPlaceholder = false := by
  cases u with
  | global x => exact beq_eq_false_iff_ne.2 h
  | hole => exact h.elim
  | _ => rfl

theorem Agrees.trans_of_forall₂ {us vs ws : List Nameless}
    (h : ∀ v ∈ vs, ∀ u w, Agrees u v → Agrees v w → Agrees u w)
    (huv : List.Forall₂ Agrees us vs) (hvw : List.Forall₂ Agrees vs ws) :
    List.Forall₂ Agrees us ws := by
  induction huv generalizing ws with
  | nil => exact hvw
  | cons huv _ ih =>
    rw [List.forall_mem_cons] at h
    cases hvw with
    | cons hvw hrest => exact .cons (h.1 _ _ huv hvw) (ih h.2 hrest)

/-- **Agreement is transitive** through a term without placeholders. -/
theorem Agrees.trans {u v w : Nameless} (hv : v.Settled) : Agrees u v → Agrees v w → Agrees u w
  | .left h, _ => .left h
  | _, .right h => .right h
  | .right h, _ => absurd h (by simp [hv.isPlaceholder])
  | _, .left h => absurd h (by simp [hv.isPlaceholder])
  | .sort _, h | .atom _, h | .global _, h => h
  | .lit h, .lit h' => .lit (Literal.same_trans h h')
  | .pi ha hb, .pi ha' hb' => .pi (trans hv.1 ha ha') (trans hv.2 hb hb')
  | .lam ha hb, .lam ha' hb' => .lam (trans hv.1 ha ha') (trans hv.2 hb hb')
  | .app hf ha, .app hf' ha' => .app (trans hv.1 hf hf') (trans hv.2 ha ha')
  | .fix hb, .fix hb' => .fix (trans (by exact hv) hb hb')
  | .elim hs hm hc, .elim hs' hm' hc' =>
    .elim (trans hv.1 hs hs') (trans hv.2.1 hm hm')
      (trans_of_forall₂ (fun c hmem _ _ => trans (settledAll_iff.1 hv.2.2 c hmem)) hc hc')
termination_by sizeOf v

/-- **The order of types is transitive** through a type without placeholders. -/
theorem Le.trans {u v w : Nameless} (hv : v.Settled) : Le u v → Le v w → Le u w
  | .left h, _ => .left h
  | _, .right h => .right h
  | .right h, _ => absurd h (by simp [hv.isPlaceholder])
  | _, .left h => absurd h (by simp [hv.isPlaceholder])
  | .sort h, .sort h' => .sort (Universe.le_trans h h')
  | .pi ha hb, .pi ha' hb' => .pi (trans hv.1 ha' ha) (trans hv.2 hb hb')
  | .other h hsort hpi, .other h' _ _ => .other (h.trans hv h') hsort hpi
  | .sort _, .other _ hsort _ => absurd rfl (hsort _)
  | .pi _ _, .other _ _ hpi => absurd rfl (hpi _ _)
  | .other (.left h) _ _, .sort _ | .other (.left h) _ _, .pi _ _ => .left h
  | .other (.sort _) hsort _, .sort _ => absurd rfl (hsort _)
  | .other (.pi _ _) _ hpi, .pi _ _ => absurd rfl (hpi _ _)
termination_by sizeOf v

end Nameless

/-! ## Terms without placeholders -/

/-- Says of a leaf that it is no placeholder. -/
def Leaf.Given (l : Leaf) : Prop :=
  l ≠ .hole ∧ l ≠ .global Term.placeholder

namespace Term

variable {σ : Naming} {t u v : Term}

theorem Over.isPlaceholder (h : t.Over Leaf.Given) : t.isPlaceholder = false := by
  cases t with
  | global x => exact beq_eq_false_iff_ne.2 fun hx => (over_global.1 h).2 (congrArg Leaf.global hx)
  | hole => exact absurd rfl (over_hole.1 h).1
  | _ => rfl

theorem Over.settled (hσ : σ.Faithful) (h : t.Over Leaf.Given) : (t.interpret σ).Settled := by
  induction t generalizing σ with
  | sort | lit => trivial
  | var x =>
    obtain ⟨a, ha⟩ := hσ.atomic x
    rw [interpret, ha]
    trivial
  | global x => exact fun hx => (over_global.1 h).2 (congrArg Leaf.global hx)
  | pi x a b iha ihb =>
    exact ⟨iha hσ (over_pi.1 h).1, ihb (hσ.under x) (over_pi.1 h).2⟩
  | lam x a b iha ihb =>
    exact ⟨iha hσ (over_lam.1 h).1, ihb (hσ.under x) (over_lam.1 h).2⟩
  | app f a ihf iha => exact ⟨ihf hσ (over_app.1 h).1, iha hσ (over_app.1 h).2⟩
  | fix x b ihb => exact ihb (hσ.under x) (over_fix.1 h)
  | elim s m cases ihs ihm ihc =>
    obtain ⟨hs, hm, hc⟩ := over_elim.1 h
    refine ⟨ihs hσ hs, ihm hσ hm, Nameless.settledAll_iff.2 ?_⟩
    rw [interpretAll_eq_map, List.forall_mem_map]
    exact fun c hmem => ihc c hmem hσ (hc c hmem)
  | hole => exact absurd rfl (over_hole.1 h).1

/-- **Subtyping of normal forms is transitive** through a type without placeholders. -/
theorem le_trans (hu : u.Over Leaf.Given) (htu : t.le u = true) (huv : u.le v = true) :
    t.le v = true := by
  have hfree := Naming.faithful_free
  rw [le_eq hfree, Nameless.le_iff] at htu huv ⊢
  exact htu.trans (hu.settled hfree) huv

end Term
end ProofKernel
