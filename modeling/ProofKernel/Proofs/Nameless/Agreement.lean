import ProofKernel.Subtyping
import ProofKernel.Proofs.Nameless.Shape

/-!
# Comparisons as functions of nameless forms

Terms are compared by bringing the bodies of two binders under one name.  The outcome is that of a
comparison of nameless forms, node by node, so that it depends on nothing else.

* `Nameless.agrees` and `Nameless.le` compare nameless forms.
* `Term.agrees_eq` and `Term.le_eq` say that they are what `Term.agrees` and `Term.le` compute.
-/

set_option autoImplicit false
namespace ProofKernel

/-! ## Comparing nameless forms -/

namespace Nameless

/-- Whether a nameless term stands for one left to be filled in. -/
def isPlaceholder : Nameless → Bool
  | global x => x == Term.placeholder
  | hole => true
  | _ => false

mutual

/-- Whether two nameless terms agree node by node, where a placeholder agrees with everything. -/
def agrees (u v : Nameless) : Bool :=
  if u.isPlaceholder || v.isPlaceholder then true
  else
    match u, v with
    | sort u, sort v => u == v
    | atom a, atom b => a == b
    | global x, global y => x == y
    | lit a, lit b => a.same b
    | app f a, app g b => agrees f g && agrees a b
    | pi a b, pi c d | lam a b, lam c d => agrees a c && agrees b d
    | fix b, fix d => agrees b d
    | elim s m cs, elim s' m' cs' =>
      cs.length == cs'.length && agrees s s' && agrees m m' && agreeAll cs cs'
    | _, _ => false

/-- Whether two lists of nameless terms agree, place by place. -/
def agreeAll (us vs : List Nameless) : Bool :=
  match us, vs with
  | u :: us, v :: vs => agrees u v && agreeAll us vs
  | _, _ => true

end

/-- Whether a nameless normal form is a subtype of another one. -/
def le : Nameless → Nameless → Bool
  | sort u, sort v => u.le v
  | pi a b, pi c d => le c a && le b d
  | u, v => u.agrees v
termination_by u v => sizeOf u + sizeOf v

end Nameless

namespace Term

variable {σ : Naming}

/-! ## Bodies under one name -/

/-- Two bodies that are brought under one name mean what they meant under their own. -/
theorem interpret_align (x : String) (b : Term) (y : String) (c : Term) (σ : Naming) :
    ∃ z, (align x b y c).1.interpret (σ.under z) = b.interpret (σ.under x) ∧
      (align x b y c).2.interpret (σ.under z) = c.interpret (σ.under y) := by
  unfold align
  by_cases hxy : x = y
  · rw [if_pos hxy]
    exact ⟨x, rfl, by rw [hxy]⟩
  rw [if_neg hxy]
  split
  · next hfree =>
    have hc : x ∉ c.freeVars := by
      rw [← occurs_iff_mem_freeVars]
      simpa using hfree
    exact ⟨x, rfl, interpret_rename_under (.inr hc) σ⟩
  · have hfresh := fresh_not_mem x (y :: b.freeVars ++ c.freeVars)
    simp only [List.cons_append, List.mem_cons, List.mem_append, not_or] at hfresh
    exact ⟨_, interpret_rename_under (.inr hfresh.2.1) σ,
      interpret_rename_under (.inr hfresh.2.2) σ⟩

/-! ## Equality up to bound names -/

theorem isPlaceholder_interpret (hσ : σ.Faithful) (t : Term) :
    (t.interpret σ).isPlaceholder = t.isPlaceholder := by
  cases t with
  | var x =>
    obtain ⟨a, ha⟩ := hσ.atomic x
    rw [interpret, ha]
    rfl
  | _ => rfl

theorem agreeAll_eq {ts us : List Term}
    (h : ∀ t ∈ ts, ∀ u, t.agrees u = (t.interpret σ).agrees (u.interpret σ)) :
    agreeAll ts us = Nameless.agreeAll (interpretAll σ ts) (interpretAll σ us) := by
  induction ts generalizing us with
  | nil => rw [agreeAll, interpretAll, Nameless.agreeAll] <;> simp
  | cons t ts ih =>
    cases us with
    | nil => rw [agreeAll, interpretAll, interpretAll, Nameless.agreeAll] <;> simp
    | cons u us =>
      rw [agreeAll, interpretAll, interpretAll, Nameless.agreeAll, h t List.mem_cons_self u,
        ih fun t ht => h t (List.mem_cons_of_mem _ ht)]

/-- **Two terms agree iff their nameless forms do**, whatever the names of variables mean, as long
as they are told apart. -/
theorem agrees_eq (hσ : σ.Faithful) (t u : Term) :
    t.agrees u = (t.interpret σ).agrees (u.interpret σ) := by
  induction hn : t.size using Nat.strongRecOn generalizing t u σ with
  | ind n ih =>
    subst hn
    have hbodies : ∀ (x : String) (b : Term) (y : String) (d : Term), b.size < t.size →
        (align x b y d).1.agrees (align x b y d).2 =
          (b.interpret (σ.under x)).agrees (d.interpret (σ.under y)) := by
      intro x b y d hb
      obtain ⟨z, hz, hz'⟩ := interpret_align x b y d σ
      rw [← hz, ← hz']
      exact ih _ (by rw [size_align_fst]; exact hb) (hσ.under z) _ _ rfl
    rw [agrees.eq_def, Nameless.agrees.eq_def, isPlaceholder_interpret hσ,
      isPlaceholder_interpret hσ]
    by_cases hplaceholder : (t.isPlaceholder || u.isPlaceholder) = true
    · rw [if_pos hplaceholder, if_pos hplaceholder]
    rw [if_neg hplaceholder, if_neg hplaceholder]
    clear hplaceholder
    obtain ⟨atomOf, hatom⟩ := Classical.skolem.1 hσ.atomic
    cases t <;> cases u
    case var.var x y =>
      have hiff : σ x = σ y ↔ x = y := ⟨fun h => hσ.injective h, congrArg σ⟩
      rw [hatom x, hatom y, Nameless.atom.injEq] at hiff
      simp only [interpret, hatom]
      rw [Bool.eq_iff_iff, beq_iff_eq, beq_iff_eq, hiff]
    case app.app f a g c =>
      simp only [interpret]
      rw [ih f.size (by simp only [size]; omega) hσ f g rfl,
        ih a.size (by simp only [size]; omega) hσ a c rfl]
    case pi.pi x a b y c d | lam.lam x a b y c d =>
      simp only [interpret]
      rw [ih a.size (by simp only [size]; omega) hσ a c rfl,
        hbodies x b y d (by simp only [size]; omega)]
    case fix.fix x b y d =>
      simp only [interpret]
      exact hbodies x b y d (by simp only [size]; omega)
    case elim.elim s m cs s' m' cs' =>
      simp only [interpret]
      rw [ih s.size (by simp only [size]; omega) hσ s s' rfl,
        ih m.size (by simp only [size]; omega) hσ m m' rfl, agreeAll_eq, interpretAll_eq_map,
        interpretAll_eq_map, List.length_map, List.length_map]
      intro c hc d
      have := size_le_sizes hc
      exact ih c.size (by simp only [size]; omega) hσ c d rfl
    -- the other nodes have no parts, or differ on the two sides
    all_goals
      first
      | rfl
      | simp only [interpret, hatom]

/-! ## Subtyping -/

/-- **A normal form is a subtype of another one iff their nameless forms are so.** -/
theorem le_eq (hσ : σ.Faithful) (t u : Term) : t.le u = (t.interpret σ).le (u.interpret σ) := by
  induction hn : t.size + u.size using Nat.strongRecOn generalizing t u σ with
  | ind n ih =>
    subst hn
    have hagrees : t.agrees u = (t.interpret σ).agrees (u.interpret σ) := agrees_eq hσ t u
    rw [le.eq_def, Nameless.le.eq_def]
    obtain ⟨atomOf, hatom⟩ := Classical.skolem.1 hσ.atomic
    cases t <;> cases u
    case sort.sort v w => rfl
    case pi.pi x a b y c d =>
      obtain ⟨z, hz, hz'⟩ := interpret_align x b y d σ
      simp only [interpret]
      rw [← hz, ← hz', ih (c.size + a.size) (by simp only [size]; omega) hσ c a rfl]
      congr 1
      refine ih _ ?_ (hσ.under z) _ _ rfl
      simp only [size, size_align_fst, size_align_snd]
      omega
    -- all others are compared for agreement
    all_goals
      first
      | exact hagrees
      | simpa only [interpret, hatom] using hagrees

/-- Comparison does not see bound names. -/
theorem le_congr {σ' : Naming} {t t' u u' : Term} (hσ : σ.Faithful) (hσ' : σ'.Faithful)
    (ht : t.interpret σ = t'.interpret σ') (hu : u.interpret σ = u'.interpret σ') :
    t.le u = t'.le u' := by
  rw [le_eq hσ, le_eq hσ', ht, hu]

theorem agrees_congr {σ' : Naming} {t t' u u' : Term} (hσ : σ.Faithful) (hσ' : σ'.Faithful)
    (ht : t.interpret σ = t'.interpret σ') (hu : u.interpret σ = u'.interpret σ') :
    t.agrees u = t'.agrees u' := by
  rw [agrees_eq hσ, agrees_eq hσ', ht, hu]

end Term
end ProofKernel
