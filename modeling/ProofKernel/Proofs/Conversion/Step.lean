import Mathlib.Data.List.Forall2
import Mathlib.Logic.Relation
import ProofKernel.Proofs.Nameless.Contraction

/-!
# Contraction anywhere

The reducer passes over the motives and the cases of matches.  Contraction anywhere does not.

* `Nameless.Slot` is a node with any of its parts left out, `Nameless.Step` a contraction in any
  part of a term, `Nameless.Steps` any number of them.
* `SymbolTable.steps_normalize`: normalization takes such steps.
* `Term.BetaStep` contracts one beta-redex of a term with names, at any position
  (`Term.BetaStep.step`).
* `SymbolTable.irreducible_of_step?`: a normal form can be contracted in motives and cases only.
-/

set_option autoImplicit false
namespace ProofKernel

open Term (interpret interpretAll_eq_map)

namespace Nameless

/-! ## Parts -/

/-- A node of a term with one part left out. -/
inductive Slot where
  | frame (frame : Frame)
  | motive (scrutinee : Nameless) (cases : List Nameless)
  | case (scrutinee motive : Nameless) (front back : List Nameless)

namespace Slot

/-- The node with its missing part. -/
def fill (u : Nameless) : Slot → Nameless
  | frame f => f.fill u
  | motive s cases => elim s u cases
  | case s m front back => elim s m (front ++ u :: back)

/-- The number of binders of the node that its missing part is inside of. -/
def binders : Slot → Nat
  | frame (.piBody _) | frame (.lamBody _) | frame .fixBody => 1
  | _ => 0

end Slot

/-- The parts of a node. -/
def parts : Nameless → List Nameless
  | pi a b | lam a b | app a b => [a, b]
  | elim s m cases => s :: m :: cases
  | fix b => [b]
  | sort _ | atom _ | global _ | lit _ | hole => []

theorem Slot.mem_parts (slot : Slot) (u : Nameless) : u ∈ (slot.fill u).parts := by
  cases slot with
  | frame frame => cases frame <;> simp [fill, Frame.fill, parts]
  | motive s cases => simp [fill, parts]
  | case s m front back => simp [fill, parts]

/-! ## Steps -/

/-- One contraction, in any part of a term. -/
inductive Step (table : SymbolTable) : Nameless → Nameless → Prop
  | contract {u v : Nameless} (h : Contraction table u v) : Step table u v
  | fill {u v : Nameless} (slot : Slot) (h : Step table u v) :
    Step table (slot.fill u) (slot.fill v)

/-- Any number of contractions. -/
def Steps (table : SymbolTable) : Nameless → Nameless → Prop :=
  Relation.ReflTransGen (Step table)

/-- There is nothing to contract, in no part of a term. -/
def Irreducible (table : SymbolTable) (u : Nameless) : Prop :=
  ∀ v, ¬Step table u v

variable {table : SymbolTable} {u v w : Nameless}

/-- A term is irreducible that is no redex and has irreducible parts. -/
theorem Irreducible.of_parts (h : ∀ v, ¬Contraction table u v)
    (hparts : ∀ p ∈ u.parts, Irreducible table p) : Irreducible table u := by
  intro v hstep
  cases hstep with
  | contract hv => exact h v hv
  | fill slot hp => exact hparts _ (slot.mem_parts _) _ hp

theorem Reduces.step (h : Reduces table u v) : Step table u v := by
  obtain ⟨position, redex, contractum, rfl, rfl, h⟩ := h
  induction position with
  | nil => exact .contract h
  | cons frame position ih => exact .fill (.frame frame) ih

namespace Steps

theorem refl (u : Nameless) : Steps table u u :=
  Relation.ReflTransGen.refl

theorem trans (h : Steps table u v) (h' : Steps table v w) : Steps table u w :=
  Relation.ReflTransGen.trans h h'

theorem single (h : Step table u v) : Steps table u v :=
  Relation.ReflTransGen.single h

/-- What is irreducible takes no steps. -/
theorem eq_of_irreducible (h : Steps table u v) (hu : Irreducible table u) : v = u := by
  rcases Relation.ReflTransGen.cases_head h with rfl | ⟨w, hw, -⟩
  · rfl
  · exact absurd hw (hu w)

/-- Steps of a part are steps of the whole. -/
theorem fill (h : Steps table u v) (slot : Slot) : Steps table (slot.fill u) (slot.fill v) :=
  Relation.ReflTransGen.lift (slot.fill ·) (fun _ _ => Step.fill slot) _ _ h

/-! ### Node by node -/

variable {u' v' w' : Nameless}

theorem pi (hu : Steps table u u') (hv : Steps table v v') :
    Steps table (.pi u v) (.pi u' v') :=
  (hu.fill (.frame (.piType v))).trans (hv.fill (.frame (.piBody u')))

theorem lam (hu : Steps table u u') (hv : Steps table v v') :
    Steps table (.lam u v) (.lam u' v') :=
  (hu.fill (.frame (.lamType v))).trans (hv.fill (.frame (.lamBody u')))

theorem app (hu : Steps table u u') (hv : Steps table v v') :
    Steps table (.app u v) (.app u' v') :=
  (hu.fill (.frame (.fn v))).trans (hv.fill (.frame (.arg u')))

theorem fix (hu : Steps table u u') : Steps table (.fix u) (.fix u') :=
  hu.fill (.frame .fixBody)

theorem cases {us us' : List Nameless} (h : List.Forall₂ (Steps table) us us') (s m : Nameless)
    (front : List Nameless) : Steps table (.elim s m (front ++ us)) (.elim s m (front ++ us')) := by
  induction h generalizing front with
  | nil => exact refl _
  | @cons c c' us us' hc _ ih =>
    have hrest := ih (front ++ [c'])
    rw [List.append_assoc, List.append_assoc] at hrest
    exact (hc.fill (.case s m front us)).trans hrest

theorem elim {us us' : List Nameless} (hu : Steps table u u') (hv : Steps table v v')
    (hcases : List.Forall₂ (Steps table) us us') :
    Steps table (.elim u v us) (.elim u' v' us') :=
  ((hu.fill (.frame (.scrutinee v us))).trans (hv.fill (.motive u' us))).trans
    (cases hcases u' v' [])

theorem apps {us us' : List Nameless} (hu : Steps table u u')
    (h : List.Forall₂ (Steps table) us us') : Steps table (u.apps us) (u'.apps us') := by
  induction h generalizing u u' with
  | nil => exact hu
  | cons ha _ ih => exact ih (hu.app ha)

end Steps
end Nameless

open Nameless (Contraction Step Steps Irreducible parts)

/-! ## Normalization -/

namespace SymbolTable

variable {table : SymbolTable} {σ : Naming} {t : Term}

theorem steps_reduce (hbodies : table.BodiesClosed) (hσ : σ.Faithful) (n : Nat) (t : Term) :
    Steps table (t.interpret σ) ((table.reduce n t).interpret σ) := by
  induction n generalizing t with
  | zero => exact .refl _
  | succ n ih =>
    rw [reduce]
    cases hstep : table.step? t with
    | none => exact .refl _
    | some t' => exact (Steps.single (reduces_of_step? hbodies hσ hstep).step).trans (ih t')

/-- Normalization takes steps of the nameless form. -/
theorem steps_normalize (hbodies : table.BodiesClosed) (options : Options) (t : Term) :
    Steps table t.nameless (normalize options table t).value.nameless := by
  rw [value_normalize]
  exact steps_reduce hbodies Naming.faithful_free options.fuel t

/-! ## Motives and cases -/

mutual

/-- Whether no motive and no case of a term takes a step. -/
def settled (table : SymbolTable) : Term → Bool
  | .sort _ | .var _ | .global _ | .lit _ | .hole => true
  | .pi _ a b | .lam _ a b | .app a b => table.settled a && table.settled b
  | .fix _ b => table.settled b
  | .elim s m cases =>
    table.settled s && ((table.step? m).isNone && table.settled m) && table.settledAll cases

/-- Whether none of a list of terms takes a step, nor a motive or case of one. -/
def settledAll (table : SymbolTable) : List Term → Bool
  | [] => true
  | c :: rest => ((table.step? c).isNone && table.settled c) && table.settledAll rest

end

theorem settledAll_iff {cases : List Term} : table.settledAll cases = true ↔
    ∀ c ∈ cases, table.step? c = none ∧ table.settled c = true := by
  induction cases with
  | nil => simp [settledAll]
  | cons c rest ih => simp [settledAll, ih]

theorem step?_app_eq_none {f a : Term} (h : table.step? (.app f a) = none) :
    table.step? f = none ∧ table.step? a = none :=
  ⟨of_not_not fun hf => step?_app_ne_none (.inl hf) h,
    of_not_not fun ha => step?_app_ne_none (.inr ha) h⟩

/-- **A normal form whose motives and cases are normal as well is irreducible.** -/
theorem irreducible_of_step? (hσ : σ.Faithful) (h : table.step? t = none)
    (hsettled : table.settled t = true) : Irreducible table (t.interpret σ) := by
  induction t generalizing σ
  all_goals refine .of_parts (fun v hv => step?_of_contraction hσ hv h) ?_
  case sort | global | lit | hole => exact List.forall_mem_nil _
  case var x =>
    obtain ⟨a, ha⟩ := hσ.atomic x
    rw [interpret, ha]
    exact List.forall_mem_nil _
  case pi x a b iha ihb | lam x a b iha ihb =>
    simp only [step?, Option.or_eq_none_iff, Option.map_eq_none_iff] at h
    simp only [settled, Bool.and_eq_true] at hsettled
    simp only [interpret, parts, List.forall_mem_cons, List.not_mem_nil, false_implies,
      implies_true, and_true]
    exact ⟨iha hσ h.1 hsettled.1, ihb (hσ.under x) h.2 hsettled.2⟩
  case app f a ihf iha =>
    obtain ⟨hf, ha⟩ := step?_app_eq_none h
    simp only [settled, Bool.and_eq_true] at hsettled
    simp only [interpret, parts, List.forall_mem_cons, List.not_mem_nil, false_implies,
      implies_true, and_true]
    exact ⟨ihf hσ hf hsettled.1, iha hσ ha hsettled.2⟩
  case fix x b ihb =>
    simp only [step?, Option.map_eq_none_iff] at h
    exact List.forall_mem_singleton.2 (ihb (hσ.under x) h hsettled)
  case elim s m cases ihs ihm ihc =>
    simp only [step?, Option.or_eq_none_iff, Option.map_eq_none_iff] at h
    simp only [settled, Bool.and_eq_true, Option.isNone_iff_eq_none, settledAll_iff] at hsettled
    obtain ⟨⟨hs, hm, hm'⟩, hcases⟩ := hsettled
    simp only [interpret, interpretAll_eq_map, parts, List.forall_mem_cons, List.forall_mem_map]
    exact ⟨ihs hσ h.2 hs, ihm hσ hm hm', fun c hc => ihc c hc hσ (hcases c hc).1 (hcases c hc).2⟩

end SymbolTable

/-! ## Beta-redexes -/

namespace Term

/-- One beta-redex is contracted, at any position of a term. -/
inductive BetaStep : Term → Term → Prop
  | redex (x : String) (a b c : Term) : BetaStep (app (lam x a b) c) (b.substitute x c)
  | piType {x : String} {a a' b : Term} (h : BetaStep a a') : BetaStep (pi x a b) (pi x a' b)
  | piBody {x : String} {a b b' : Term} (h : BetaStep b b') : BetaStep (pi x a b) (pi x a b')
  | lamType {x : String} {a a' b : Term} (h : BetaStep a a') : BetaStep (lam x a b) (lam x a' b)
  | lamBody {x : String} {a b b' : Term} (h : BetaStep b b') : BetaStep (lam x a b) (lam x a b')
  | fn {f f' a : Term} (h : BetaStep f f') : BetaStep (app f a) (app f' a)
  | arg {f a a' : Term} (h : BetaStep a a') : BetaStep (app f a) (app f a')
  | scrutinee {s s' m : Term} {cases : List Term} (h : BetaStep s s') :
      BetaStep (elim s m cases) (elim s' m cases)
  | motive {s m m' : Term} {cases : List Term} (h : BetaStep m m') :
      BetaStep (elim s m cases) (elim s m' cases)
  | case {s m c c' : Term} {front back : List Term} (h : BetaStep c c') :
      BetaStep (elim s m (front ++ c :: back)) (elim s m (front ++ c' :: back))
  | fixBody {x : String} {b b' : Term} (h : BetaStep b b') : BetaStep (fix x b) (fix x b')

/-- Contracting a beta-redex of a term is a step of the nameless form. -/
theorem BetaStep.step {t t' : Term} (h : BetaStep t t') (table : SymbolTable) (σ : Naming) :
    Step table (t.interpret σ) (t'.interpret σ) := by
  induction h generalizing σ with
  | redex x a b c =>
    rw [interpret_substitute_eq_instantiate]
    exact .contract (.beta _ _ _)
  | piType _ ih => exact .fill (.frame (.piType _)) (ih σ)
  | piBody _ ih => exact .fill (.frame (.piBody _)) (ih _)
  | lamType _ ih => exact .fill (.frame (.lamType _)) (ih σ)
  | lamBody _ ih => exact .fill (.frame (.lamBody _)) (ih _)
  | fn _ ih => exact .fill (.frame (.fn _)) (ih σ)
  | arg _ ih => exact .fill (.frame (.arg _)) (ih σ)
  | scrutinee _ ih => exact .fill (.frame (.scrutinee _ _)) (ih σ)
  | motive _ ih => exact .fill (.motive _ _) (ih σ)
  | fixBody _ ih => exact .fill (.frame .fixBody) (ih _)
  | case _ ih =>
    simp only [interpret, interpretAll_eq_map, List.map_append, List.map_cons]
    exact .fill (.case _ _ _ _) (ih σ)

end Term
end ProofKernel
