import ProofKernel.Proofs.Nameless.Interpretation

/-!
# Terms of the same meaning

Two terms that mean the same, each with meanings for its own names, are made of the same nodes as
long as names mean variables.

* `Naming.Faithful` says that different names mean different variables; it goes under binders
  (`Naming.Faithful.under`).
* `Term.Shape` takes two terms of the same meaning apart side by side (`Term.shape`).  The functions
  that read the outside of a term are then followed one by one: `Term.head_congr`,
  `Term.headGlobal?_congr` and so on.
-/

set_option autoImplicit false
namespace ProofKernel

/-! ## Namings that tell names apart -/

/-- Names mean variables, and different names mean different ones. -/
structure Naming.Faithful (σ : Naming) : Prop where
  atomic : ∀ x, ∃ a, σ x = .atom a
  injective : Function.Injective σ

namespace Naming

theorem faithful_free : free.Faithful := by
  refine ⟨fun x => ⟨_, rfl⟩, fun x y h => ?_⟩
  cases h
  rfl

/-- One name may mean a variable of its own. -/
theorem faithful_set_free (y : String) : (free.set y (.atom (.bound 0))).Faithful := by
  constructor
  · intro x
    by_cases hxy : x = y
    · exact ⟨_, by rw [hxy, set_self]⟩
    · exact ⟨_, by rw [set_of_ne hxy]; rfl⟩
  · intro x z h
    by_cases hxy : x = y <;> by_cases hzy : z = y
    · rw [hxy, hzy]
    · rw [hxy, set_self, set_of_ne hzy] at h
      cases h
    · rw [hzy, set_self, set_of_ne hxy] at h
      cases h
    · rw [set_of_ne hxy, set_of_ne hzy] at h
      exact faithful_free.injective h

/-- The variable of a binder is not one from outside. -/
theorem shift_ne_bound_zero {u : Nameless} {a : Atom} (h : u = .atom a) :
    u.shift ≠ .atom (.bound 0) := by
  subst h
  intro h
  cases a <;> cases h

theorem Faithful.under {σ : Naming} (h : σ.Faithful) (x : String) : (σ.under x).Faithful := by
  constructor
  · intro y
    by_cases hyx : y = x
    · exact ⟨_, by rw [hyx, under_self]⟩
    · obtain ⟨a, ha⟩ := h.atomic y
      exact ⟨a.succ, by rw [under_of_ne hyx, ha, Nameless.shift_atom]⟩
  · intro y z hyz
    obtain ⟨a, ha⟩ := h.atomic y
    obtain ⟨b, hb⟩ := h.atomic z
    by_cases hyx : y = x <;> by_cases hzx : z = x
    · rw [hyx, hzx]
    · rw [hyx, under_self, under_of_ne hzx] at hyz
      exact absurd hyz.symm (shift_ne_bound_zero hb)
    · rw [hzx, under_self, under_of_ne hyx] at hyz
      exact absurd hyz (shift_ne_bound_zero ha)
    · rw [under_of_ne hyx, under_of_ne hzx] at hyz
      exact h.injective (Nameless.shift_injective hyz)

/-- Inside two binders, names mean the same variable iff they are the names of the binders, or mean
the same variable outside. -/
theorem under_eq_under_iff {σ σ' : Naming} (hσ : σ.Faithful) (hσ' : σ'.Faithful)
    {x x' y y' : String} :
    σ.under x y = σ'.under x' y' ↔ (y = x ∧ y' = x') ∨ (y ≠ x ∧ y' ≠ x' ∧ σ y = σ' y') := by
  obtain ⟨a, ha⟩ := hσ.atomic y
  obtain ⟨b, hb⟩ := hσ'.atomic y'
  by_cases hyx : y = x <;> by_cases hyx' : y' = x'
  · rw [hyx, hyx', under_self, under_self]
    exact iff_of_true rfl (.inl ⟨rfl, rfl⟩)
  · rw [hyx, under_self, under_of_ne hyx']
    refine iff_of_false (fun h => shift_ne_bound_zero hb h.symm) ?_
    rintro (⟨_, h⟩ | ⟨h, _⟩)
    · exact hyx' h
    · exact h rfl
  · rw [hyx', under_self, under_of_ne hyx]
    refine iff_of_false (fun h => shift_ne_bound_zero ha h) ?_
    rintro (⟨h, _⟩ | ⟨_, h, _⟩)
    · exact hyx h
    · exact h rfl
  · rw [under_of_ne hyx, under_of_ne hyx']
    constructor
    · intro h
      exact .inr ⟨hyx, hyx', Nameless.shift_injective h⟩
    · rintro (⟨h, _⟩ | ⟨_, _, h⟩)
      · exact absurd h hyx
      · rw [h]

/-- Each name of a list means what some name of another list does. -/
def Covers (σ σ' : Naming) (xs xs' : List String) : Prop :=
  ∀ x ∈ xs, ∃ x' ∈ xs', σ x = σ' x'

theorem Covers.append {σ σ' : Naming} {xs ys xs' ys' : List String} (hx : σ.Covers σ' xs xs')
    (hy : σ.Covers σ' ys ys') : σ.Covers σ' (xs ++ ys) (xs' ++ ys') := by
  refine List.forall_mem_append.2 ⟨fun x hmem => ?_, fun y hmem => ?_⟩
  · obtain ⟨x', hx', heq⟩ := hx x hmem
    exact ⟨x', List.mem_append_left _ hx', heq⟩
  · obtain ⟨y', hy', heq⟩ := hy y hmem
    exact ⟨y', List.mem_append_right _ hy', heq⟩

/-- Outside a binder its own name is left out. -/
theorem Covers.filter {σ σ' : Naming} {y y' : String} {xs xs' : List String}
    (h : (σ.under y).Covers (σ'.under y') xs xs') (hσ : σ.Faithful) (hσ' : σ'.Faithful) :
    σ.Covers σ' (xs.filter (· != y)) (xs'.filter (· != y')) := by
  intro x hx
  obtain ⟨hx, hxy⟩ := Term.mem_filter_ne.1 hx
  obtain ⟨x', hx', heq⟩ := h x hx
  rcases (under_eq_under_iff hσ hσ').1 heq with ⟨e, _⟩ | ⟨_, hxy', heq⟩
  · exact absurd e hxy
  · exact ⟨x', Term.mem_filter_ne.2 ⟨hx', hxy'⟩, heq⟩

end Naming

namespace Term

/-! ## Side by side -/

/-- Two terms with the same outermost node, whose parts mean the same. -/
inductive Shape (σ σ' : Naming) : Term → Term → Prop
  | sort (u : Universe) : Shape σ σ' (.sort u) (.sort u)
  | var {x x' : String} (h : σ x = σ' x') : Shape σ σ' (.var x) (.var x')
  | global (x : String) : Shape σ σ' (.global x) (.global x)
  | pi {x x' : String} {a a' b b' : Term} (ha : a.interpret σ = a'.interpret σ')
      (hb : b.interpret (σ.under x) = b'.interpret (σ'.under x')) :
      Shape σ σ' (.pi x a b) (.pi x' a' b')
  | lam {x x' : String} {a a' b b' : Term} (ha : a.interpret σ = a'.interpret σ')
      (hb : b.interpret (σ.under x) = b'.interpret (σ'.under x')) :
      Shape σ σ' (.lam x a b) (.lam x' a' b')
  | app {f f' a a' : Term} (hf : f.interpret σ = f'.interpret σ')
      (ha : a.interpret σ = a'.interpret σ') : Shape σ σ' (.app f a) (.app f' a')
  | elim {s s' m m' : Term} {cases cases' : List Term} (hs : s.interpret σ = s'.interpret σ')
      (hm : m.interpret σ = m'.interpret σ')
      (hc : cases.map (interpret σ) = cases'.map (interpret σ')) :
      Shape σ σ' (.elim s m cases) (.elim s' m' cases')
  | fix {x x' : String} {b b' : Term}
      (hb : b.interpret (σ.under x) = b'.interpret (σ'.under x')) :
      Shape σ σ' (.fix x b) (.fix x' b')
  | lit (l : Literal) : Shape σ σ' (.lit l) (.lit l)
  | hole : Shape σ σ' .hole .hole

variable {σ σ' : Naming} {t t' : Term}

/-- **Terms of the same meaning are made of the same nodes.** -/
theorem shape (hσ : σ.Faithful) (hσ' : σ'.Faithful) (h : t.interpret σ = t'.interpret σ') :
    Shape σ σ' t t' := by
  obtain ⟨atomOf, hatom⟩ := Classical.skolem.1 hσ.atomic
  obtain ⟨atomOf', hatom'⟩ := Classical.skolem.1 hσ'.atomic
  cases t <;> cases t'
  case var.var x x' => exact .var h
  case pi.pi x a b x' a' b' =>
    rw [interpret, interpret, Nameless.pi.injEq] at h
    exact .pi h.1 h.2
  case lam.lam x a b x' a' b' =>
    rw [interpret, interpret, Nameless.lam.injEq] at h
    exact .lam h.1 h.2
  case app.app f a f' a' =>
    rw [interpret, interpret, Nameless.app.injEq] at h
    exact .app h.1 h.2
  case elim.elim s m cases s' m' cases' =>
    rw [interpret, interpret, Nameless.elim.injEq, interpretAll_eq_map, interpretAll_eq_map] at h
    exact .elim h.1 h.2.1 h.2.2
  case fix.fix x b x' b' =>
    rw [interpret, interpret, Nameless.fix.injEq] at h
    exact .fix h
  case sort.sort u u' =>
    cases h
    exact .sort u
  case global.global x x' =>
    cases h
    exact .global x
  case lit.lit l l' =>
    cases h
    exact .lit l
  case hole.hole => exact .hole
  -- the outermost nodes differ
  all_goals simp only [interpret, hatom, hatom', reduceCtorEq] at h

/-! ## What is read off the outside of a term -/

/-- Two optional values that are seen as the same are both there, or both missing. -/
theorem map_eq_map_cases {α β γ : Type} {f : α → γ} {g : β → γ} {o : Option α} {p : Option β}
    (h : o.map f = p.map g) :
    (o = none ∧ p = none) ∨ ∃ a b, o = some a ∧ p = some b ∧ f a = g b := by
  cases o with
  | none =>
    rw [Option.map_none, eq_comm, Option.map_eq_none_iff] at h
    exact .inl ⟨rfl, h⟩
  | some a =>
    rw [Option.map_some, eq_comm, Option.map_eq_some_iff] at h
    obtain ⟨b, hb, heq⟩ := h
    exact .inr ⟨a, b, rfl, hb, heq.symm⟩

theorem interpret_apps (σ : Naming) (f : Term) (args : List Term) :
    (f.apps args).interpret σ = (args.map (interpret σ)).foldl .app (f.interpret σ) := by
  induction args generalizing f with
  | nil => rfl
  | cons a rest ih => exact ih (.app f a)

/-- Applications mean the same when their heads and arguments do. -/
theorem interpret_apps_congr {f f' : Term} {args args' : List Term}
    (hf : f.interpret σ = f'.interpret σ')
    (ha : args.map (interpret σ) = args'.map (interpret σ')) :
    (f.apps args).interpret σ = (f'.apps args').interpret σ' := by
  rw [interpret_apps, interpret_apps, hf, ha]

theorem head_congr (hσ : σ.Faithful) (hσ' : σ'.Faithful) (h : t.interpret σ = t'.interpret σ') :
    t.head.interpret σ = t'.head.interpret σ' := by
  induction t generalizing t' with
  | app f a ihf _ =>
    cases shape hσ hσ' h with
    | app hf ha =>
      rw [head, head]
      exact ihf hf
  | _ =>
    cases shape hσ hσ' h
    exact h

theorem args_congr (hσ : σ.Faithful) (hσ' : σ'.Faithful) (h : t.interpret σ = t'.interpret σ') :
    t.args.map (interpret σ) = t'.args.map (interpret σ') := by
  induction t generalizing t' with
  | app f a ihf _ =>
    cases shape hσ hσ' h with
    | app hf ha =>
      rw [args, args, List.map_append, List.map_append, ihf hf, List.map_singleton,
        List.map_singleton, ha]
  | _ =>
    cases shape hσ hσ' h
    rfl

theorem getElem?_args_congr (hσ : σ.Faithful) (hσ' : σ'.Faithful)
    (h : t.interpret σ = t'.interpret σ') (i : Nat) :
    (t.args[i]?).map (interpret σ) = (t'.args[i]?).map (interpret σ') := by
  rw [← List.getElem?_map, ← List.getElem?_map, args_congr hσ hσ' h]

theorem headGlobal?_congr (hσ : σ.Faithful) (hσ' : σ'.Faithful)
    (h : t.interpret σ = t'.interpret σ') : t.headGlobal? = t'.headGlobal? := by
  unfold headGlobal?
  have hhead := shape hσ hσ' (head_congr hσ hσ' h)
  generalize t.head = u, t'.head = u' at hhead
  cases hhead <;> rfl

theorem isPlaceholder_congr (hσ : σ.Faithful) (hσ' : σ'.Faithful)
    (h : t.interpret σ = t'.interpret σ') : t.isPlaceholder = t'.isPlaceholder := by
  cases shape hσ hσ' h <;> rfl

/-- A redex at the head of an application contracts to terms of the same meaning. -/
theorem applyAll_congr (hσ : σ.Faithful) (hσ' : σ'.Faithful) {args args' : List Term}
    (h : t.interpret σ = t'.interpret σ')
    (ha : args.map (interpret σ) = args'.map (interpret σ')) :
    (t.applyAll args).interpret σ = (t'.applyAll args').interpret σ' := by
  induction args generalizing t t' args' with
  | nil =>
    obtain rfl : args' = [] := List.map_eq_nil_iff.1 ha.symm
    cases shape hσ hσ' h <;> exact h
  | cons a rest ih =>
    obtain ⟨a', rest', rfl, ha', hrest⟩ := List.map_eq_cons_iff.1 ha.symm
    cases shape hσ hσ' h with
    | lam hd hb =>
      rw [applyAll, applyAll]
      refine ih ?_ hrest.symm
      rw [interpret_substitute_eq_instantiate, interpret_substitute_eq_instantiate, hb, ha']
    | _ => exact interpret_apps_congr h ha

theorem betaReduce_congr (hσ : σ.Faithful) (hσ' : σ'.Faithful)
    (h : t.interpret σ = t'.interpret σ') :
    t.betaReduce.interpret σ = t'.betaReduce.interpret σ' :=
  applyAll_congr hσ hσ' (head_congr hσ hσ' h) (args_congr hσ hσ' h)

/-! ## Free variables -/

theorem freeVarsAll_args {t : Term} {z : String} (h : z ∈ freeVarsAll t.args) : z ∈ t.freeVars := by
  induction t with
  | app f a ihf _ =>
    rw [mem_freeVarsAll, args] at h
    obtain ⟨u, hu, hz⟩ := h
    rcases List.mem_append.1 hu with hu | hu
    · exact List.mem_append_left _ (ihf (mem_freeVarsAll.2 ⟨u, hu, hz⟩))
    · exact List.mem_append_right _ (List.mem_singleton.1 hu ▸ hz)
  | _ => cases h

/-- Each variable of a term means what some variable of a term of the same meaning does. -/
theorem covers_freeVars (hσ : σ.Faithful) (hσ' : σ'.Faithful)
    (h : t.interpret σ = t'.interpret σ') : σ.Covers σ' t.freeVars t'.freeVars := by
  induction t generalizing σ σ' t' with
  | sort | global | lit | hole => exact nofun
  | var y =>
    cases shape hσ hσ' h with
    | var hy => exact List.forall_mem_singleton.2 ⟨_, List.mem_cons_self, hy⟩
  | pi y a b iha ihb =>
    cases shape hσ hσ' h with
    | pi ha hb =>
      exact (iha hσ hσ' ha).append ((ihb (hσ.under y) (hσ'.under _) hb).filter hσ hσ')
  | lam y a b iha ihb =>
    cases shape hσ hσ' h with
    | lam ha hb =>
      exact (iha hσ hσ' ha).append ((ihb (hσ.under y) (hσ'.under _) hb).filter hσ hσ')
  | app f a ihf iha =>
    cases shape hσ hσ' h with
    | app hf ha => exact (ihf hσ hσ' hf).append (iha hσ hσ' ha)
  | fix y b ihb =>
    cases shape hσ hσ' h with
    | fix hb => exact (ihb (hσ.under y) (hσ'.under _) hb).filter hσ hσ'
  | elim s m cases ihs ihm ihc =>
    cases shape hσ hσ' h with
    | @elim _ s' _ m' _ cases' hs hm hc =>
      refine ((ihs hσ hσ' hs).append (ihm hσ hσ' hm)).append fun x hx => ?_
      obtain ⟨c, hmem, hx⟩ := mem_freeVarsAll.1 hx
      have hc' : c.interpret σ ∈ cases'.map (interpret σ') := by
        rw [← hc]
        exact List.mem_map_of_mem hmem
      obtain ⟨c', hmem', heq⟩ := List.mem_map.1 hc'
      obtain ⟨x', hx', hx⟩ := ihc c hmem hσ hσ' heq.symm x hx
      exact ⟨x', mem_freeVarsAll.2 ⟨c', hmem', hx'⟩, hx⟩

/-- **What depends on the meanings of some terms only has no variables but theirs.** -/
theorem mem_freeVars_of_congr (ts : List Term) {u : Term}
    (h : ∀ σ σ' : Naming, σ.Faithful → σ'.Faithful →
      (∀ t ∈ ts, t.interpret σ = t.interpret σ') → u.interpret σ = u.interpret σ')
    {y : String} (hy : y ∈ u.freeVars) : ∃ t ∈ ts, y ∈ t.freeVars := by
  refine Classical.byContradiction fun hnone => ?_
  -- a second meaning for the name would be seen in one of the terms
  have hsame : u.interpret Naming.free = u.interpret (Naming.free.set y (.atom (.bound 0))) := by
    refine h _ _ Naming.faithful_free (Naming.faithful_set_free y) fun t ht => ?_
    refine interpret_congr fun x hx => ?_
    rw [Naming.set_of_ne (by rintro rfl; exact hnone ⟨t, ht, hx⟩)]
  rw [← mem_frees_nameless, nameless, hsame, mem_frees_interpret] at hy
  obtain ⟨x, _, hx⟩ := hy
  by_cases hxy : x = y
  · rw [hxy, Naming.set_self] at hx
    cases hx
  · rw [Naming.set_of_ne hxy] at hx
    exact hxy (List.mem_singleton.1 hx).symm

theorem freeVars_betaReduce {y : String} (hy : y ∈ t.betaReduce.freeVars) : y ∈ t.freeVars := by
  obtain ⟨u, hu, hy⟩ := mem_freeVars_of_congr [t]
    (fun σ σ' hσ hσ' h => betaReduce_congr hσ hσ' (h t List.mem_cons_self)) hy
  rw [List.mem_singleton] at hu
  exact hu ▸ hy

end Term
end ProofKernel
