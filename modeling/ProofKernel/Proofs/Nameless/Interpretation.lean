import ProofKernel.Proofs.Nameless.Basic
import ProofKernel.Proofs.Substitution

/-!
# The nameless form of a term

* `Term.interpret` reads a term with a meaning for each of its free variables; `Term.nameless` reads
  a free variable as its name.
* `Term.interpret_substitute`: **substitution is capture-avoiding**.  What a term with a variable
  replaced means is what the term means when the variable means the replacement.
* `Term.instantiate_interpret`: the meaning of the body of a binder at a value.
* `Term.mem_frees_interpret` and `Term.mem_freeVars_substitute` follow the free variables.
* `fresh_not_mem`: a fresh name is not taken.
* `Nameless.subst_subst` puts two substitutions together; `Nameless.subst_instantiate` carries the
  body of a binder at a value through a substitution.
* `Term.nameless_subst`: a substitution does not change a closed term.
-/

set_option autoImplicit false
namespace ProofKernel

/-! ## Meanings of names -/

/-- A meaning for each name. -/
abbrev Naming : Type := String → Nameless

namespace Naming

/-- Every name is a free variable. -/
def free : Naming := fun x => .atom (.free x)

/-- The meanings inside a binder. -/
def under (σ : Naming) (x : String) : Naming := fun y =>
  if y = x then .atom (.bound 0) else (σ y).shift

/-- The meanings with that of one name replaced. -/
def set (σ : Naming) (x : String) (u : Nameless) : Naming := fun y =>
  if y = x then u else σ y

@[simp] theorem under_self (σ : Naming) (x : String) : σ.under x x = .atom (.bound 0) := if_pos rfl

theorem under_of_ne {x y : String} (h : y ≠ x) (σ : Naming) : σ.under x y = (σ y).shift := if_neg h

@[simp] theorem set_self (σ : Naming) (x : String) (u : Nameless) : σ.set x u x = u := if_pos rfl

theorem set_of_ne {x y : String} (h : y ≠ x) (σ : Naming) (u : Nameless) : σ.set x u y = σ y :=
  if_neg h

end Naming

/-! ## Fresh names -/

/-- As many attempts are enough as there are taken names that are not shorter. -/
theorem freshWithin_not_mem {taken : List String} {n : Nat} {name : String}
    (h : (taken.filter fun x => name.length ≤ x.length).length ≤ n) :
    freshWithin taken n name ∉ taken := by
  induction n generalizing name with
  | zero =>
    intro hmem
    have : name ∈ taken.filter fun x => name.length ≤ x.length :=
      List.mem_filter.2 ⟨hmem, by simp⟩
    rw [List.length_eq_zero_iff.1 (Nat.le_zero.1 h)] at this
    cases this
  | succ n ih =>
    rw [freshWithin]
    split
    · next hmem =>
      -- the name itself is taken and does not count for the longer one
      have hlen : (name ++ "'").length = name.length + 1 := String.length_append name "'"
      have hlonger : (taken.filter fun x => (name ++ "'").length ≤ x.length) =
          (taken.filter fun x => name.length ≤ x.length).filter
            fun x => (name ++ "'").length ≤ x.length := by
        rw [List.filter_filter]
        refine List.filter_congr fun x _ => ?_
        rw [← Bool.decide_and, hlen]
        exact decide_eq_decide.2 (by omega)
      have hlt := (List.length_filter_lt_length_iff_exists
        (p := fun x => decide ((name ++ "'").length ≤ x.length))
        (l := taken.filter fun x => name.length ≤ x.length)).2
          ⟨name, List.mem_filter.2 ⟨hmem, by simp⟩, by simp [hlen]⟩
      rw [← hlonger] at hlt
      exact ih (by omega)
    · next hmem => exact hmem

/-- A fresh name is not taken. -/
theorem fresh_not_mem (base : String) (taken : List String) : fresh base taken ∉ taken :=
  freshWithin_not_mem (List.length_filter_le ..)

/-! ## The meaning of a term -/

namespace Term

mutual

/-- What a term means, up to the names of its bound variables. -/
def interpret (σ : Naming) : Term → Nameless
  | sort u => .sort u
  | var x => σ x
  | global x => .global x
  | pi x a b => .pi (a.interpret σ) (b.interpret (σ.under x))
  | lam x a b => .lam (a.interpret σ) (b.interpret (σ.under x))
  | app f a => .app (f.interpret σ) (a.interpret σ)
  | elim s m cases => .elim (s.interpret σ) (m.interpret σ) (interpretAll σ cases)
  | fix x b => .fix (b.interpret (σ.under x))
  | lit l => .lit l
  | hole => .hole

/-- What each term of a list means. -/
def interpretAll (σ : Naming) : List Term → List Nameless
  | [] => []
  | t :: rest => t.interpret σ :: interpretAll σ rest

end

/-- The nameless form of a term. -/
def nameless (t : Term) : Nameless :=
  t.interpret Naming.free

section

attribute [local simp] interpret interpretAll

theorem interpretAll_eq_map (σ : Naming) (ts : List Term) :
    interpretAll σ ts = ts.map (interpret σ) := by
  induction ts with
  | nil => simp
  | cons t ts ih => simp [ih]

end

/-! ## The meaning depends on the free variables only -/

theorem mem_filter_ne {x y : String} {xs : List String} :
    y ∈ xs.filter (· != x) ↔ y ∈ xs ∧ y ≠ x := by
  simp [List.mem_filter]

/-- A name means the same inside a binder if it does outside. -/
theorem under_congr {σ σ' : Naming} {x : String} {xs : List String}
    (h : ∀ y ∈ xs.filter (· != x), σ y = σ' y) : ∀ y ∈ xs, σ.under x y = σ'.under x y := by
  intro y hy
  by_cases hyx : y = x
  · rw [hyx, Naming.under_self, Naming.under_self]
  · rw [Naming.under_of_ne hyx, Naming.under_of_ne hyx, h y (mem_filter_ne.2 ⟨hy, hyx⟩)]

theorem interpret_congr {σ σ' : Naming} {t : Term} (h : ∀ x ∈ t.freeVars, σ x = σ' x) :
    t.interpret σ = t.interpret σ' := by
  induction t generalizing σ σ' with
  | sort | global | lit | hole => rfl
  | var x => exact h x List.mem_cons_self
  | pi x a b iha ihb | lam x a b iha ihb =>
    rw [freeVars, List.forall_mem_append] at h
    rw [interpret, interpret, iha h.1, ihb (under_congr h.2)]
  | app f a ihf iha =>
    rw [freeVars, List.forall_mem_append] at h
    rw [interpret, interpret, ihf h.1, iha h.2]
  | fix x b ihb => rw [interpret, interpret, ihb (under_congr h)]
  | elim s m cases ihs ihm ihc =>
    rw [freeVars, List.forall_mem_append, List.forall_mem_append] at h
    rw [interpret, interpret, ihs h.1.1, ihm h.1.2, interpretAll_eq_map, interpretAll_eq_map]
    congr 1
    refine List.map_congr_left fun c hc => ihc c hc fun x hx => ?_
    exact h.2 x (mem_freeVarsAll.2 ⟨c, hc, hx⟩)

/-- What a closed term means does not depend on names. -/
theorem interpret_of_closed {t : Term} (h : t.freeVars = []) (σ σ' : Naming) :
    t.interpret σ = t.interpret σ' :=
  interpret_congr (by simp [h])

/-! ## Changing meanings -/

theorem interpret_rename (f : Atom → Atom) (σ : Naming) (t : Term) :
    (t.interpret σ).rename f = t.interpret fun x => (σ x).rename f := by
  have hunder : ∀ (f : Atom → Atom) (σ : Naming) x,
      (fun y => (σ.under x y).rename (Atom.lift f)) =
        Naming.under (fun y => (σ y).rename f) x := by
    intro f σ x
    funext y
    by_cases hyx : y = x
    · rw [hyx, Naming.under_self, Naming.under_self]
      rfl
    · rw [Naming.under_of_ne hyx, Naming.under_of_ne hyx, Nameless.rename_shift]
  induction t generalizing f σ with
  | sort | global | var | lit | hole => rfl
  | pi x a b iha ihb | lam x a b iha ihb =>
    simp only [interpret, Nameless.rename, iha, ihb, hunder]
  | app g a ihg iha => simp only [interpret, Nameless.rename, ihg, iha]
  | fix x b ihb => simp only [interpret, Nameless.rename, ihb, hunder]
  | elim s m cases ihs ihm ihc =>
    simp only [interpret, Nameless.rename, ihs, ihm, interpretAll_eq_map,
      Nameless.renameAll_eq_map, List.map_map]
    congr 1
    exact List.map_congr_left fun c hc => ihc c hc f σ

theorem interpret_subst (τ : Atom → Nameless) (σ : Naming) (t : Term) :
    (t.interpret σ).subst τ = t.interpret fun x => (σ x).subst τ := by
  have hunder : ∀ (τ : Atom → Nameless) (σ : Naming) x,
      (fun y => (σ.under x y).subst (Nameless.lift τ)) =
        Naming.under (fun y => (σ y).subst τ) x := by
    intro τ σ x
    funext y
    by_cases hyx : y = x
    · rw [hyx, Naming.under_self, Naming.under_self]
      rfl
    · rw [Naming.under_of_ne hyx, Naming.under_of_ne hyx, Nameless.subst_shift]
  induction t generalizing τ σ with
  | sort | global | var | lit | hole => rfl
  | pi x a b iha ihb | lam x a b iha ihb =>
    simp only [interpret, Nameless.subst, iha, ihb, hunder]
  | app g a ihg iha => simp only [interpret, Nameless.subst, ihg, iha]
  | fix x b ihb => simp only [interpret, Nameless.subst, ihb, hunder]
  | elim s m cases ihs ihm ihc =>
    simp only [interpret, Nameless.subst, ihs, ihm, interpretAll_eq_map,
      Nameless.substAll_eq_map, List.map_map]
    congr 1
    exact List.map_congr_left fun c hc => ihc c hc τ σ

/-- Inside a binder that a term does not refer to, its meaning is shifted. -/
theorem interpret_under {x : String} {t : Term} (h : x ∉ t.freeVars) (σ : Naming) :
    t.interpret (σ.under x) = (t.interpret σ).shift := by
  rw [Nameless.shift, interpret_rename]
  refine interpret_congr fun y hy => ?_
  rw [Naming.under_of_ne (by rintro rfl; exact h hy), Nameless.shift]

/-- The body of a binder at a value. -/
theorem instantiate_interpret (σ : Naming) (x : String) (t : Term) (v : Nameless) :
    (t.interpret (σ.under x)).instantiate v = t.interpret (σ.set x v) := by
  rw [Nameless.instantiate, interpret_subst]
  refine interpret_congr fun y _ => ?_
  by_cases hyx : y = x
  · rw [hyx, Naming.under_self, Naming.set_self]
    rfl
  · rw [Naming.under_of_ne hyx, Naming.set_of_ne hyx]
    exact Nameless.instantiate_shift (σ y) v

/-! ## Substitution -/

@[simp] theorem size_substitute_var (t : Term) (x y : String) :
    (t.substitute x (.var y)).size = t.size :=
  size_substituteWithin_var ..

/-- The body of a binder after substitution means what the body means when the variable means the
replacement. -/
theorem interpret_substituteBody {y x : String} {b r : Term}
    (ih : ∀ (t : Term) (x : String) (r : Term) (σ : Naming), t.size = b.size →
      (t.substitute x r).interpret σ = t.interpret (σ.set x (r.interpret σ))) (σ : Naming) :
    (substituteBody y b x r).2.interpret (σ.under (substituteBody y b x r).1) =
      b.interpret ((σ.set x (r.interpret σ)).under y) := by
  unfold substituteBody
  by_cases hyx : y = x
  · -- the binder hides the variable
    rw [if_pos hyx]
    refine interpret_congr fun z _ => ?_
    by_cases hzy : z = y
    · rw [hzy, Naming.under_self, Naming.under_self]
    · rw [Naming.under_of_ne hzy, Naming.under_of_ne hzy,
        Naming.set_of_ne (fun h => hzy (h.trans hyx.symm))]
  rw [if_neg hyx]
  split
  · -- the binder would capture a variable of the replacement, and is renamed
    next hcapture =>
    have hfresh := fresh_not_mem y (x :: r.freeVars ++ b.freeVars)
    generalize fresh y (x :: r.freeVars ++ b.freeVars) = y' at hfresh
    simp only [List.cons_append, List.mem_cons, List.mem_append, not_or] at hfresh
    obtain ⟨hx, hr, hb⟩ := hfresh
    rw [ih _ x r _ (size_substitute_var ..), ih b y _ _ rfl, interpret_under hr]
    refine interpret_congr fun z hz => ?_
    by_cases hzy : z = y
    · rw [hzy, Naming.set_self, Naming.under_self, interpret, Naming.set_of_ne hx,
        Naming.under_self]
    · rw [Naming.set_of_ne hzy, Naming.under_of_ne hzy]
      by_cases hzx : z = x
      · rw [hzx, Naming.set_self, Naming.set_self]
      · rw [Naming.set_of_ne hzx, Naming.set_of_ne hzx,
          Naming.under_of_ne (by rintro rfl; exact hb hz)]
  · next hsafe =>
    rw [ih b x r _ rfl]
    refine interpret_congr fun z hz => ?_
    by_cases hzx : z = x
    · subst hzx
      have hr : y ∉ r.freeVars := by
        intro hy
        refine hsafe ?_
        rw [(occurs_iff_mem_freeVars z b).2 hz, Bool.and_true]
        exact List.contains_iff_mem.2 hy
      rw [Naming.set_self, Naming.under_of_ne (fun h => hyx h.symm), Naming.set_self,
        interpret_under hr]
    · rw [Naming.set_of_ne hzx]
      by_cases hzy : z = y
      · rw [hzy, Naming.under_self, Naming.under_self]
      · rw [Naming.under_of_ne hzy, Naming.under_of_ne hzy, Naming.set_of_ne hzx]

/-- **Substitution is capture-avoiding**: a term with a variable replaced means what the term means
when the variable means the replacement. -/
theorem interpret_substitute (t : Term) (x : String) (r : Term) (σ : Naming) :
    (t.substitute x r).interpret σ = t.interpret (σ.set x (r.interpret σ)) := by
  -- a renamed body is not a part of the term, but it has the size of one
  induction hn : t.size using Nat.strongRecOn generalizing t x r σ with
  | ind n ih =>
    subst hn
    cases t with
    | sort | global | lit | hole => rfl
    | var y =>
      rw [substitute_var, interpret]
      by_cases hyx : y = x
      · rw [if_pos hyx, hyx, Naming.set_self]
      · rw [if_neg hyx, Naming.set_of_ne hyx, interpret]
    | pi y a b =>
      rw [substitute_pi, interpret, interpret, ih a.size (by simp only [size]; omega) a x r σ rfl,
        interpret_substituteBody fun t x r σ ht =>
          ih t.size (by simp only [size]; omega) t x r σ rfl]
    | lam y a b =>
      rw [substitute_lam, interpret, interpret, ih a.size (by simp only [size]; omega) a x r σ rfl,
        interpret_substituteBody fun t x r σ ht =>
          ih t.size (by simp only [size]; omega) t x r σ rfl]
    | fix y b =>
      rw [substitute_fix, interpret, interpret, interpret_substituteBody fun t x r σ ht =>
        ih t.size (by simp only [size]; omega) t x r σ rfl]
    | app f a =>
      rw [substitute_app, interpret, interpret, ih f.size (by simp only [size]; omega) f x r σ rfl,
        ih a.size (by simp only [size]; omega) a x r σ rfl]
    | elim s m cases =>
      rw [substitute_elim, interpret, interpret, ih s.size (by simp only [size]; omega) s x r σ rfl,
        ih m.size (by simp only [size]; omega) m x r σ rfl, interpretAll_eq_map,
        interpretAll_eq_map, List.map_map]
      congr 1
      refine List.map_congr_left fun c hc => ?_
      have := size_le_sizes hc
      exact ih c.size (by simp only [size]; omega) c x r σ rfl

/-- The body of a binder with a value put in is the body at the meaning of the value. -/
theorem interpret_substitute_eq_instantiate (b : Term) (x : String) (a : Term) (σ : Naming) :
    (b.substitute x a).interpret σ = (b.interpret (σ.under x)).instantiate (a.interpret σ) := by
  rw [interpret_substitute, instantiate_interpret]

/-- A binder may be renamed to a name that its body does not use. -/
theorem interpret_substitute_var_under {b : Term} {x y : String} (h : y = x ∨ y ∉ b.freeVars)
    (σ : Naming) : (b.substitute x (.var y)).interpret (σ.under y) = b.interpret (σ.under x) := by
  rw [interpret_substitute]
  refine interpret_congr fun z hz => ?_
  by_cases hzx : z = x
  · rw [hzx, Naming.set_self, interpret, Naming.under_self, Naming.under_self]
  · have hzy : z ≠ y := by
      rintro rfl
      exact h.elim hzx fun hb => hb hz
    rw [Naming.set_of_ne hzx, Naming.under_of_ne hzx, Naming.under_of_ne hzy]

theorem interpret_rename_under {b : Term} {x y : String} (h : y = x ∨ y ∉ b.freeVars) (σ : Naming) :
    (b.rename x y).interpret (σ.under y) = b.interpret (σ.under x) := by
  unfold rename
  by_cases hxy : x = y
  · rw [if_pos hxy, hxy]
  · rw [if_neg hxy, interpret_substitute_var_under h]

/-! ## Free variables -/

/-- The names that are free in the meaning of a term are those free in the meanings of its
variables. -/
theorem mem_frees_interpret (t : Term) (σ : Naming) (y : String) :
    y ∈ (t.interpret σ).frees ↔ ∃ x ∈ t.freeVars, y ∈ (σ x).frees := by
  have hunder : ∀ (σ : Naming) (x : String) (xs : List String),
      (∃ z ∈ xs, y ∈ (σ.under x z).frees) ↔ ∃ z ∈ xs.filter (· != x), y ∈ (σ z).frees := by
    intro σ x xs
    constructor
    · rintro ⟨z, hz, hy⟩
      by_cases hzx : z = x
      · rw [hzx, Naming.under_self] at hy
        cases hy
      · rw [Naming.under_of_ne hzx, Nameless.frees_shift] at hy
        exact ⟨z, mem_filter_ne.2 ⟨hz, hzx⟩, hy⟩
    · rintro ⟨z, hz, hy⟩
      obtain ⟨hz, hzx⟩ := mem_filter_ne.1 hz
      refine ⟨z, hz, ?_⟩
      rw [Naming.under_of_ne hzx, Nameless.frees_shift]
      exact hy
  induction t generalizing σ with
  | sort | global | lit | hole => simp [interpret, Nameless.frees, freeVars]
  | var x => simp [interpret, freeVars]
  | pi x a b iha ihb | lam x a b iha ihb =>
    rw [interpret, Nameless.frees, freeVars, List.mem_append]
    refine (or_congr (iha σ) ((ihb _).trans (hunder σ x _))).trans ?_
    simp only [List.mem_append, or_and_right, exists_or]
  | app f a ihf iha =>
    rw [interpret, Nameless.frees, freeVars, List.mem_append]
    refine (or_congr (ihf σ) (iha σ)).trans ?_
    simp only [List.mem_append, or_and_right, exists_or]
  | fix x b ihb => exact (ihb _).trans (hunder σ x _)
  | elim s m cases ihs ihm ihc =>
    have hcases : y ∈ Nameless.freesAll (interpretAll σ cases) ↔
        ∃ x ∈ freeVarsAll cases, y ∈ (σ x).frees := by
      rw [interpretAll_eq_map, Nameless.freesAll_eq_flatMap, List.flatMap_map, List.mem_flatMap]
      constructor
      · rintro ⟨c, hc, hy⟩
        obtain ⟨x, hx, hy⟩ := (ihc c hc σ).1 hy
        exact ⟨x, mem_freeVarsAll.2 ⟨c, hc, hx⟩, hy⟩
      · rintro ⟨x, hx, hy⟩
        obtain ⟨c, hc, hx⟩ := mem_freeVarsAll.1 hx
        exact ⟨c, hc, (ihc c hc σ).2 ⟨x, hx, hy⟩⟩
    rw [interpret, Nameless.frees, freeVars, List.mem_append, List.mem_append]
    refine (or_congr (or_congr (ihs σ) (ihm σ)) hcases).trans ?_
    simp only [List.mem_append, or_and_right, exists_or]

/-- The free variables of a term are those of its nameless form. -/
theorem mem_frees_nameless {t : Term} {y : String} : y ∈ t.nameless.frees ↔ y ∈ t.freeVars := by
  rw [nameless, mem_frees_interpret]
  simp [Naming.free, Nameless.frees, Atom.frees]

theorem mem_freeVars_substitute {t : Term} {x y : String} {r : Term} :
    y ∈ (t.substitute x r).freeVars ↔
      (y ∈ t.freeVars ∧ y ≠ x) ∨ (x ∈ t.freeVars ∧ y ∈ r.freeVars) := by
  rw [← mem_frees_nameless, nameless, interpret_substitute, mem_frees_interpret]
  constructor
  · rintro ⟨z, hz, hy⟩
    by_cases hzx : z = x
    · rw [hzx, Naming.set_self] at hy
      exact .inr ⟨hzx ▸ hz, mem_frees_nameless.1 hy⟩
    · rw [Naming.set_of_ne hzx] at hy
      obtain rfl : y = z := by simpa [Naming.free, Nameless.frees, Atom.frees] using hy
      exact .inl ⟨hz, hzx⟩
  · rintro (⟨hy, hyx⟩ | ⟨hx, hy⟩)
    · exact ⟨y, hy, by simp [Naming.set_of_ne hyx, Naming.free, Nameless.frees, Atom.frees]⟩
    · exact ⟨x, hx, by rw [Naming.set_self]; exact mem_frees_nameless.2 hy⟩

/-- A renamed term has the new name and the variables it had before. -/
theorem mem_freeVars_rename {t : Term} {x y z : String} (h : z ∈ (t.rename x y).freeVars) :
    z = y ∨ (z ∈ t.freeVars ∧ z ≠ x) := by
  unfold rename at h
  split at h
  · next hxy =>
    by_cases hzx : z = x
    · exact .inl (hzx.trans hxy)
    · exact .inr ⟨h, hzx⟩
  · rcases mem_freeVars_substitute.1 h with hz | ⟨_, hz⟩
    · exact .inr hz
    · exact .inl (List.mem_singleton.1 hz)

/-- A name that is not one of those in scope is not one of a codomain, unless it is the binder's. -/
theorem eq_or_not_mem_codomain {x y : String} {a b : Term} {xs : List String} (hx : x ∉ xs)
    (h : ∀ z ∈ (pi y a b).freeVars, z ∈ xs) : x = y ∨ x ∉ b.freeVars := by
  by_cases hxy : x = y
  · exact .inl hxy
  · refine .inr fun hmem => hx (h x ?_)
    exact List.mem_append_right _ (mem_filter_ne.2 ⟨hmem, hxy⟩)

/-- A codomain under a new name has that name and those in scope. -/
theorem mem_cons_of_mem_codomain_rename {x y : String} {a b : Term} {xs : List String}
    (h : ∀ z ∈ (pi y a b).freeVars, z ∈ xs) :
    ∀ z ∈ (b.substitute y (.var x)).freeVars, z ∈ x :: xs := by
  intro z hz
  rcases mem_freeVars_substitute.1 hz with ⟨hz, hzy⟩ | ⟨_, hz⟩
  · exact List.mem_cons_of_mem _ (h z (List.mem_append_right _ (mem_filter_ne.2 ⟨hz, hzy⟩)))
  · rw [List.mem_singleton.1 hz]
    exact List.mem_cons_self

end Term

/-! ## Composing substitutions -/

namespace Nameless

/-- One substitution after another. -/
theorem subst_subst (τ τ' : Atom → Nameless) (u : Nameless) :
    (u.subst τ).subst τ' = u.subst (subst τ' ∘ τ) := by
  have hlift : ∀ τ τ', subst (lift τ') ∘ lift τ = lift (subst τ' ∘ τ) := by
    intro τ τ'
    funext a
    match a with
    | .bound 0 => rfl
    | .bound (i + 1) => exact subst_shift τ' (τ (.bound i))
    | .free x => exact subst_shift τ' (τ (.free x))
  induction u generalizing τ τ' with
  | sort | atom | global | lit | hole => rfl
  | pi a b iha ihb | lam a b iha ihb => simp only [subst, iha, ihb, hlift]
  | app h a ihh iha => simp only [subst, ihh, iha]
  | fix b ihb => simp only [subst, ihb, hlift]
  | elim s m cases ihs ihm ihc =>
    simp only [subst, ihs, ihm, substAll_eq_map, List.map_map]
    congr 1
    exact List.map_congr_left fun c hc => ihc c hc τ τ'

/-- Renaming replaces variables by variables. -/
theorem rename_eq_subst (f : Atom → Atom) (u : Nameless) : u.rename f = u.subst (atom ∘ f) := by
  have h := rename_subst atom f u
  rwa [subst_atom] at h

theorem lift_atom_comp (f : Atom → Atom) : lift (atom ∘ f) = atom ∘ Atom.lift f := by
  funext a
  match a with
  | .bound 0 | .bound (_ + 1) | .free _ => rfl

theorem subst_instantiate (u v : Nameless) (τ : Atom → Nameless) :
    (u.instantiate v).subst τ = (u.subst (lift τ)).instantiate (v.subst τ) := by
  have hpoint : subst τ ∘ point v = subst (point (v.subst τ)) ∘ lift τ := by
    funext a
    match a with
    | .bound 0 => rfl
    | .bound (i + 1) => exact (instantiate_shift (τ (.bound i)) _).symm
    | .free x => exact (instantiate_shift (τ (.free x)) _).symm
  rw [instantiate, instantiate, subst_subst, subst_subst, hpoint]

end Nameless

namespace Term

theorem nameless_subst {t : Term} (h : t.freeVars = []) (τ : Atom → Nameless) :
    t.nameless.subst τ = t.nameless := by
  rw [nameless, interpret_subst]
  exact interpret_of_closed h _ _

end Term

end ProofKernel
