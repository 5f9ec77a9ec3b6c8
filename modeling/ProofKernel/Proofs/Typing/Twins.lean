import ProofKernel.Proofs.Nameless.Cases
import ProofKernel.Proofs.Nameless.Guard
import ProofKernel.Proofs.Typing.Scope

/-!
# Contexts that differ in names

Two runs of the kernel on terms of the same meaning keep contexts of the same shape, whose variables
and types mean the same.

* `SymbolTable.Closed` says of a table that its entries have no free variables.
* `Twins` relates the contexts of the two runs, together with the names in use around them, and
  `Alike` the types that the runs find.  No name is bound twice, so that the types in a context stay
  what they are under a new binder (`Twins.extend`): this is where hygiene is needed.
* What is read off a type agrees in both runs: `Twins.get?_cases`, `Twins.asSort_value_eq`,
  `Twins.asPi_cases`, `Twins.familyOf_cases`, `Twins.compare_matches`.
-/

set_option autoImplicit false
namespace ProofKernel

open Term (interpret shape)

/-- The entries of a table are closed. -/
structure SymbolTable.Closed (table : SymbolTable) : Prop where
  type : ∀ name A, table.type? name = some A → A.freeVars = []
  constructor : ∀ name c, table.constructor? name = some c → c.type.freeVars = []
  body : table.BodiesClosed

/-- A type that is not a product is read as the one it reduces to. -/
theorem asPi_of_not_pi {options : Options} {table : SymbolTable} {t : Term}
    (h : ¬ ∃ x a b, t = .pi x a b) :
    (asPi options table t).value = match table.reduce options.fuel t with
      | .pi x a b => some (x, a, b)
      | _ => none := by
  unfold asPi
  split
  · exact absurd ⟨_, _, _, rfl⟩ h
  · rw [Traced.value_bind, SymbolTable.value_normalize]
    cases table.reduce options.fuel t <;> rfl

/-! ## Contexts -/

/-- The contexts of two runs, with the names in use on each side. -/
structure Twins (table : SymbolTable) (σ σ' : Naming) (Γ Γ' : Context) (used used' : List String) :
    Prop where
  faithful : σ.Faithful
  faithful' : σ'.Faithful
  overTable : Γ.table = table
  overTable' : Γ'.table = table
  locals : (Γ.locals.map fun p => (σ p.1, p.2.interpret σ)) =
    Γ'.locals.map fun p => (σ' p.1, p.2.interpret σ')
  inScope : ∀ p ∈ Γ.locals, ∀ z ∈ p.2.freeVars, z ∈ Γ.names
  inScope' : ∀ p ∈ Γ'.locals, ∀ z ∈ p.2.freeVars, z ∈ Γ'.names
  names : ∀ z ∈ Γ.names, z ∈ used ∧ z ≠ Term.placeholder
  names' : ∀ z ∈ Γ'.names, z ∈ used' ∧ z ≠ Term.placeholder
  placeholder : Term.placeholder ∈ used
  placeholder' : Term.placeholder ∈ used'

/-- Terms of the same meaning that are in scope. -/
structure Alike (σ σ' : Naming) (Γ Γ' : Context) (t t' : Term) : Prop where
  same : t.interpret σ = t'.interpret σ'
  inScope : ∀ z ∈ t.freeVars, z ∈ Γ.names
  inScope' : ∀ z ∈ t'.freeVars, z ∈ Γ'.names

variable {options : Options} {table : SymbolTable} {σ σ' : Naming} {Γ Γ' : Context}
  {used used' : List String}

namespace Twins

/-- A variable in scope on one side means one that is in scope on the other. -/
theorem mem_names (h : Twins table σ σ' Γ Γ' used used') {x x' : String} (hx : σ x = σ' x')
    (hmem : x ∈ Γ.names) : x' ∈ Γ'.names := by
  obtain ⟨p, hp, rfl⟩ := List.mem_map.1 hmem
  have hmap : (σ p.1, p.2.interpret σ) ∈ Γ'.locals.map fun p => (σ' p.1, p.2.interpret σ') := by
    rw [← h.locals]
    exact List.mem_map_of_mem hp
  obtain ⟨p', hp', heq⟩ := List.mem_map.1 hmap
  rw [Prod.mk.injEq] at heq
  rw [← h.faithful'.injective (heq.1.trans hx)]
  exact List.mem_map_of_mem hp'

/-- The two sides may be exchanged. -/
theorem symm (h : Twins table σ σ' Γ Γ' used used') : Twins table σ' σ Γ' Γ used' used where
  faithful := h.faithful'
  faithful' := h.faithful
  overTable := h.overTable'
  overTable' := h.overTable
  locals := h.locals.symm
  inScope := h.inScope'
  inScope' := h.inScope
  names := h.names'
  names' := h.names
  placeholder := h.placeholder'
  placeholder' := h.placeholder

/-- A term is in scope iff the term of the same meaning is. -/
theorem scoped_iff (h : Twins table σ σ' Γ Γ' used used') {t t' : Term}
    (ht : t.interpret σ = t'.interpret σ') :
    (∀ z ∈ t.freeVars, z ∈ Γ.names) ↔ ∀ z ∈ t'.freeVars, z ∈ Γ'.names := by
  constructor
  · intro hs z' hz'
    obtain ⟨z, hz, heq⟩ := Term.covers_freeVars h.faithful' h.faithful ht.symm z' hz'
    exact h.mem_names heq.symm (hs z hz)
  · intro hs z hz
    obtain ⟨z', hz', heq⟩ := Term.covers_freeVars h.faithful h.faithful' ht z hz
    exact h.symm.mem_names heq.symm (hs z' hz')

theorem alike (h : Twins table σ σ' Γ Γ' used used') {t t' : Term}
    (ht : t.interpret σ = t'.interpret σ') (hs : ∀ z ∈ t.freeVars, z ∈ Γ.names) :
    Alike σ σ' Γ Γ' t t' :=
  ⟨ht, hs, (h.scoped_iff ht).1 hs⟩

/-- The types of a context are seen shifted from inside a new binder. -/
theorem locals_under {Γ : Context} {σ : Naming} {x : String}
    (hs : ∀ p ∈ Γ.locals, ∀ z ∈ p.2.freeVars, z ∈ Γ.names) (hx : x ∉ Γ.names) :
    (Γ.locals.map fun p => (σ.under x p.1, p.2.interpret (σ.under x))) =
      (Γ.locals.map fun p => (σ p.1, p.2.interpret σ)).map fun q => (q.1.shift, q.2.shift) := by
  rw [List.map_map]
  refine List.map_congr_left fun p hp => ?_
  have hname : p.1 ≠ x := by
    rintro rfl
    exact hx (List.mem_map_of_mem hp)
  rw [Naming.under_of_ne hname, Term.interpret_under fun hmem => hx (hs p hp x hmem)]
  rfl

/-- A new name may come into use without being in scope. -/
theorem under (h : Twins table σ σ' Γ Γ' used used') {x x' : String} (hx : x ∉ used)
    (hx' : x' ∉ used') :
    Twins table (σ.under x) (σ'.under x') Γ Γ' (x :: used) (x' :: used') where
  faithful := h.faithful.under x
  faithful' := h.faithful'.under x'
  overTable := h.overTable
  overTable' := h.overTable'
  locals := by
    rw [locals_under h.inScope fun hmem => hx (h.names x hmem).1,
      locals_under h.inScope' fun hmem => hx' (h.names' x' hmem).1, h.locals]
  inScope := h.inScope
  inScope' := h.inScope'
  names := fun z hz => ⟨List.mem_cons_of_mem _ (h.names z hz).1, (h.names z hz).2⟩
  names' := fun z hz => ⟨List.mem_cons_of_mem _ (h.names' z hz).1, (h.names' z hz).2⟩
  placeholder := List.mem_cons_of_mem _ h.placeholder
  placeholder' := List.mem_cons_of_mem _ h.placeholder'

/-- What is in scope means the same inside a new binder. -/
theorem interpret_under_eq (h : Twins table σ σ' Γ Γ' used used') {x x' : String} (hx : x ∉ used)
    (hx' : x' ∉ used') {t t' : Term} (ht : Alike σ σ' Γ Γ' t t') :
    t.interpret (σ.under x) = t'.interpret (σ'.under x') := by
  rw [Term.interpret_under fun hmem => hx (h.names x (ht.inScope x hmem)).1,
    Term.interpret_under fun hmem => hx' (h.names' x' (ht.inScope' x' hmem)).1, ht.same]

/-- What means the same inside a new binder and is in scope does so outside. -/
theorem alike_of_under (h : Twins table σ σ' Γ Γ' used used') {x x' : String} (hx : x ∉ used)
    (hx' : x' ∉ used') {t t' : Term} (ht : Alike (σ.under x) (σ'.under x') Γ Γ' t t') :
    Alike σ σ' Γ Γ' t t' := by
  refine ⟨Nameless.shift_injective ?_, ht.inScope, ht.inScope'⟩
  rw [← Term.interpret_under fun hmem => hx (h.names x (ht.inScope x hmem)).1,
    ← Term.interpret_under fun hmem => hx' (h.names' x' (ht.inScope' x' hmem)).1, ht.same]

/-- **A binder of a new name keeps contexts alike.** -/
theorem extend (h : Twins table σ σ' Γ Γ' used used') {x x' : String} (hx : x ∉ used)
    (hx' : x' ∉ used') {a a' : Term} (ha : Alike σ σ' Γ Γ' a a') :
    Twins table (σ.under x) (σ'.under x') (Γ.extend x a) (Γ'.extend x' a') (x :: used)
      (x' :: used') := by
  have hunder := h.under hx hx'
  have hne : ∀ {x : String} {used : List String}, Term.placeholder ∈ used → x ∉ used →
      x ≠ Term.placeholder := by
    rintro x used hp hx rfl
    exact hx hp
  refine ⟨hunder.faithful, hunder.faithful', h.overTable, h.overTable', ?_, ?_, ?_, ?_, ?_,
    hunder.placeholder, hunder.placeholder'⟩
  · rw [Context.extend, Context.extend, List.map_cons, List.map_cons, hunder.locals,
      h.interpret_under_eq hx hx' ha, Naming.under_self, Naming.under_self]
  · rintro p hp z hz
    rcases List.mem_cons.1 hp with rfl | hp
    · exact List.mem_cons_of_mem _ (ha.inScope z hz)
    · exact List.mem_cons_of_mem _ (h.inScope p hp z hz)
  · rintro p hp z hz
    rcases List.mem_cons.1 hp with rfl | hp
    · exact List.mem_cons_of_mem _ (ha.inScope' z hz)
    · exact List.mem_cons_of_mem _ (h.inScope' p hp z hz)
  · intro z hz
    rcases List.mem_cons.1 hz with rfl | hz
    · exact ⟨List.mem_cons_self, hne h.placeholder hx⟩
    · exact hunder.names z hz
  · intro z hz
    rcases List.mem_cons.1 hz with rfl | hz
    · exact ⟨List.mem_cons_self, hne h.placeholder' hx'⟩
    · exact hunder.names' z hz

theorem alike_extend (h : Twins table σ σ' Γ Γ' used used') {x x' : String} (hx : x ∉ used)
    (hx' : x' ∉ used') {a a' t t' : Term} (ht : Alike σ σ' Γ Γ' t t') :
    Alike (σ.under x) (σ'.under x') (Γ.extend x a) (Γ'.extend x' a') t t' :=
  ⟨h.interpret_under_eq hx hx' ht, fun z hz => List.mem_cons_of_mem _ (ht.inScope z hz),
    fun z hz => List.mem_cons_of_mem _ (ht.inScope' z hz)⟩

/-! ## Local variables -/

/-- A variable is unbound on both sides, or has types that are alike. -/
theorem get?_cases (h : Twins table σ σ' Γ Γ' used used') {x x' : String} (hx : σ x = σ' x') :
    (Γ.get? x = none ∧ Γ'.get? x' = none) ∨
      ∃ a a', Γ.get? x = some a ∧ Γ'.get? x' = some a' ∧ Alike σ σ' Γ Γ' a a' := by
  have hlookup : ∀ ls ls' : List (String × Term),
      (ls.map fun p => (σ p.1, p.2.interpret σ)) = (ls'.map fun p => (σ' p.1, p.2.interpret σ')) →
      (ls.lookup x = none ∧ ls'.lookup x' = none) ∨ ∃ p ∈ ls, ∃ p' ∈ ls',
        ls.lookup x = some p.2 ∧ ls'.lookup x' = some p'.2 ∧
          p.2.interpret σ = p'.2.interpret σ' := by
    intro ls
    induction ls with
    | nil =>
      intro ls' hmap
      obtain rfl : ls' = [] := List.map_eq_nil_iff.1 hmap.symm
      exact .inl ⟨rfl, rfl⟩
    | cons p rest ih =>
      intro ls' hmap
      obtain ⟨p', rest', rfl, hp, hrest⟩ := List.map_eq_cons_iff.1 hmap.symm
      rw [Prod.mk.injEq] at hp
      have hiff : x = p.1 ↔ x' = p'.1 :=
        Guard.eq_iff_of_faithful h.faithful h.faithful' hp.1.symm hx
      rw [List.lookup_cons, List.lookup_cons]
      by_cases hxp : x = p.1
      · rw [beq_iff_eq.2 hxp, beq_iff_eq.2 (hiff.1 hxp)]
        exact .inr ⟨p, List.mem_cons_self, p', List.mem_cons_self, rfl, rfl, hp.2.symm⟩
      · rw [beq_eq_false_iff_ne.2 hxp, beq_eq_false_iff_ne.2 fun e => hxp (hiff.2 e)]
        rcases ih rest' hrest.symm with hnone | ⟨q, hq, q', hq', hsome⟩
        · exact .inl hnone
        · exact .inr ⟨q, List.mem_cons_of_mem _ hq, q', List.mem_cons_of_mem _ hq', hsome⟩
  rcases hlookup _ _ h.locals with hnone | ⟨p, hp, p', hp', ha, ha', heq⟩
  · exact .inl hnone
  · exact .inr ⟨p.2, p'.2, ha, ha', heq, h.inScope p hp, h.inScope' p' hp'⟩

/-! ## What is read off a type -/

variable {t t' : Term}

theorem reduce_alike (h : Twins table σ σ' Γ Γ' used used') (hbodies : table.BodiesClosed)
    (n : Nat) (ht : Alike σ σ' Γ Γ' t t') :
    Alike σ σ' Γ Γ' (table.reduce n t) (table.reduce n t') :=
  ⟨SymbolTable.reduce_congr hbodies h.faithful h.faithful' n ht.same,
    fun z hz => ht.inScope z (SymbolTable.freeVars_reduce hbodies hz),
    fun z hz => ht.inScope' z (SymbolTable.freeVars_reduce hbodies hz)⟩

theorem asSort_value_eq (h : Twins table σ σ' Γ Γ' used used') (hbodies : table.BodiesClosed)
    (ht : t.interpret σ = t'.interpret σ') :
    (asSort options table t).value = (asSort options table t').value := by
  have hreduce := shape h.faithful h.faithful'
    (SymbolTable.reduce_congr hbodies h.faithful h.faithful' options.fuel ht)
  refine Option.ext fun u => ?_
  rw [asSort_value, asSort_value]
  generalize table.reduce options.fuel t = r, table.reduce options.fuel t' = r' at hreduce
  cases hreduce with
  | sort v => exact Iff.rfl
  | _ => exact iff_of_false nofun nofun

/-- A type is read as a product on both sides, or on none. -/
theorem asPi_cases (h : Twins table σ σ' Γ Γ' used used') (hbodies : table.BodiesClosed)
    (ht : Alike σ σ' Γ Γ' t t') :
    ((asPi options table t).value = none ∧ (asPi options table t').value = none) ∨
      ∃ y a b y' a' b', (asPi options table t).value = some (y, a, b) ∧
        (asPi options table t').value = some (y', a', b') ∧
        Alike σ σ' Γ Γ' (.pi y a b) (.pi y' a' b') := by
  by_cases hpi : ∃ y a b, t = .pi y a b
  · obtain ⟨y, a, b, rfl⟩ := hpi
    cases shape h.faithful h.faithful' ht.same with
    | pi ha hb => exact .inr ⟨_, _, _, _, _, _, rfl, rfl, ht⟩
  have hpi' : ¬ ∃ y a b, t' = .pi y a b := by
    rintro ⟨y, a, b, rfl⟩
    cases shape h.faithful h.faithful' ht.same with
    | pi => exact hpi ⟨_, _, _, rfl⟩
  have hreduce := h.reduce_alike hbodies options.fuel ht
  rw [asPi_of_not_pi hpi, asPi_of_not_pi hpi']
  generalize table.reduce options.fuel t = r, table.reduce options.fuel t' = r' at hreduce
  cases shape h.faithful h.faithful' hreduce.same with
  | pi ha hb => exact .inr ⟨_, _, _, _, _, _, rfl, rfl, hreduce⟩
  | _ => exact .inl ⟨rfl, rfl⟩

/-- A type is read as an inductive type on both sides, or on none; the parameters are alike. -/
theorem familyOf_cases (h : Twins table σ σ' Γ Γ' used used') (ht : Alike σ σ' Γ Γ' t t') :
    (∃ e e', table.familyOf t = .error e ∧ table.familyOf t' = .error e') ∨
      ∃ family, table.familyOf t = .ok (family, t.args) ∧
        table.familyOf t' = .ok (family, t'.args) := by
  have hargs := congrArg List.length (Term.args_congr h.faithful h.faithful' ht.same)
  rw [List.length_map, List.length_map] at hargs
  unfold SymbolTable.familyOf
  rw [Term.headGlobal?_congr h.faithful h.faithful' ht.same, hargs]
  cases t'.headGlobal?.bind table.family? with
  | none => exact .inl ⟨_, _, rfl, rfl⟩
  | some family =>
    dsimp only
    split
    · exact .inr ⟨family, rfl, rfl⟩
    · exact .inl ⟨_, _, rfl, rfl⟩

/-- One type is a subtype of another one on both sides, or on none. -/
theorem compare_matches (h : Twins table σ σ' Γ Γ' used used') (hbodies : table.BodiesClosed)
    {e e' : Term} (he : e.interpret σ = e'.interpret σ') (ht : t.interpret σ = t'.interpret σ') :
    Verdict.Matches (fun _ _ => True) (compare options Γ e t) (compare options Γ' e' t') := by
  have hle : (isSubtype options Γ.table t e).value = (isSubtype options Γ'.table t' e').value := by
    rw [isSubtype_value, isSubtype_value, h.overTable, h.overTable']
    exact Term.le_congr h.faithful h.faithful'
      (SymbolTable.reduce_congr hbodies h.faithful h.faithful' _ ht)
      (SymbolTable.reduce_congr hbodies h.faithful h.faithful' _ he)
  unfold compare
  refine Verdict.Matches.lift_bind ?_
  rw [hle]
  split
  · exact Verdict.Matches.pure trivial
  · exact Verdict.Matches.reject _ _

end Twins

end ProofKernel
