import ProofKernel.Proofs.Hygiene
import ProofKernel.Proofs.Nameless.Cases
import ProofKernel.Proofs.Nameless.Reduction
import ProofKernel.Proofs.Typing.Scope

/-!
# The variables of inferred types

An inferred type has the variables of its context, with one exception.  The type of a fixpoint is
read off a motive and a scrutinee before these are looked at, so that the name of the fixpoint can
be left in it.

* `Term.selfRead` lists the names of the fixpoints of a term that refer to themselves where their
  type is read off.
* `ScopesTypes` is the statement for a term, for inference and for the types of fixpoints; it is
  shown from smaller terms.
* `freeVars_infer`: a variable of an inferred type is in scope, comes from a registered type, or is
  such a name.
-/

set_option autoImplicit false
namespace ProofKernel

variable {options : Options} {E : String → Prop}

/-! ## Fixpoints that refer to themselves -/

namespace Term

mutual

/-- The names of the fixpoints of a term that refer to themselves where their type is read off. -/
def selfRead : Term → List String
  | sort _ | var _ | global _ | lit _ | hole => []
  | pi _ a b | lam _ a b | app a b => a.selfRead ++ b.selfRead
  | elim s m cases => s.selfRead ++ m.selfRead ++ selfReadAll cases
  | fix x b => if b.matchVars.contains x then x :: b.selfRead else b.selfRead

/-- The same for a list of terms. -/
def selfReadAll : List Term → List String
  | [] => []
  | t :: rest => t.selfRead ++ selfReadAll rest

end

variable {x : String} {b : Term}

theorem mem_selfRead_fix (h : x ∈ b.matchVars) : x ∈ (fix x b).selfRead := by
  rw [selfRead, if_pos (List.contains_iff_mem.2 h)]
  exact List.mem_cons_self

theorem selfRead_fix_subset {z : String} (h : z ∈ b.selfRead) : z ∈ (fix x b).selfRead := by
  rw [selfRead]
  split
  · exact List.mem_cons_of_mem _ h
  · exact h

end Term

/-! ## Contexts and tables -/

/-- The types in a context have its variables, and names of a set. -/
def Context.Scoped (E : String → Prop) (Γ : Context) : Prop :=
  ∀ p ∈ Γ.locals, ∀ z ∈ p.2.freeVars, z ∈ Γ.names ∨ E z

namespace Context.Scoped

variable {Γ : Context}

theorem ofTable (table : SymbolTable) : (Context.ofTable table).Scoped E := nofun

theorem extend (h : Γ.Scoped E) {a : Term} (ha : ∀ z ∈ a.freeVars, z ∈ Γ.names ∨ E z)
    (x : String) : (Γ.extend x a).Scoped E := by
  refine List.forall_mem_cons.2 ⟨fun z hz => ?_, fun p hp z hz => ?_⟩
  · exact (ha z hz).imp_left (List.mem_cons_of_mem _)
  · exact (h p hp z hz).imp_left (List.mem_cons_of_mem _)

theorem get? (h : Γ.Scoped E) {x : String} {a : Term} (hx : Γ.get? x = some a) :
    ∀ z ∈ a.freeVars, z ∈ Γ.names ∨ E z := by
  obtain ⟨l₁, l₂, hsplit, _⟩ := List.lookup_eq_some_iff.1 hx
  exact h (x, a) (hsplit ▸ List.mem_append_right _ List.mem_cons_self)

end Context.Scoped

/-- The bodies that a table registers are closed, and its types have no variables but those of a
set. -/
structure SymbolTable.Scopes (E : String → Prop) (table : SymbolTable) : Prop where
  bodies : table.BodiesClosed
  types : ∀ name A, table.type? name = some A → ∀ z ∈ A.freeVars, E z

/-- The product that a type is read as has the variables of the type. -/
theorem freeVars_asPi {table : SymbolTable} (hbodies : table.BodiesClosed)
    {t domain codomain : Term} {x : String}
    (h : (asPi options table t).value = some (x, domain, codomain)) {z : String}
    (hz : z ∈ (Term.pi x domain codomain).freeVars) : z ∈ t.freeVars := by
  unfold asPi at h
  split at h
  · cases h
    exact hz
  · rw [Traced.value_bind, SymbolTable.value_normalize] at h
    split at h
    · next hnormal =>
      cases h
      exact SymbolTable.freeVars_reduce hbodies (hnormal ▸ hz)
    · cases h

/-! ## Inferred types -/

/-- The variables of the types that are inferred for a term are in scope or in a set, and so are
those of the type of a fixpoint with this body, but for the variables that it is read off. -/
structure ScopesTypes (options : Options) (E : String → Prop) (table : SymbolTable) (t : Term) :
    Prop where
  infer : ∀ {locals : Telescope} {type : Term}, (⟨table, locals⟩ : Context).Scoped E →
    (infer options ⟨table, locals⟩ t).outcome = .ok type →
      ∀ z ∈ type.freeVars, z ∈ (⟨table, locals⟩ : Context).names ∨ E z
  fixType : ∀ {locals : Telescope} {type : Term}, (⟨table, locals⟩ : Context).Scoped E →
    (fixType options ⟨table, locals⟩ t).outcome = .ok type →
      ∀ z ∈ type.freeVars, (z ∈ (⟨table, locals⟩ : Context).names ∨ E z) ∨ z ∈ t.matchVars

/-- The type of a fixpoint over a match has the variables of its scrutinee and its motive. -/
theorem freeVars_fixType_elim {Γ : Context} {s m type : Term} {cases : List Term}
    (h : (fixType options Γ (.elim s m cases)).outcome = .ok type) :
    ∀ z ∈ type.freeVars, z ∈ s.freeVars ++ m.freeVars := by
  by_cases hlam : ∃ x a b, m = .lam x a b
  · obtain ⟨x, a, b, rfl⟩ := hlam
    rw [fixType] at h
    cases h
    intro z hz
    rcases Term.mem_freeVars_substitute.1 hz with ⟨hz, hzx⟩ | ⟨_, hz⟩
    · exact List.mem_append_right _ (List.mem_append_right _ (Term.mem_filter_ne.2 ⟨hz, hzx⟩))
    · exact List.mem_append_left _ hz
  · rw [fixType_elim fun x a b heq => hlam ⟨x, a, b, heq⟩, Verdict.bind_eq_ok_iff] at h
    obtain ⟨M, _, h⟩ := h
    rw [Verdict.outcome_bind, Verdict.outcome_liftM, Verdict.ok_bind] at h
    split at h
    · cases h
      exact fun z hz => List.mem_append_right _ hz
    · cases h
      intro z hz
      exact List.mem_append.2 (List.mem_append.1 (Term.freeVars_betaReduce hz)).symm

section Parts

variable {table : SymbolTable} {t : Term} (h : table.Scopes E) (ht : ∀ z ∈ t.selfRead, E z)
  (ih : ∀ u : Term, u.size < t.size → (∀ z ∈ u.selfRead, E z) → ScopesTypes options E table u)
include h ht ih

theorem freeVars_infer_of_parts {locals : Telescope} {type : Term}
    (hΓ : (⟨table, locals⟩ : Context).Scoped E)
    (haccepted : (infer options ⟨table, locals⟩ t).outcome = .ok type) :
    ∀ z ∈ type.freeVars, z ∈ (⟨table, locals⟩ : Context).names ∨ E z := by
  have hinfer := haccepted
  rw [infer_outcome, synthesize.eq_def] at hinfer
  cases t with
  | sort u =>
    cases hinfer
    exact fun _ hz => absurd hz List.not_mem_nil
  | lit value =>
    cases hinfer
    exact fun _ hz => absurd hz List.not_mem_nil
  | hole => cases hinfer
  | var x =>
    dsimp only at hinfer
    split at hinfer
    · next hx =>
      cases hinfer
      exact hΓ.get? hx
    · cases hinfer
  | global x =>
    dsimp only at hinfer
    split at hinfer
    · next hx =>
      cases hinfer
      exact fun z hz => .inr (h.types x _ hx z hz)
    · cases hinfer
  | pi x a b =>
    obtain ⟨_, _, _, _, rfl⟩ := infer_pi_eq_ok_iff.1 haccepted
    exact fun _ hz => absurd hz List.not_mem_nil
  | lam x a b =>
    obtain ⟨u, inner, ha, hinner, rfl⟩ := infer_lam_eq_ok_iff.1 haccepted
    rw [Term.selfRead, List.forall_mem_append] at ht
    have hscope := fun z hz => Or.inl (b := E z) (inferSort_scoped ha z hz)
    have hb := (ih b (by simp only [Term.size]; omega) ht.2).infer (hΓ.extend hscope x) hinner
    refine List.forall_mem_append.2 ⟨hscope, fun z hz => ?_⟩
    obtain ⟨hz, hzx⟩ := Term.mem_filter_ne.1 hz
    exact (hb z hz).imp_left fun hmem => (List.mem_cons.1 hmem).resolve_left hzx
  | app f a =>
    obtain ⟨_, x, domain, codomain, hf, hpi, ha, rfl⟩ := infer_app_eq_ok_iff.1 haccepted
    rw [Term.selfRead, List.forall_mem_append] at ht
    have hf := (ih f (by simp only [Term.size]; omega) ht.1).infer hΓ hf
    intro z hz
    rcases Term.mem_freeVars_substitute.1 hz with ⟨hz, hzx⟩ | ⟨_, hz⟩
    · refine hf z (freeVars_asPi h.bodies hpi ?_)
      exact List.mem_append_right _ (Term.mem_filter_ne.2 ⟨hz, hzx⟩)
    · exact .inl (check_scoped ha z hz)
  | elim s m cases =>
    obtain ⟨S, M, family, params, motive, hs, _, hm, hmotive, _, _, rfl⟩ :=
      infer_elim_eq_ok_iff.1 haccepted
    rw [Term.selfRead, List.forall_mem_append, List.forall_mem_append] at ht
    have hS := (ih s (by simp only [Term.size]; omega) ht.1.1).infer hΓ hs
    intro z hz
    rcases List.mem_append.1 (Term.freeVars_betaReduce hz) with hz | hz
    · rcases freeVars_effectiveMotive hmotive hz with hz | hz
      · exact .inl (infer_scoped hm z hz)
      · exact hS z (SymbolTable.freeVars_reduce h.bodies hz)
    · exact .inl (infer_scoped hs z hz)
  | fix x b =>
    simp only [Verdict.bind_eq_ok_iff] at hinfer
    obtain ⟨_, _, type', htype, _, _, _, hb, hpure⟩ := hinfer
    cases hpure
    have hread := (ih b (by simp only [Term.size]; omega) fun z hz =>
      ht z (Term.selfRead_fix_subset hz)).fixType hΓ htype
    intro z hz
    refine (hread z hz).elim id fun hmatch => ?_
    -- what the type is read off is in scope with the name of the fixpoint
    rcases List.mem_cons.1 (check_scoped hb z (Term.mem_freeVars_of_mem_matchVars hmatch)) with
      rfl | hmem
    · exact .inr (ht z (Term.mem_selfRead_fix hmatch))
    · exact .inl hmem

theorem freeVars_fixType_of_parts {locals : Telescope} {type : Term}
    (hΓ : (⟨table, locals⟩ : Context).Scoped E)
    (hfix : (fixType options ⟨table, locals⟩ t).outcome = .ok type) :
    ∀ z ∈ type.freeVars, (z ∈ (⟨table, locals⟩ : Context).names ∨ E z) ∨ z ∈ t.matchVars := by
  have hinfer : (infer options ⟨table, locals⟩ t).outcome = .ok type → _ :=
    freeVars_infer_of_parts h ht ih hΓ
  cases t with
  | lam x a b =>
    simp only [fixType, Verdict.bind_eq_ok_iff] at hfix
    obtain ⟨u, ha, inner, hinner, hpure⟩ := hfix
    cases hpure
    rw [Term.selfRead, List.forall_mem_append] at ht
    have hscope := fun z hz => Or.inl (b := E z) (inferSort_scoped ha z hz)
    have hb := (ih b (by simp only [Term.size]; omega) ht.2).fixType (hΓ.extend hscope x) hinner
    refine List.forall_mem_append.2 ⟨fun z hz => .inl (hscope z hz), fun z hz => ?_⟩
    obtain ⟨hz, hzx⟩ := Term.mem_filter_ne.1 hz
    refine (hb z hz).imp (fun hin => ?_) fun hmatch => Term.mem_filter_ne.2 ⟨hmatch, hzx⟩
    exact hin.imp_left fun hmem => (List.mem_cons.1 hmem).resolve_left hzx
  | elim s m cases =>
    exact fun z hz => .inr (freeVars_fixType_elim hfix z hz)
  | _ =>
    rw [fixType.eq_def] at hfix
    exact fun z hz => .inl (hinfer hfix z hz)

end Parts

/-- **Every term scopes its types**, with the names of fixpoints that refer to themselves. -/
theorem scopesTypes {table : SymbolTable} (h : table.Scopes E) {t : Term}
    (ht : ∀ z ∈ t.selfRead, E z) : ScopesTypes options E table t := by
  induction hn : t.size using Nat.strongRecOn generalizing t with
  | ind n ih =>
    subst hn
    have hparts : ∀ u : Term, u.size < t.size → (∀ z ∈ u.selfRead, E z) →
        ScopesTypes options E table u := fun u hu hread => ih u.size hu hread rfl
    exact ⟨freeVars_infer_of_parts h ht hparts, freeVars_fixType_of_parts h ht hparts⟩

/-- **A variable of the type of a closed term** comes from a registered type, or is the name of a
fixpoint that refers to itself where its type is read off. -/
theorem freeVars_infer {table : SymbolTable} (h : table.Scopes E) {t type : Term}
    (ht : ∀ z ∈ t.selfRead, E z) (hinfer : (infer options (.ofTable table) t).outcome = .ok type) :
    ∀ z ∈ type.freeVars, E z := fun z hz =>
  ((scopesTypes h ht).infer (Context.Scoped.ofTable table) hinfer z hz).resolve_left
    List.not_mem_nil

end ProofKernel
