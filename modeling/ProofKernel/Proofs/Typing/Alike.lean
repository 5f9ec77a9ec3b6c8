import ProofKernel.Proofs.Typing.Twins

/-!
# Types that are alike

Types that are put together from types that are alike, in contexts that are twins.

* `Alike.pi`, `Alike.app`, `Alike.codomain`, `Alike.betaReduce` and `Alike.caseType` are the ways in
  which the kernel makes types.
* `Twins.motive_matches` and `Twins.familyOf_matches` are for the parts of a match that are read off
  other types.
* `openLambda_eq` and `Alike.codomain_rename` are for a function whose binder type was left out.
-/

set_option autoImplicit false
namespace ProofKernel

open Term (interpret shape)

variable {table : SymbolTable} {σ σ' : Naming} {Γ Γ' : Context} {used used' : List String}

/-- A name that is not in use is not one of the codomain, unless it is the binder's own. -/
theorem Twins.eq_or_not_mem (h : Twins table σ σ' Γ Γ' used used') {x y : String} {a b : Term}
    (hx : x ∉ used) (hs : ∀ z ∈ (Term.pi y a b).freeVars, z ∈ Γ.names) :
    x = y ∨ x ∉ b.freeVars :=
  Term.eq_or_not_mem_codomain (fun hmem => hx (h.names x hmem).1) hs

namespace Alike

theorem sort (u : Universe) : Alike σ σ' Γ Γ' (.sort u) (.sort u) :=
  ⟨rfl, nofun, nofun⟩

theorem of_closed {t : Term} (h : t.freeVars = []) : Alike σ σ' Γ Γ' t t :=
  ⟨Term.interpret_of_closed h σ σ', by simp [h], by simp [h]⟩

theorem pi {x x' : String} {a a' b b' : Term} (ha : Alike σ σ' Γ Γ' a a')
    (hb : Alike (σ.under x) (σ'.under x') (Γ.extend x a) (Γ'.extend x' a') b b') :
    Alike σ σ' Γ Γ' (.pi x a b) (.pi x' a' b') := by
  refine ⟨?_, ?_, ?_⟩
  · rw [interpret, interpret, ha.same, hb.same]
  · rw [Term.freeVars, List.forall_mem_append]
    exact ⟨ha.inScope, mem_names_of_mem_filter hb.inScope⟩
  · rw [Term.freeVars, List.forall_mem_append]
    exact ⟨ha.inScope', mem_names_of_mem_filter hb.inScope'⟩

theorem app {f f' a a' : Term} (hf : Alike σ σ' Γ Γ' f f') (ha : Alike σ σ' Γ Γ' a a') :
    Alike σ σ' Γ Γ' (.app f a) (.app f' a') := by
  refine ⟨?_, ?_, ?_⟩
  · rw [interpret, interpret, hf.same, ha.same]
  · rw [Term.freeVars, List.forall_mem_append]
    exact ⟨hf.inScope, ha.inScope⟩
  · rw [Term.freeVars, List.forall_mem_append]
    exact ⟨hf.inScope', ha.inScope'⟩

theorem betaReduce {t t' : Term} (h : Twins table σ σ' Γ Γ' used used')
    (ht : Alike σ σ' Γ Γ' t t') : Alike σ σ' Γ Γ' t.betaReduce t'.betaReduce :=
  ⟨Term.betaReduce_congr h.faithful h.faithful' ht.same,
    fun z hz => ht.inScope z (Term.freeVars_betaReduce hz),
    fun z hz => ht.inScope' z (Term.freeVars_betaReduce hz)⟩

/-- The domain of a product. -/
theorem domain {x x' : String} {a a' b b' : Term} (h : Twins table σ σ' Γ Γ' used used')
    (ht : Alike σ σ' Γ Γ' (.pi x a b) (.pi x' a' b')) : Alike σ σ' Γ Γ' a a' := by
  cases shape h.faithful h.faithful' ht.same with
  | pi ha hb =>
    exact h.alike ha fun z hz => ht.inScope z (List.mem_append_left _ hz)

/-- The body of a binder at a value. -/
theorem substitute {x x' : String} {b b' v v' : Term} (h : Twins table σ σ' Γ Γ' used used')
    (hb : b.interpret (σ.under x) = b'.interpret (σ'.under x'))
    (hs : ∀ z ∈ b.freeVars.filter (· != x), z ∈ Γ.names) (hv : Alike σ σ' Γ Γ' v v') :
    Alike σ σ' Γ Γ' (b.substitute x v) (b'.substitute x' v') := by
  refine h.alike ?_ fun z hz => ?_
  · rw [Term.interpret_substitute_eq_instantiate, Term.interpret_substitute_eq_instantiate, hb,
      hv.same]
  · rcases Term.mem_freeVars_substitute.1 hz with ⟨hz, hne⟩ | ⟨_, hz⟩
    · exact hs z (Term.mem_filter_ne.2 ⟨hz, hne⟩)
    · exact hv.inScope z hz

/-- The codomain of a product at a value. -/
theorem codomain {x x' : String} {a a' b b' v v' : Term} (h : Twins table σ σ' Γ Γ' used used')
    (ht : Alike σ σ' Γ Γ' (.pi x a b) (.pi x' a' b')) (hv : Alike σ σ' Γ Γ' v v') :
    Alike σ σ' Γ Γ' (b.substitute x v) (b'.substitute x' v') := by
  cases shape h.faithful h.faithful' ht.same with
  | pi ha hb =>
    exact substitute h hb (fun z hz => ht.inScope z (List.mem_append_right _ hz)) hv

/-- The codomain of a product under a new name. -/
theorem codomain_rename {x x' y y' : String} {a a' b b' : Term}
    (h : Twins table σ σ' Γ Γ' used used') (ht : Alike σ σ' Γ Γ' (.pi y a b) (.pi y' a' b'))
    (hx : x ∉ used) (hx' : x' ∉ used') :
    Alike (σ.under x) (σ'.under x') (Γ.extend x a) (Γ'.extend x' a') (b.rename y x)
      (b'.rename y' x') := by
  cases shape h.faithful h.faithful' ht.same with
  | pi ha hb =>
    refine (h.extend hx hx' (domain h ht)).alike ?_ fun z hz => ?_
    · rw [Term.interpret_rename_under (h.eq_or_not_mem hx ht.inScope),
        Term.interpret_rename_under (h.symm.eq_or_not_mem hx' ht.inScope'), hb]
    · rcases Term.mem_freeVars_rename hz with rfl | ⟨hz, hne⟩
      · exact List.mem_cons_self
      · have hmem := List.mem_append_right a.freeVars (Term.mem_filter_ne.2 ⟨hz, hne⟩)
        exact List.mem_cons_of_mem _ (ht.inScope z hmem)

end Alike

/-! ## Matches -/

/-- The types of a case are alike when the motives and the parameters are. -/
theorem Alike.caseType {m m' : Term} {params params' : List Term} {constructor : Constructor}
    (name : String) (h : Twins table σ σ' Γ Γ' used used')
    (hclosed : constructor.type.freeVars = []) (hm : Alike σ σ' Γ Γ' m m')
    (hp : params.map (interpret σ) = params'.map (interpret σ'))
    (hs : ∀ z ∈ Term.freeVarsAll params, z ∈ Γ.names) :
    Alike σ σ' Γ Γ' (caseType m name constructor params) (caseType m' name constructor params') :=
  h.alike (caseType_congr h.faithful h.faithful' hclosed hm.same hp) fun z hz =>
    (freeVars_caseType hclosed hz).elim (hm.inScope z) (hs z)

variable {t t' : Term}

/-- A variable in scope is not the name of the binder that a motive gets. -/
theorem Twins.placeholder_not_mem (h : Twins table σ σ' Γ Γ' used used')
    (hs : ∀ z ∈ t.freeVars, z ∈ Γ.names) : Term.placeholder ∉ t.freeVars :=
  fun hmem => (h.names _ (hs _ hmem)).2 rfl

/-- The motives of the two runs are alike. -/
theorem Twins.motive_matches {m m' T T' k k' : Term} (h : Twins table σ σ' Γ Γ' used used')
    (hm : Alike σ σ' Γ Γ' m m') (hT : Alike σ σ' Γ Γ' T T')
    (hk : k.interpret σ = k'.interpret σ') :
    Verdict.Matches (Alike σ σ' Γ Γ') (effectiveMotive m T k) (effectiveMotive m' T' k') := by
  have hmatches := effectiveMotive_matches h.faithful h.faithful' hm.same hT.same hk
    (h.placeholder_not_mem hm.inScope) (h.symm.placeholder_not_mem hm.inScope')
  rcases hmatches.cases with ⟨M, M', hM, hM', heq⟩ | ⟨e, e', he, he'⟩
  · refine .of_ok hM hM' (h.alike heq fun z hz => ?_)
    exact (freeVars_effectiveMotive hM hz).elim (hm.inScope z) (hT.inScope z)
  · exact .of_error he he'

/-- The inductive type of the scrutinee is the same in the two runs. -/
theorem Twins.familyOf_matches (h : Twins table σ σ' Γ Γ' used used')
    (ht : Alike σ σ' Γ Γ' t t') :
    Verdict.Matches (fun p p' => p.1 = p'.1 ∧ p.2 = t.args ∧ p'.2 = t'.args)
      (Verdict.ofExcept (table.familyOf t)) (Verdict.ofExcept (table.familyOf t')) := by
  rcases h.familyOf_cases ht with ⟨e, e', he, he'⟩ | ⟨family, hf, hf'⟩
  · rw [he, he']
    exact .of_error rfl rfl
  · rw [hf, hf']
    exact .of_ok rfl rfl ⟨rfl, rfl, rfl⟩

/-! ## Binders whose type was left out -/

/-- A binder of a name that the codomain does not use is kept. -/
theorem openLambda_eq {x y : String} {b codomain : Term} (h : x = y ∨ x ∉ codomain.freeVars) :
    openLambda Γ x b y codomain = (x, b, codomain.rename y x) := by
  unfold openLambda
  by_cases hyx : y = x
  · rw [if_pos hyx, Term.rename, if_pos hyx]
  · have hoccurs := Term.occurs_eq_false (h.resolve_left fun hxy => hyx hxy.symm)
    rw [if_neg hyx, hoccurs, if_neg Bool.false_ne_true]

end ProofKernel
