import ProofKernel.Typing
import ProofKernel.Proofs.Nameless.Agreement
import ProofKernel.Proofs.Nameless.Reduction
import ProofKernel.Proofs.Verdict

/-!
# The types of cases do not see bound names

The type of a case binds the fields of a constructor under new names, which depend on the names that
are taken around it.  What it means does not.

* `Naming.underAll` goes under several binders.
* `Term.openFields_congr` follows the fields of a constructor, `caseType_congr` the whole type.
* `freeVars_caseType`: it has no variables but those of the motive and of the parameters.
* `effectiveMotive_matches` does the same for the motive of a match.
-/

set_option autoImplicit false
namespace ProofKernel

open Term (interpret shape)

/-! ## Several binders -/

namespace Naming

/-- The meanings inside several binders, outermost first. -/
def underAll (σ : Naming) (xs : List String) : Naming :=
  xs.foldl under σ

theorem Faithful.underAll {σ : Naming} (h : σ.Faithful) (xs : List String) :
    (σ.underAll xs).Faithful := by
  induction xs generalizing σ with
  | nil => exact h
  | cons x xs ih => exact ih (h.under x)

end Naming

namespace Term

variable {σ σ' : Naming} {t t' : Term}

/-- Terms of the same meaning mean the same inside binders that they do not refer to. -/
theorem interpret_underAll_congr {xs xs' : List String} (hlen : xs.length = xs'.length)
    (h : t.interpret σ = t'.interpret σ') (hxs : ∀ x ∈ xs, x ∉ t.freeVars)
    (hxs' : ∀ x ∈ xs', x ∉ t'.freeVars) :
    t.interpret (σ.underAll xs) = t'.interpret (σ'.underAll xs') := by
  induction xs generalizing σ σ' xs' with
  | nil =>
    obtain rfl : xs' = [] := List.length_eq_zero_iff.1 hlen.symm
    exact h
  | cons x xs ih =>
    obtain ⟨x', xs', rfl⟩ : ∃ x' rest, xs' = x' :: rest := List.exists_cons_of_length_eq_add_one
      hlen.symm
    rw [List.forall_mem_cons] at hxs hxs'
    show t.interpret ((σ.under x).underAll xs) = t'.interpret ((σ'.under x').underAll xs')
    refine ih (Nat.succ.inj hlen) ?_ hxs.2 hxs'.2
    rw [interpret_under hxs.1, interpret_under hxs'.1, h]

theorem map_interpret_underAll_congr {xs xs' : List String} (hlen : xs.length = xs'.length)
    {ts ts' : List Term} (h : ts.map (interpret σ) = ts'.map (interpret σ'))
    (hxs : ∀ x ∈ xs, x ∉ freeVarsAll ts) (hxs' : ∀ x ∈ xs', x ∉ freeVarsAll ts') :
    ts.map (interpret (σ.underAll xs)) = ts'.map (interpret (σ'.underAll xs')) := by
  induction ts generalizing ts' with
  | nil =>
    obtain rfl : ts' = [] := List.map_eq_nil_iff.1 h.symm
    rfl
  | cons t ts ih =>
    obtain ⟨t', ts', rfl, ht, hts⟩ := List.map_eq_cons_iff.1 h.symm
    simp only [freeVarsAll, List.mem_append, not_or] at hxs hxs'
    rw [List.map_cons, List.map_cons, ih hts.symm (fun x hx => (hxs x hx).2)
      fun x hx => (hxs' x hx).2, interpret_underAll_congr hlen ht.symm (fun x hx => (hxs x hx).1)
      fun x hx => (hxs' x hx).1]

/-! ## Instantiation -/

theorem instantiate_congr (hσ : σ.Faithful) (hσ' : σ'.Faithful) {args args' : List Term}
    (h : t.interpret σ = t'.interpret σ')
    (ha : args.map (interpret σ) = args'.map (interpret σ')) :
    (t.instantiate args).interpret σ = (t'.instantiate args').interpret σ' := by
  induction args generalizing t t' args' with
  | nil =>
    obtain rfl : args' = [] := List.map_eq_nil_iff.1 ha.symm
    cases shape hσ hσ' h <;> exact h
  | cons a rest ih =>
    obtain ⟨a', rest', rfl, ha', hrest⟩ := List.map_eq_cons_iff.1 ha.symm
    cases shape hσ hσ' h with
    | pi hd hb =>
      rw [instantiate, instantiate]
      refine ih ?_ hrest.symm
      rw [interpret_substitute_eq_instantiate, interpret_substitute_eq_instantiate, hb, ha']
    | _ => exact h

theorem length_piChain_congr (hσ : σ.Faithful) (hσ' : σ'.Faithful)
    (h : t.interpret σ = t'.interpret σ') :
    t.piChain.1.length = t'.piChain.1.length := by
  induction t generalizing σ σ' t' with
  | pi x a b _ ihb =>
    cases shape hσ hσ' h with
    | pi ha hb =>
      rw [piChain, piChain, List.length_cons, List.length_cons,
        ihb (hσ.under x) (hσ'.under _) hb]
  | _ =>
    cases shape hσ hσ' h
    rfl

/-! ## The fields of a constructor -/

/-- The names of fields are new and differ from each other. -/
theorem openFields_names (n : Nat) (t : Term) (count : Nat) (taken : List String) :
    ∀ x ∈ (t.openFields n count taken).map Prod.fst, x ∉ taken := by
  induction n generalizing t count taken with
  | zero => simp [openFields]
  | succ n ih =>
    cases t with
    | pi y a b =>
      rw [openFields, List.map_cons, List.forall_mem_cons]
      refine ⟨fresh_not_mem _ _, fun x hx hmem => ?_⟩
      exact ih _ _ _ x hx (List.mem_cons_of_mem _ hmem)
    | _ => simp [openFields]

/-- What is known of the fields of two constructors whose types mean the same: as many are opened,
their names mean the same variables inside them, and a product over them means the same if what it
ends in does. -/
structure FieldsAlike (σ σ' : Naming) (fields fields' : Telescope) : Prop where
  length : fields.length = fields'.length
  names : (fields.map fun f => (var f.1).interpret (σ.underAll (fields.map Prod.fst))) =
    fields'.map fun f => (var f.1).interpret (σ'.underAll (fields'.map Prod.fst))
  product : ∀ e e' : Term, e.interpret (σ.underAll (fields.map Prod.fst)) =
      e'.interpret (σ'.underAll (fields'.map Prod.fst)) →
    (pis fields e).interpret σ = (pis fields' e').interpret σ'

theorem FieldsAlike.nil : FieldsAlike σ σ' [] [] :=
  ⟨rfl, rfl, fun _ _ h => h⟩

theorem FieldsAlike.cons {x x' : String} {a a' : Term} {rest rest' : Telescope}
    (ha : a.interpret σ = a'.interpret σ')
    (h : FieldsAlike (σ.under x) (σ'.under x') rest rest') (hx : x ∉ rest.map Prod.fst)
    (hx' : x' ∉ rest'.map Prod.fst) : FieldsAlike σ σ' ((x, a) :: rest) ((x', a') :: rest') := by
  constructor
  · rw [List.length_cons, List.length_cons, h.length]
  · simp only [List.map_cons, List.cons.injEq]
    refine ⟨?_, h.names⟩
    -- no later field has the name of the first one
    show (var x).interpret ((σ.under x).underAll (rest.map Prod.fst)) =
      (var x').interpret ((σ'.under x').underAll (rest'.map Prod.fst))
    refine interpret_underAll_congr ?_ ?_ ?_ ?_
    · rw [List.length_map, List.length_map, h.length]
    · rw [interpret, interpret, Naming.under_self, Naming.under_self]
    · rintro y hy hmem
      exact hx (List.mem_singleton.1 hmem ▸ hy)
    · rintro y hy hmem
      exact hx' (List.mem_singleton.1 hmem ▸ hy)
  · intro e e' he
    rw [pis, List.foldr_cons, pis, List.foldr_cons, interpret, interpret, ha]
    exact congrArg _ (h.product e e' he)

/-- **The fields of a constructor do not depend on the names that are taken.** -/
theorem openFields_congr (hσ : σ.Faithful) (hσ' : σ'.Faithful) (n count : Nat)
    {taken taken' : List String} (h : t.interpret σ = t'.interpret σ')
    (ht : ∀ x ∈ t.freeVars, x ∈ taken) (ht' : ∀ x ∈ t'.freeVars, x ∈ taken') :
    FieldsAlike σ σ' (t.openFields n count taken) (t'.openFields n count taken') := by
  induction n generalizing t t' σ σ' count taken taken' with
  | zero => exact .nil
  | succ n ih =>
    cases shape hσ hσ' h with
    | @pi y y' a a' b b' ha hb =>
      rw [openFields, openFields]
      have hx := fresh_not_mem ("__arg" ++ toString count) taken
      have hx' := fresh_not_mem ("__arg" ++ toString count) taken'
      generalize fresh ("__arg" ++ toString count) taken = x at hx ⊢
      generalize fresh ("__arg" ++ toString count) taken' = x' at hx' ⊢
      refine .cons ha (ih (hσ.under x) (hσ'.under x') (count + 1) ?_
        (mem_cons_of_mem_codomain_rename ht) (mem_cons_of_mem_codomain_rename ht')) ?_ ?_
      · rw [interpret_substitute_var_under (eq_or_not_mem_codomain hx ht),
          interpret_substitute_var_under (eq_or_not_mem_codomain hx' ht'), hb]
      · exact fun hmem => openFields_names _ _ _ _ x hmem List.mem_cons_self
      · exact fun hmem => openFields_names _ _ _ _ x' hmem List.mem_cons_self
    | _ => exact .nil

end Term

/-! ## The type of a case -/

section CaseType

variable {σ σ' : Naming} {motive motive' : Term} {params params' : List Term} {name : String}
  {constructor : Constructor}

/-- The variables that the fields of a constructor must not hide. -/
theorem freeVars_instantiate_constructor (hclosed : constructor.type.freeVars = [])
    {x : String} (hx : x ∈ (constructor.type.instantiate params).freeVars) :
    x ∈ Term.freeVarsAll params := by
  obtain ⟨p, hp, hx⟩ := Term.mem_freeVars_of_congr params (fun σ σ' hσ hσ' h =>
    Term.instantiate_congr hσ hσ' (Term.interpret_of_closed hclosed σ σ')
      (List.map_congr_left h)) hx
  exact Term.mem_freeVarsAll.2 ⟨p, hp, hx⟩

/-- The fields of a constructor as the type of a case binds them. -/
def caseFields (motive : Term) (constructor : Constructor) (params : List Term) : Telescope :=
  (constructor.type.instantiate params).openFields
    (constructor.type.instantiate params).piChain.1.length 0
    (motive.freeVars ++ Term.freeVarsAll params)

theorem caseType_eq (motive : Term) (name : String) (constructor : Constructor)
    (params : List Term) :
    caseType motive name constructor params =
      Term.pis (caseFields motive constructor params) (Term.app motive
        (((Term.global name).apps params).apps
          ((caseFields motive constructor params).map fun f => .var f.1))).betaReduce := rfl

theorem caseFields_names {x : String}
    (hx : x ∈ (caseFields motive constructor params).map Prod.fst) :
    x ∉ motive.freeVars ∧ x ∉ Term.freeVarsAll params := by
  have := Term.openFields_names _ _ _ _ x hx
  rwa [List.mem_append, not_or] at this

theorem caseFields_congr (hσ : σ.Faithful) (hσ' : σ'.Faithful)
    (hclosed : constructor.type.freeVars = [])
    (hp : params.map (interpret σ) = params'.map (interpret σ')) :
    Term.FieldsAlike σ σ' (caseFields motive constructor params)
      (caseFields motive' constructor params') := by
  have htype : (constructor.type.instantiate params).interpret σ =
      (constructor.type.instantiate params').interpret σ' :=
    Term.instantiate_congr hσ hσ' (Term.interpret_of_closed hclosed σ σ') hp
  unfold caseFields
  rw [Term.length_piChain_congr hσ hσ' htype]
  exact Term.openFields_congr hσ hσ' _ _ htype
    (fun x hx => List.mem_append_right _ (freeVars_instantiate_constructor hclosed hx))
    (fun x hx => List.mem_append_right _ (freeVars_instantiate_constructor hclosed hx))

/-- **The type of a case is a function of what the motive and the parameters mean.** -/
theorem caseType_congr (hσ : σ.Faithful) (hσ' : σ'.Faithful)
    (hclosed : constructor.type.freeVars = []) (hm : motive.interpret σ = motive'.interpret σ')
    (hp : params.map (interpret σ) = params'.map (interpret σ')) :
    (caseType motive name constructor params).interpret σ =
      (caseType motive' name constructor params').interpret σ' := by
  have hfields : Term.FieldsAlike σ σ' (caseFields motive constructor params)
      (caseFields motive' constructor params') := caseFields_congr hσ hσ' hclosed hp
  have hlen : ((caseFields motive constructor params).map Prod.fst).length =
      ((caseFields motive' constructor params').map Prod.fst).length := by
    rw [List.length_map, List.length_map, hfields.length]
  rw [caseType_eq, caseType_eq]
  refine hfields.product _ _ (Term.betaReduce_congr (hσ.underAll _) (hσ'.underAll _) ?_)
  -- the motive and the parameters do not refer to the fields, which are the last arguments
  have hmotive := Term.interpret_underAll_congr hlen hm (fun x hx => (caseFields_names hx).1)
    fun x hx => (caseFields_names hx).1
  have hparams := Term.map_interpret_underAll_congr hlen hp (fun x hx => (caseFields_names hx).2)
    fun x hx => (caseFields_names hx).2
  rw [interpret, interpret, hmotive]
  congr 1
  refine Term.interpret_apps_congr (Term.interpret_apps_congr rfl hparams) ?_
  rw [List.map_map, List.map_map]
  exact hfields.names

/-- The type of a case has no variables but those of the motive and the parameters. -/
theorem freeVars_caseType (hclosed : constructor.type.freeVars = []) {x : String}
    (hx : x ∈ (caseType motive name constructor params).freeVars) :
    x ∈ motive.freeVars ∨ x ∈ Term.freeVarsAll params := by
  obtain ⟨t, ht, hxt⟩ := Term.mem_freeVars_of_congr (motive :: params) (fun σ σ' hσ hσ' h =>
    caseType_congr hσ hσ' hclosed (h motive List.mem_cons_self)
      (List.map_congr_left fun p hp => h p (List.mem_cons_of_mem _ hp))) hx
  rcases List.mem_cons.1 ht with rfl | ht
  · exact .inl hxt
  · exact .inr (Term.mem_freeVarsAll.2 ⟨t, ht, hxt⟩)

end CaseType

/-! ## Motives -/

section Motive

variable {σ σ' : Naming} {motive motive' type type' motiveType motiveType' : Term}

/-- **The motive of a match is read the same way**, unless it refers to a variable of the name that
stands for none. -/
theorem effectiveMotive_matches (hσ : σ.Faithful) (hσ' : σ'.Faithful)
    (hm : motive.interpret σ = motive'.interpret σ') (ht : type.interpret σ = type'.interpret σ')
    (hk : motiveType.interpret σ = motiveType'.interpret σ')
    (hp : Term.placeholder ∉ motive.freeVars) (hp' : Term.placeholder ∉ motive'.freeVars) :
    Verdict.Matches (fun m m' => m.interpret σ = m'.interpret σ')
      (effectiveMotive motive type motiveType) (effectiveMotive motive' type' motiveType') := by
  unfold effectiveMotive
  cases shape hσ hσ' hk with
  | sort u =>
    refine Verdict.Matches.pure ?_
    rw [interpret, interpret, ht, Term.interpret_under hp, Term.interpret_under hp', hm]
  | @pi x x' a a' b b' ha hb =>
    dsimp only
    rw [Term.agrees_congr hσ hσ' ha ht]
    split
    · exact Verdict.Matches.reject _ _
    · cases shape (hσ.under x) (hσ'.under x') hb with
      | sort u => exact Verdict.Matches.pure hm
      | _ => exact Verdict.Matches.reject _ _
  | _ => exact Verdict.Matches.reject _ _

/-- The motive that is read has no variables but those of the motive and of the type it takes. -/
theorem freeVars_effectiveMotive {m : Term} {x : String}
    (h : (effectiveMotive motive type motiveType).outcome = .ok m) (hx : x ∈ m.freeVars) :
    x ∈ motive.freeVars ∨ x ∈ type.freeVars := by
  unfold effectiveMotive at h
  split at h
  · cases h
    rw [Term.freeVars, List.mem_append] at hx
    exact hx.symm.imp_left fun hx => (Term.mem_filter_ne.1 hx).1
  · split at h
    · cases h
    · split at h
      · cases h
        exact .inl hx
      · cases h
  · cases h

end Motive

end ProofKernel
