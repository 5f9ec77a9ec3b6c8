import ProofKernel.Proofs.Nameless.Shape
import ProofKernel.Proofs.Reduction.Steps

/-!
# Reduction does not see bound names

Terms of the same meaning reduce to terms of the same meaning, step by step, over a table whose
definitions are closed.

* `SymbolTable.step?_congr` is one step, `SymbolTable.reduce_congr` any number of them.
* `SymbolTable.freeVars_reduce`: reduction brings no new variables.

The first goes through the recognizers of redexes, each of which gives the same answer on terms of
the same meaning.
-/

set_option autoImplicit false
namespace ProofKernel

open Term (interpret shape)

namespace SymbolTable

/-- The bodies of definitions are closed. -/
def BodiesClosed (table : SymbolTable) : Prop :=
  ∀ name d, table.definition? name = some d → d.body.freeVars = []

variable {table : SymbolTable} {σ σ' : Naming} {t t' : Term}

/-! ## Recognizing redexes -/

theorem constructorForm?_congr (hσ : σ.Faithful) (hσ' : σ'.Faithful)
    (h : t.interpret σ = t'.interpret σ') :
    (table.constructorForm? t).map (fun p => (p.1, p.2.map (interpret σ))) =
      (table.constructorForm? t').map fun p => (p.1, p.2.map (interpret σ')) := by
  unfold constructorForm?
  rw [Term.headGlobal?_congr hσ hσ' h]
  simp only [Option.bind_eq_bind, Option.map_bind, Function.comp_def, Option.pure_def,
    Option.map_some, List.map_drop, Term.args_congr hσ hσ' h]

/-- The structural argument is read off the heads of the binder types. -/
theorem structuralIndexOf_eq (binders : List (String × Term)) :
    table.structuralIndexOf binders =
      (binders.map fun b => b.2.headGlobal?).findIdx? fun g =>
        (g.map table.isFamily).getD false := by
  rw [List.findIdx?_map]
  rfl

theorem lambdaChain_congr (hσ : σ.Faithful) (hσ' : σ'.Faithful)
    (h : t.interpret σ = t'.interpret σ') :
    (t.lambdaChain.1.map fun b => b.2.headGlobal?) =
      t'.lambdaChain.1.map fun b => b.2.headGlobal? := by
  induction t generalizing σ σ' t' with
  | lam x a b _ ihb =>
    cases shape hσ hσ' h with
    | lam ha hb =>
      rw [Term.lambdaChain, Term.lambdaChain, List.map_cons, List.map_cons,
        ihb (hσ.under x) (hσ'.under _) hb, Term.headGlobal?_congr hσ hσ' ha]
  | _ =>
    cases shape hσ hσ' h
    rfl

theorem structuralIndex?_congr (hσ : σ.Faithful) (hσ' : σ'.Faithful)
    (h : t.interpret σ = t'.interpret σ') :
    table.structuralIndex? t = table.structuralIndex? t' := by
  rw [structuralIndex?, structuralIndex?, structuralIndexOf_eq, structuralIndexOf_eq,
    lambdaChain_congr hσ hσ' h]

/-- An operation on literals has no names in it. -/
theorem eq_of_interpret_operation (hσ : σ.Faithful) (hσ' : σ'.Faithful) {operation : String}
    {l m : Literal}
    (h : (Term.app (.app (.global operation) (.lit l)) (.lit m)).interpret σ = t'.interpret σ') :
    t' = .app (.app (.global operation) (.lit l)) (.lit m) := by
  cases shape hσ hσ' h with
  | app hf ha =>
    cases shape hσ hσ' ha
    cases shape hσ hσ' hf with
    | app hg hb =>
      cases shape hσ hσ' hb
      cases shape hσ hσ' hg
      rfl

theorem arithmetic?_congr (hσ : σ.Faithful) (hσ' : σ'.Faithful)
    (h : t.interpret σ = t'.interpret σ') :
    (table.arithmetic? t).map (interpret σ) = (table.arithmetic? t').map (interpret σ') := by
  have hlit : ∀ (τ : Naming) (u : Term), (table.arithmetic? u).map (interpret τ) =
      (table.arithmetic? u).map Term.nameless := by
    intro τ u
    unfold arithmetic?
    split
    · split
      · rw [Option.map_map, Option.map_map]
        rfl
      · rfl
    · rfl
  rw [hlit, hlit]
  congr 1
  unfold arithmetic?
  split
  · rw [eq_of_interpret_operation hσ hσ' h]
  · next hno =>
    split
    · exact absurd (eq_of_interpret_operation hσ' hσ h.symm) (hno _ _ _)
    · rfl

theorem deltaStep?_congr (hσ : σ.Faithful) (hσ' : σ'.Faithful)
    (h : t.interpret σ = t'.interpret σ') :
    (table.deltaStep? t).map (interpret σ) = (table.deltaStep? t').map (interpret σ') := by
  have hhead := shape hσ hσ' (Term.head_congr hσ hσ' h)
  unfold deltaStep?
  generalize t.head = u, t'.head = u' at hhead ⊢
  cases hhead with
  | @fix x x' b b' hb =>
    simp only [structuralIndex?_congr (hσ.under x) (hσ'.under x') hb]
    cases table.structuralIndex? b' with
    | none => rfl
    | some index =>
      have hresult : ((b.substitute x (.fix x b)).apps t.args).interpret σ =
          ((b'.substitute x' (.fix x' b')).apps t'.args).interpret σ' := by
        refine Term.interpret_apps_congr ?_ (Term.args_congr hσ hσ' h)
        rw [Term.interpret_substitute_eq_instantiate, Term.interpret_substitute_eq_instantiate,
          interpret, interpret, hb]
      simp only [Option.bind_eq_bind, Option.bind_some]
      rcases Term.map_eq_map_cases (Term.getElem?_args_congr hσ hσ' h index) with
        ⟨ha, ha'⟩ | ⟨arg, arg', ha, ha', heq⟩
      · rw [ha, ha']
        rfl
      · rw [ha, ha', Option.bind_some, Option.bind_some]
        rcases Term.map_eq_map_cases (constructorForm?_congr hσ hσ' heq) with
          ⟨hc, hc'⟩ | ⟨p, p', hc, hc', _⟩
        · rw [hc, hc']
          rfl
        · rw [hc, hc']
          exact congrArg some hresult
  | _ => rfl

/-! ## Steps -/

/-- The cases of a match on a constructor give terms of the same meaning. -/
theorem iotaStep?_congr (hσ : σ.Faithful) (hσ' : σ'.Faithful) {cases cases' : List Term}
    (h : t.interpret σ = t'.interpret σ')
    (hc : cases.map (interpret σ) = cases'.map (interpret σ')) :
    (do
      let (index, fields) ← table.constructorForm? t
      let chosen ← cases[index]?
      return chosen.apps fields : Option Term).map (interpret σ) =
    (do
      let (index, fields) ← table.constructorForm? t'
      let chosen ← cases'[index]?
      return chosen.apps fields : Option Term).map (interpret σ') := by
  have hform : (table.constructorForm? t).map _ = _ := constructorForm?_congr hσ hσ' h
  have hstep : ∀ (τ : Naming) (cs : List Term) (form : Option (Nat × List Term)),
      (do
        let (index, fields) ← form
        let chosen ← cs[index]?
        return chosen.apps fields : Option Term).map (interpret τ) =
      (form.map fun p => (p.1, p.2.map (interpret τ))).bind fun p =>
        ((cs.map (interpret τ))[p.1]?).map fun c => p.2.foldl .app c := by
    intro τ cs form
    cases form with
    | none => rfl
    | some p =>
      simp only [Option.bind_eq_bind, Option.bind_some, Option.map_some, List.getElem?_map,
        Option.map_map]
      cases cs[p.1]? with
      | none => rfl
      | some c => exact congrArg some (Term.interpret_apps τ c p.2)
  rw [hstep, hstep, hform, hc]

/-- A part that takes a step gives terms of the same meaning around it. -/
theorem map_step?_congr {σ σ' τ τ' : Naming} {step step' : Option Term} {f f' : Term → Term}
    (h : step.map (interpret τ) = step'.map (interpret τ'))
    (hf : ∀ u u', u.interpret τ = u'.interpret τ' → (f u).interpret σ = (f' u').interpret σ') :
    (step.map f).map (interpret σ) = (step'.map f').map (interpret σ') := by
  rcases Term.map_eq_map_cases h with ⟨rfl, rfl⟩ | ⟨u, u', rfl, rfl, hu⟩
  · rfl
  · exact congrArg some (hf u u' hu)

theorem map_or_congr {a b a' b' : Option Term} (ha : a.map (interpret σ) = a'.map (interpret σ'))
    (hb : b.map (interpret σ) = b'.map (interpret σ')) :
    (a.or b).map (interpret σ) = (a'.or b').map (interpret σ') := by
  rw [Option.map_or, Option.map_or, ha, hb]

/-- **Terms of the same meaning take the same step.** -/
theorem step?_congr (hbodies : table.BodiesClosed) (hσ : σ.Faithful) (hσ' : σ'.Faithful)
    (h : t.interpret σ = t'.interpret σ') :
    (table.step? t).map (interpret σ) = (table.step? t').map (interpret σ') := by
  induction t generalizing σ σ' t' with
  | sort | var | lit | hole =>
    cases shape hσ hσ' h
    rfl
  | global name =>
    cases shape hσ hσ' h
    rw [step?]
    cases hd : table.definition? name with
    | none => rfl
    | some d => exact congrArg some (Term.interpret_of_closed (hbodies name d hd) σ σ')
  | pi x a b iha ihb =>
    cases shape hσ hσ' h with
    | @pi _ x' _ _ _ _ ha hb =>
      rw [step?, step?]
      refine map_or_congr (map_step?_congr (iha hσ hσ' ha) ?_)
        (map_step?_congr (ihb (hσ.under x) (hσ'.under x') hb) ?_)
      · intro u u' hu
        rw [interpret, interpret, hu, hb]
      · intro u u' hu
        rw [interpret, interpret, hu, ha]
  | lam x a b iha ihb =>
    cases shape hσ hσ' h with
    | @lam _ x' _ _ _ _ ha hb =>
      rw [step?, step?]
      refine map_or_congr (map_step?_congr (iha hσ hσ' ha) ?_)
        (map_step?_congr (ihb (hσ.under x) (hσ'.under x') hb) ?_)
      · intro u u' hu
        rw [interpret, interpret, hu, hb]
      · intro u u' hu
        rw [interpret, interpret, hu, ha]
  | fix x b ihb =>
    cases shape hσ hσ' h with
    | @fix _ x' _ _ hb =>
      rw [step?, step?]
      refine map_step?_congr (ihb (hσ.under x) (hσ'.under x') hb) fun u u' hu => ?_
      rw [interpret, interpret, hu]
  | elim s m cases ihs _ _ =>
    cases shape hσ hσ' h with
    | elim hs hm hc =>
      rw [step?, step?]
      refine map_or_congr (iotaStep?_congr hσ hσ' hs hc) (map_step?_congr (ihs hσ hσ' hs) ?_)
      intro u u' hu
      rw [interpret, interpret, Term.interpretAll_eq_map, Term.interpretAll_eq_map, hu, hm, hc]
  | app f a ihf iha =>
    cases shape hσ hσ' h with
    | @app _ f' _ a' hf ha =>
      by_cases hlam : ∃ x d b, f = .lam x d b
      · obtain ⟨x, d, b, rfl⟩ := hlam
        cases shape hσ hσ' hf with
        | lam hd hb =>
          rw [step?_app_lam, step?_app_lam, Option.map_some, Option.map_some,
            Term.interpret_substitute_eq_instantiate, Term.interpret_substitute_eq_instantiate,
            hb, ha]
      · -- what is applied is not a function on the other side either
        have hlam' : ∀ x d b, f' ≠ .lam x d b := by
          rintro x d b rfl
          cases shape hσ hσ' hf with
          | lam => exact hlam ⟨_, _, _, rfl⟩
        rw [step?_app fun x d b hf => hlam ⟨x, d, b, hf⟩, step?_app hlam']
        refine map_or_congr (arithmetic?_congr hσ hσ' h) (map_or_congr (deltaStep?_congr hσ hσ' h)
          (map_or_congr (map_step?_congr (ihf hσ hσ' hf) ?_) (map_step?_congr (iha hσ hσ' ha) ?_)))
        · intro u u' hu
          rw [interpret, interpret, hu, ha]
        · intro u u' hu
          rw [interpret, interpret, hu, hf]

/-- **Terms of the same meaning reduce to terms of the same meaning.** -/
theorem reduce_congr (hbodies : table.BodiesClosed) (hσ : σ.Faithful) (hσ' : σ'.Faithful) (n : Nat)
    (h : t.interpret σ = t'.interpret σ') :
    (table.reduce n t).interpret σ = (table.reduce n t').interpret σ' := by
  induction n generalizing t t' with
  | zero => exact h
  | succ n ih =>
    rw [reduce, reduce]
    rcases Term.map_eq_map_cases (step?_congr hbodies hσ hσ' h) with
      ⟨hs, hs'⟩ | ⟨u, u', hs, hs', hu⟩
    · rw [hs, hs']
      exact h
    · rw [hs, hs']
      exact ih hu

/-- Reduction brings no new variables. -/
theorem freeVars_reduce (hbodies : table.BodiesClosed) {n : Nat} {y : String}
    (hy : y ∈ (table.reduce n t).freeVars) : y ∈ t.freeVars := by
  obtain ⟨u, hu, hy⟩ := Term.mem_freeVars_of_congr [t]
    (fun σ σ' hσ hσ' h => reduce_congr hbodies hσ hσ' n (h t List.mem_cons_self)) hy
  rw [List.mem_singleton] at hu
  exact hu ▸ hy

end SymbolTable
end ProofKernel
