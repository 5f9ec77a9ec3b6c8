import ProofKernel.Proofs.Nameless.Replacement
import ProofKernel.Proofs.Nameless.Telescope

/-!
# The type of a case

The type that a case of a match must have is a product over the fields of the constructor, with the
parameters put in, that ends in the motive applied to the constructed value.  It is built by
substitution under names: one parameter is instantiated after the other, and then each field gets a
name of its own.  Here it is computed without names.

* `Nameless.assign` puts terms in for the variables of several binders at once, which is what
  instantiating them one after the other comes to (`Nameless.instantiateAll_pis`).
* `Nameless.betaReduce` contracts the redexes at the head of an application
  (`Term.interpret_betaReduce`).
* `Term.interpret_pis_openFields`: products are the same under the new names of their binders.
* `nameless_caseType`: **the type of a case is the right one**, and captures nothing.
-/

set_option autoImplicit false
namespace ProofKernel

open Term (interpret)

namespace Nameless

variable {u v : Nameless} {types values : List Nameless}

/-! ## Substitution in products -/

/-- Replaces variables in the types of binders, each inside the binders before it. -/
def substTypes (τ : Atom → Nameless) : List Nameless → List Nameless
  | [] => []
  | a :: rest => a.subst τ :: substTypes (lift τ) rest

@[simp] theorem length_substTypes (τ : Atom → Nameless) (types : List Nameless) :
    (substTypes τ types).length = types.length := by
  induction types generalizing τ with
  | nil => rfl
  | cons a rest ih => rw [substTypes, List.length_cons, List.length_cons, ih]

theorem subst_pis (τ : Atom → Nameless) (types : List Nameless) (u : Nameless) :
    (pis types u).subst τ = pis (substTypes τ types) (u.subst (lift^[types.length] τ)) := by
  induction types generalizing τ with
  | nil => rfl
  | cons a rest ih =>
    rw [pis_cons, subst, ih, substTypes, pis_cons, List.length_cons, Function.iterate_succ_apply]

/-- Inside `n` binders, their variables stay. -/
theorem iterate_lift_bound_of_lt {n i : Nat} (h : i < n) (τ : Atom → Nameless) :
    lift^[n] τ (.bound i) = atom (.bound i) := by
  induction n generalizing i with
  | zero => cases h
  | succ n ih =>
    rw [Function.iterate_succ_apply']
    cases i with
    | zero => rfl
    | succ i => exact (lift_succ _ (.bound i)).trans (by rw [ih (Nat.lt_of_succ_lt_succ h)]; rfl)

/-- Inside `n` binders, the variables from outside are replaced as they are there. -/
theorem iterate_lift_iterate_succ (n : Nat) (τ : Atom → Nameless) (a : Atom) :
    lift^[n] τ (Atom.succ^[n] a) = shift^[n] (τ a) := by
  induction n with
  | zero => rfl
  | succ n ih => rw [Function.iterate_succ_apply', Function.iterate_succ_apply', lift_succ, ih,
      Function.iterate_succ_apply']

theorem subst_iterate_shift (n : Nat) (τ : Atom → Nameless) (u : Nameless) :
    (shift^[n] u).subst τ = u.subst (τ ∘ Atom.succ^[n]) := by
  induction n generalizing τ with
  | zero => rfl
  | succ n ih =>
    rw [Function.iterate_succ_apply', shift, subst_rename, ih, Function.comp_assoc,
      ← Function.iterate_succ']

/-! ## Several values at once -/

/-- Puts terms in for the variables of as many binders, outermost first.  The variables of binders
further out move in. -/
def assign (values : List Nameless) : Atom → Nameless
  | .bound i => (values.reverse[i]?).getD (atom (.bound (i - values.length)))
  | .free x => atom (.free x)

/-- Instantiates leading products by terms, one after the other, as far as there are products. -/
def instantiateAll : Nameless → List Nameless → Nameless
  | pi _ b, v :: rest => (b.instantiate v).instantiateAll rest
  | u, _ => u

theorem iterate_succ_bound (n i : Nat) : Atom.succ^[n] (.bound i) = .bound (i + n) := by
  induction n with
  | zero => rfl
  | succ n ih =>
    rw [Function.iterate_succ_apply', ih]
    rfl

theorem iterate_succ_free (n : Nat) (x : String) : Atom.succ^[n] (.free x) = .free x :=
  Function.iterate_fixed rfl n

/-- Variables from outside move in. -/
theorem assign_comp_iterate_succ (values : List Nameless) :
    assign values ∘ Atom.succ^[values.length] = atom := by
  funext a
  cases a with
  | bound i =>
    have hnone : values.reverse[i + values.length]? = none :=
      List.getElem?_eq_none (by rw [List.length_reverse]; omega)
    rw [Function.comp_apply, iterate_succ_bound, assign, hnone, Option.getD_none,
      Nat.add_sub_cancel]
  | free x =>
    rw [Function.comp_apply, iterate_succ_free]
    rfl

/-- The first value is put in before the others, inside their binders. -/
theorem assign_cons (v : Nameless) (values : List Nameless) (a : Atom) :
    (lift^[values.length] (point v) a).subst (assign values) = assign (v :: values) a := by
  have hout (u : Nameless) : (shift^[values.length] u).subst (assign values) = u := by
    rw [subst_iterate_shift, assign_comp_iterate_succ, subst_atom]
  cases a with
  | free x =>
    have h := iterate_lift_iterate_succ values.length (point v) (.free x)
    rw [iterate_succ_free] at h
    rw [h, hout]
    rfl
  | bound i =>
    rcases Nat.lt_or_ge i values.length with hlt | hge
    · rw [iterate_lift_bound_of_lt hlt, subst, assign, assign, List.reverse_cons,
        List.getElem?_append_left (by rwa [List.length_reverse]),
        List.getElem?_eq_getElem (by rwa [List.length_reverse])]
      rfl
    · obtain ⟨j, rfl⟩ := Nat.exists_eq_add_of_le' hge
      have h := iterate_lift_iterate_succ values.length (point v) (.bound j)
      rw [iterate_succ_bound] at h
      rw [h, hout, assign, List.reverse_cons, List.getElem?_append_right
        (by rw [List.length_reverse]; exact hge), List.length_reverse, Nat.add_sub_cancel]
      cases j with
      | zero => rfl
      | succ j =>
        rw [List.length_cons, show j + 1 + values.length - (values.length + 1) = j by omega]
        rfl

/-- **Instantiating products one after the other puts all terms in at once.** -/
theorem instantiateAll_pis (h : types.length = values.length) (u : Nameless) :
    (pis types u).instantiateAll values = u.subst (assign values) := by
  induction values generalizing types u with
  | nil =>
    obtain rfl : types = [] := List.length_eq_zero_iff.1 h
    have hatom : assign [] = atom := assign_comp_iterate_succ []
    rw [hatom, subst_atom, pis_nil]
    cases u <;> rfl
  | cons v values ih =>
    obtain ⟨a, types, rfl⟩ := List.exists_cons_of_length_eq_add_one h
    have hlen : types.length = values.length := Nat.succ.inj h
    rw [pis_cons, instantiateAll, instantiate, subst_pis, ih (by rw [length_substTypes, hlen]),
      hlen, subst_subst]
    exact congrArg u.subst (funext (assign_cons v values))

/-! ## Redexes at the head -/

/-- Applies a term to arguments, contracting while it is a function. -/
def applyAll : Nameless → List Nameless → Nameless
  | lam _ b, v :: rest => (b.instantiate v).applyAll rest
  | u, args => u.apps args

/-- Contracts the redexes at the head of an application. -/
def betaReduce (u : Nameless) : Nameless :=
  u.head.applyAll u.args

/-- What is headed by a global stays so. -/
theorem head_subst_of_global {g : String} (h : u.head = global g) (τ : Atom → Nameless) :
    (u.subst τ).head = global g := by
  rw [← apps_spine u, subst_apps, head_apps, h]
  rfl

end Nameless

namespace Term

variable {σ : Naming} {t : Term}

theorem head_interpret (hσ : σ.Faithful) (t : Term) :
    (t.interpret σ).head = t.head.interpret σ := by
  induction t with
  | app f a ihf _ => exact ihf
  | var x =>
    obtain ⟨a, ha⟩ := hσ.atomic x
    rw [show (var x).head = var x from rfl, interpret, ha]
    rfl
  | _ => rfl

theorem args_interpret (hσ : σ.Faithful) (t : Term) :
    (t.interpret σ).args = t.args.map (interpret σ) := by
  induction t with
  | app f a ihf _ =>
    rw [interpret, Nameless.args, ihf, args, List.map_append]
    rfl
  | var x =>
    obtain ⟨a, ha⟩ := hσ.atomic x
    rw [interpret, ha]
    rfl
  | _ => rfl

theorem interpret_applyAll (hσ : σ.Faithful) (t : Term) (args : List Term) :
    (t.applyAll args).interpret σ = (t.interpret σ).applyAll (args.map (interpret σ)) := by
  induction args generalizing t with
  | nil =>
    cases t with
    | var x =>
      obtain ⟨a, ha⟩ := hσ.atomic x
      rw [interpret, ha]
      exact ha
    | _ => rfl
  | cons b rest ih =>
    cases t with
    | lam x a body =>
      rw [applyAll, ih, interpret_substitute_eq_instantiate]
      rfl
    | var x =>
      obtain ⟨a, ha⟩ := hσ.atomic x
      rw [applyAll, interpret_apps, interpret, ha]
      · rfl
      · intro _ _ _ _ _ hlam
        cases hlam
    | _ => exact interpret_apps σ _ _

/-- Redexes at the head are contracted alike with and without names. -/
theorem interpret_betaReduce (hσ : σ.Faithful) (t : Term) :
    t.betaReduce.interpret σ = (t.interpret σ).betaReduce := by
  rw [betaReduce, interpret_applyAll hσ, Nameless.betaReduce, head_interpret hσ, args_interpret hσ]

/-! ## Products under names -/

/-- What means a product is one. -/
theorem exists_eq_pi (hσ : σ.Faithful) {a b : Nameless} (h : t.interpret σ = .pi a b) :
    ∃ x c d, t = .pi x c d ∧ c.interpret σ = a ∧ d.interpret (σ.under x) = b := by
  cases t with
  | pi x c d =>
    rw [interpret, Nameless.pi.injEq] at h
    exact ⟨x, c, d, rfl, h⟩
  | var x =>
    obtain ⟨v, hv⟩ := hσ.atomic x
    cases hv.symm.trans h
  | _ => cases h

theorem nameless_instantiate (hσ : σ.Faithful) (t : Term) (args : List Term) :
    (t.instantiate args).interpret σ =
      (t.interpret σ).instantiateAll (args.map (interpret σ)) := by
  induction args generalizing t with
  | nil =>
    have hnil : ∀ u : Nameless, u.instantiateAll [] = u := by
      intro u
      cases u <;> rfl
    rw [List.map_nil, hnil]
    cases t <;> rfl
  | cons a rest ih =>
    cases t with
    | pi x c d =>
      rw [instantiate, ih, interpret_substitute_eq_instantiate]
      rfl
    | var x =>
      obtain ⟨v, hv⟩ := hσ.atomic x
      rw [instantiate, interpret, hv]
      · rfl
      · intro _ _ _ _ _ hpi
        cases hpi
    | _ => rfl

/-- There are as many leading products with names as there are without. -/
theorem length_piChain_interpret (hσ : σ.Faithful) {types : List Nameless} {u : Nameless}
    (h : t.interpret σ = .pis types u) (hu : ∀ a b, u ≠ .pi a b) :
    t.piChain.1.length = types.length := by
  induction types generalizing t σ with
  | nil =>
    cases t with
    | pi x a b => exact absurd h.symm (hu _ _)
    | _ => rfl
  | cons a rest ih =>
    obtain ⟨x, c, d, rfl, -, hd⟩ := exists_eq_pi hσ h
    exact congrArg (· + 1) (ih (hσ.under x) hd)

theorem nodup_openFields (n : Nat) (t : Term) (count : Nat) (taken : List String) :
    ((t.openFields n count taken).map Prod.fst).Nodup := by
  induction n generalizing t count taken with
  | zero => exact List.nodup_nil
  | succ n ih =>
    cases t with
    | pi x a b =>
      rw [openFields, List.map_cons, List.nodup_cons]
      exact ⟨fun hmem => openFields_names _ _ _ _ _ hmem List.mem_cons_self, ih _ _ _⟩
    | _ => exact List.nodup_nil

/-- **A product is the same under new names for its binders**, whatever it is made to end in. -/
theorem interpret_pis_openFields (hσ : σ.Faithful) {types : List Nameless} {u : Nameless}
    (h : t.interpret σ = .pis types u) {taken : List String} (ht : ∀ x ∈ t.freeVars, x ∈ taken)
    (count : Nat) (e : Term) :
    (t.openFields types.length count taken).length = types.length ∧
    (pis (t.openFields types.length count taken) e).interpret σ =
      .pis types (e.interpret (σ.underAll
        ((t.openFields types.length count taken).map Prod.fst))) := by
  induction types generalizing t σ count taken with
  | nil => exact ⟨rfl, rfl⟩
  | cons a rest ih =>
    obtain ⟨x, c, d, rfl, hc, hd⟩ := exists_eq_pi hσ h
    rw [List.length_cons, openFields]
    have hnew := fresh_not_mem ("__arg" ++ toString count) taken
    generalize fresh ("__arg" ++ toString count) taken = y at hnew ⊢
    -- the body is opened under the new name, and means the same
    have hbody : (d.substitute x (.var y)).interpret (σ.under y) = .pis rest u := by
      rw [interpret_substitute_var_under (eq_or_not_mem_codomain hnew ht)]
      exact hd
    obtain ⟨hlen, hrest⟩ := ih (hσ.under y) hbody (mem_cons_of_mem_codomain_rename ht) (count + 1)
    refine ⟨congrArg (· + 1) hlen, ?_⟩
    rw [pis, List.foldr_cons, interpret, hc]
    exact congrArg (Nameless.pi a) hrest

/-- A term means the same inside binders that it does not refer to. -/
theorem interpret_underAll_free {xs : List String} (h : ∀ x ∈ xs, x ∉ t.freeVars) :
    t.interpret (Naming.free.underAll xs) = t.nameless := by
  induction xs using List.reverseRecOn with
  | nil => rfl
  | append_singleton xs x ih =>
    rw [List.forall_mem_append] at h
    rw [Naming.underAll_concat, interpret_under (h.2 x List.mem_cons_self), ih h.1,
      shift_nameless]

end Term

/-! ## The type of a case -/

/-- What the type of a case ends in.  The names of the fields are distinct, and neither the motive
nor the arguments refer to them. -/
theorem interpret_caseConclusion {motive : Term} {name : String} {args : List Term}
    {xs : List String} (hxs : xs.Nodup) (hmotive : ∀ x ∈ xs, x ∉ motive.freeVars)
    (hargs : ∀ x ∈ xs, x ∉ Term.freeVarsAll args) :
    (Term.app motive (((Term.global name).apps args).apps (xs.map .var))).betaReduce.interpret
        (Naming.free.underAll xs) =
      (Nameless.app motive.nameless ((Nameless.global name).apps
        (args.map Term.nameless ++ Nameless.boundVars 0 xs.length))).betaReduce := by
  have hvars : xs.map (Naming.free.underAll xs) = Nameless.boundVars 0 xs.length := by
    have h := @Naming.map_underAll_eq_boundVars_iff xs [] Naming.free
    rw [List.append_nil] at h
    exact h.2 ⟨hxs, fun _ _ => List.not_mem_nil⟩
  have hmap : args.map (interpret (Naming.free.underAll xs)) = args.map Term.nameless :=
    List.map_congr_left fun a ha => Term.interpret_underAll_free fun x hx hxa =>
      hargs x hx (Term.mem_freeVarsAll.2 ⟨a, ha, hxa⟩)
  rw [Term.interpret_betaReduce (Naming.faithful_free.underAll xs), interpret,
    Term.interpret_underAll_free hmotive, Term.interpret_apps, Term.interpret_apps, List.map_map,
    hmap, Nameless.apps_append, ← hvars]
  rfl

/-- **The type of a case is the right one.**  Let the type of a constructor be a product over as
many parameters as there are arguments, and over fields, that ends in something headed by a global.
The type of a case is the product over the fields, with the arguments put in for the parameters,
that ends in the motive applied to the constructed value, with the redexes at its head
contracted.

What the motive and the arguments mean has no bound variables from outside, so that it is the same
inside the binders of the fields, and none of its variables can be captured there. -/
theorem nameless_caseType {motive : Term} {name : String} {constructor : Constructor}
    {args : List Term} (hclosed : constructor.type.freeVars = [])
    {params fields : List Nameless} {conclusion : Nameless} {g : String}
    (htype : constructor.type.nameless = .pis (params ++ fields) conclusion)
    (hlen : params.length = args.length) (hhead : conclusion.head = .global g) :
    (caseType motive name constructor args).nameless =
      .pis (Nameless.substTypes (.assign (args.map Term.nameless)) fields)
        (Nameless.app motive.nameless ((Nameless.global name).apps
          (args.map Term.nameless ++ Nameless.boundVars 0 fields.length))).betaReduce := by
  have hfree := Naming.faithful_free
  have htype' : (constructor.type.instantiate args).nameless =
      .pis (Nameless.substTypes (.assign (args.map Term.nameless)) fields) (conclusion.subst
        (Nameless.lift^[fields.length] (.assign (args.map Term.nameless)))) := by
    rw [Term.nameless, Term.nameless_instantiate hfree]
    refine (congrArg (Nameless.instantiateAll · _) htype).trans ?_
    rw [Nameless.pis_append, Nameless.instantiateAll_pis (by rwa [List.length_map]),
      Nameless.subst_pis]
    rfl
  have hcount := Term.length_piChain_interpret hfree htype'
    (Nameless.ne_pi_of_head_global (Nameless.head_subst_of_global hhead _))
  have htaken : ∀ x ∈ (constructor.type.instantiate args).freeVars,
      x ∈ motive.freeVars ++ Term.freeVarsAll args := fun x hx =>
    List.mem_append_right _ (freeVars_instantiate_constructor hclosed hx)
  obtain ⟨hlength, hproduct⟩ := Term.interpret_pis_openFields hfree htype' htaken 0
    (Term.app motive (((Term.global name).apps args).apps
      ((caseFields motive constructor args).map fun f => .var f.1))).betaReduce
  rw [← hcount] at hlength hproduct
  rw [caseType_eq, Term.nameless]
  refine hproduct.trans (congrArg _ ?_)
  have hfields : (caseFields motive constructor args).map (fun f => Term.var f.1) =
      ((caseFields motive constructor args).map Prod.fst).map .var := by
    rw [List.map_map]
    rfl
  have hlen' : ((caseFields motive constructor args).map Prod.fst).length = fields.length := by
    rw [List.length_map, ← Nameless.length_substTypes (.assign (args.map Term.nameless)) fields,
      ← hcount]
    exact hlength
  rw [hfields, ← hlen']
  exact interpret_caseConclusion (Term.nodup_openFields _ _ _ _)
    (fun x hx => (caseFields_names hx).1) fun x hx => (caseFields_names hx).2

/-- The argument and the motive use the names that the fields would get. -/
theorem nameless_caseType_clash :
    let list (a : Term) : Term := .app (.global "List") a
    let cons : Constructor := ⟨"List", .pi "A" (.sort (.type 0)) (.pi "x" (.var "A")
      (.pi "l" (list (.var "A")) (list (.var "A"))))⟩
    let motive : Term := .lam "y" (list (.var "__arg0")) (.app (.var "__arg1") (.var "y"))
    let a : Nameless := .atom (.free "__arg0")
    cons.type.freeVars = [] ∧
      (caseType motive "Cons" cons [.var "__arg0"]).nameless =
        .pi a (.pi (.app (.global "List") a) (.app (.atom (.free "__arg1"))
          ((Nameless.global "Cons").apps [a, .atom (.bound 1), .atom (.bound 0)]))) := by
  intro list cons motive a
  have hclosed : cons.type.freeVars = [] := by decide
  refine ⟨hclosed, ?_⟩
  rw [@nameless_caseType motive "Cons" cons [.var "__arg0"] hclosed [.sort (.type 0)]
    [.atom (.bound 0), .app (.global "List") (.atom (.bound 1))]
    (.app (.global "List") (.atom (.bound 2))) "List" rfl rfl rfl]
  rfl

end ProofKernel
