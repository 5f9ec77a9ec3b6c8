import ProofKernel.Proofs.Nameless.Telescope
import ProofKernel.Proofs.Session.Positivity
import ProofKernel.Proofs.Session.Registration

/-!
# What constructors conclude in

The type of a constructor is to end in its inductive type, applied to exactly its parameters.  When
a declaration is checked, the arguments are compared with the names of the parameters.  So they are
variables of these names, but a name may have been bound again: by a later parameter, or by a field
of the constructor.

* `Nameless.ConcludesIn` is the intended form of the type of a constructor, without names.
* `checkConclusion_pis` says what the check of the arguments comes to, and
  `Term.concludesIn_pis_iff` when that is the intended form.
* `Session.conclusions_execute`: **every accepted constructor concludes in variables with the names
  of the parameters**, and these are the parameters iff no name of a parameter is bound again.
-/

set_option autoImplicit false
namespace ProofKernel

open Term (interpret)

/-! ## The intended form -/

/-- A product over parameters of these types and over fields, that ends in an inductive type applied
to exactly the parameters. -/
def Nameless.ConcludesIn (I : String) (params : List Nameless) (u : Nameless) : Prop :=
  ∃ fields, u = pis (params ++ fields) ((global I).apps (boundVars fields.length params.length))

namespace Term

variable {I : String} {binders : Telescope} {body : Term}

/-- The types of the fields that a constructor has after its parameters. -/
def fieldTypes (binders : Telescope) (body : Term) : List Nameless :=
  Telescope.types (Naming.free.underAll (binders.map Prod.fst)) body.piChain.1

/-- A type that ends in a global applied to the names of its outer binders, without names. -/
theorem nameless_pis_of_conclusion
    (h : body.piChain.2 = (global I).apps ((binders.map Prod.fst).map .var)) :
    (pis binders body).nameless =
      .pis (binders.types Naming.free ++ fieldTypes binders body)
        ((Nameless.global I).apps ((binders.map Prod.fst).map
          (Naming.free.underAll (binders.map Prod.fst ++ body.piChain.1.map Prod.fst)))) := by
  have hbody : body = pis body.piChain.1 ((global I).apps ((binders.map Prod.fst).map .var)) := by
    rw [← h, pis_piChain]
  have hnames (xs ys : List String) (σ : Naming) :
      (σ.underAll xs).underAll ys = σ.underAll (xs ++ ys) := by
    rw [Naming.underAll, Naming.underAll, Naming.underAll, List.foldl_append]
  rw [nameless, interpret_pis, Nameless.pis_append]
  refine congrArg _ ((congrArg (interpret _) hbody).trans ?_)
  rw [interpret_pis, interpret_apps, List.map_map, hnames]
  rfl

/-- **The outer binders are what a type concludes in iff no name of theirs is bound again.** -/
theorem concludesIn_pis_iff
    (h : body.piChain.2 = (global I).apps ((binders.map Prod.fst).map .var)) :
    (pis binders body).nameless.ConcludesIn I (binders.types Naming.free) ↔
      (binders.map Prod.fst).Nodup ∧
        ∀ x ∈ binders.map Prod.fst, x ∉ body.piChain.1.map Prod.fst := by
  rw [← Naming.map_underAll_eq_boundVars_iff Naming.free, nameless_pis_of_conclusion h]
  have hlen : (binders.types Naming.free).length = (binders.map Prod.fst).length := by
    rw [Telescope.length_types, List.length_map]
  have hfields : (fieldTypes binders body).length = (body.piChain.1.map Prod.fst).length := by
    rw [fieldTypes, Telescope.length_types, List.length_map]
  constructor
  · rintro ⟨fields, heq⟩
    obtain ⟨htypes, hconclusion⟩ := Nameless.pis_injective
      (Nameless.ne_pi_of_head_global (Nameless.head_apps _ _))
      (Nameless.ne_pi_of_head_global (Nameless.head_apps _ _)) heq
    obtain rfl := List.append_cancel_left htypes
    rw [Nameless.eq_apps_global_iff, Nameless.args_apps] at hconclusion
    rw [← hlen, ← hfields]
    exact hconclusion.2
  · intro heq
    refine ⟨fieldTypes binders body, ?_⟩
    rw [hlen, hfields, heq]

end Term

/-! ## The check of a constructor -/

section Check

variable {I c : String} {params : Telescope} {binders more : Telescope} {body : Term}

/-- No argument is found to be another one iff they are variables with the names of the binders. -/
theorem strayArgument?_eq_none_iff {args : List Term} {names : List String}
    (hlen : args.length = binders.length) (hnames : names.length = binders.length) :
    strayArgument? args (binders ++ more) names = none ↔
      args = (binders.map Prod.fst).map .var := by
  induction binders generalizing args names with
  | nil =>
    obtain rfl : args = [] := List.length_eq_zero_iff.1 hlen
    exact iff_of_true rfl rfl
  | cons b rest ih =>
    obtain ⟨a, args, rfl⟩ := List.exists_cons_of_length_eq_add_one hlen
    obtain ⟨x, names, rfl⟩ := List.exists_cons_of_length_eq_add_one hnames
    rw [List.cons_append, strayArgument?, List.map_cons, List.map_cons, List.cons.injEq]
    split
    · next heq =>
      exact (ih (Nat.succ.inj hlen) (Nat.succ.inj hnames)).trans (and_iff_right heq).symm
    · next hne => exact iff_of_false nofun fun h => hne h.1

/-- **What the check of a conclusion comes to.** -/
theorem checkConclusion_pis
    (h : checkConclusion I (binders.map Prod.fst) c (Term.pis binders body) = .ok ()) :
    body.piChain.2 = (Term.global I).apps ((binders.map Prod.fst).map .var) := by
  rw [checkConclusion, Term.piChain_pis] at h
  dsimp only at h
  split at h
  · cases h
  next hhead =>
  split at h
  · cases h
  next hlen =>
  split at h
  · cases h
  next hstray =>
  rw [not_not] at hhead hlen
  rw [List.length_map] at hlen
  rw [strayArgument?_eq_none_iff hlen (List.length_map _)] at hstray
  rw [← Term.apps_spine body.piChain.2, hhead, hstray]

theorem checkConclusion_of_addConstructors {options : Options} {Γ : Context} {names : List String}
    {constructors : Telescope} {staged : SymbolTable}
    (h : (addConstructors options Γ I names constructors).outcome = .ok staged) :
    ∀ p ∈ constructors, checkConclusion I names p.1 p.2 = .ok () := by
  induction constructors generalizing Γ with
  | nil => exact nofun
  | cons p rest ih =>
    rw [addConstructors] at h
    simp only [Verdict.bind_eq_ok_iff, Verdict.outcome_ofExcept] at h
    obtain ⟨_, _, _, hconclusion, _, _, hrest⟩ := h
    exact List.forall_mem_cons.2 ⟨hconclusion, ih hrest⟩

/-- Reading globals as parameters leaves the names of the binders. -/
theorem names_piChain_bindParams (names : List String) (t : Term) :
    (t.bindParams names).piChain.1.map Prod.fst = t.piChain.1.map Prod.fst := by
  induction t with
  | pi x a b _ ihb => exact congrArg (x :: ·) ihb
  | global x =>
    rw [Term.bindParams]
    split <;> rfl
  | _ => rfl

theorem names_boundParams (params : Telescope) :
    (boundParams params).map Prod.fst = params.map Prod.fst := by
  rw [boundParams, List.map_map]
  rfl

end Check

/-! ## Sessions -/

namespace Session

open Declaration

/-- **What accepted constructors conclude in.**  The type of a constructor is registered as a
product over the declared types of the parameters and over its fields, that ends in the inductive
type applied to as many variables as there are parameters.  Each is bound by the innermost binder
with the name of its parameter; they are the parameters themselves iff no name of a parameter is
bound again, by a later parameter or by a field. -/
theorem conclusions_execute {s : Session} {input : Text} {I : String} {params : Telescope}
    {sort : Option Term} {constructors : Telescope} (h : (s.execute input).2.value.isOk = true)
    (hparse : (parseCommand input).toOption.map (·.statement) =
      some (.declare (.family I params sort constructors)))
    {C : String} {given : Term} (hC : (C, given) ∈ constructors) :
    ∃ c fields, (s.execute input).1.table.constructor? C = some c ∧ c.family = I ∧
      c.type.nameless =
        .pis ((boundParams params).types Naming.free ++ fields)
          ((Nameless.global I).apps ((params.map Prod.fst).map fun x => .atom (.bound
            ((params.map Prod.fst ++ given.piChain.1.map Prod.fst).reverse.idxOf x)))) ∧
      (c.type.nameless.ConcludesIn I ((boundParams params).types Naming.free) ↔
        (params.map Prod.fst).Nodup ∧
          ∀ x ∈ params.map Prod.fst, x ∉ given.piChain.1.map Prod.fst) := by
  rw [execute_eq_run hparse] at h ⊢
  obtain ⟨table, hsession, hpub⟩ := run_declare_eq_ok h
  obtain ⟨T, _, hstage, _, _, hreg⟩ := publish_eq_ok hpub
  obtain ⟨_, hnodup, _⟩ := stage_eq_ok hstage
  obtain ⟨_, _, _, _, _, _, _, _, hadded⟩ := stageFamily_eq_ok_iff.1 hstage
  have hmem : (C, Term.pis (boundParams params) (given.bindParams (params.map Prod.fst))) ∈
      polymorphicConstructors params constructors := List.mem_map.2 ⟨_, hC, rfl⟩
  have hname : C ∈ (family I params sort constructors).provides :=
    List.mem_cons_of_mem _ (List.mem_map_of_mem hC)
  have hnames := names_boundParams params
  -- what is registered was compared with the names of the parameters
  have hcheck : checkConclusion I ((boundParams params).map Prod.fst) C
      (Term.pis (boundParams params) (given.bindParams (params.map Prod.fst))) = .ok () := by
    rw [hnames]
    exact checkConclusion_of_addConstructors hadded _ hmem
  have hconclusion := checkConclusion_pis hcheck
  have hregistered : table.registration C = ⟨none, some ⟨I, Term.pis (boundParams params)
      (given.bindParams (params.map Prod.fst))⟩, none, none⟩ := by
    rw [hreg, if_pos hname]
    refine registration_familyLayer_constructor ?_ hmem
    rw [map_fst_polymorphicConstructors]
    exact hnodup
  have hform := Term.nameless_pis_of_conclusion hconclusion
  have hiff := Term.concludesIn_pis_iff hconclusion
  rw [hnames, names_piChain_bindParams] at hform hiff
  have hvars : (params.map Prod.fst).map
      (Naming.free.underAll (params.map Prod.fst ++ given.piChain.1.map Prod.fst)) =
        (params.map Prod.fst).map fun x => .atom (.bound
          ((params.map Prod.fst ++ given.piChain.1.map Prod.fst).reverse.idxOf x)) :=
    List.map_congr_left fun x hx => Naming.underAll_of_mem (List.mem_append_left _ hx) _
  rw [hvars] at hform
  rw [hsession]
  exact ⟨_, _, congrArg Registration.constructor hregistered, rfl, hform, hiff⟩

/-- The field of a constructor may have the name of a parameter, and then it is the field that the
constructor concludes in.  Under another name, it is the parameter. -/
theorem conclusions_execute_box :
    let s : Session := ⟨⟨100, false, false, false⟩, false, .empty⟩
    let box := Text.ofString "Inductive Box (A : Prop) := box : forall A : Prop, Box A."
    let wrap := Text.ofString "Inductive Wrap (A : Prop) := wrap : forall B : Prop, Wrap A."
    (∃ c, (s.execute box).1.table.constructor? "box" = some c ∧
      ¬ c.type.nameless.ConcludesIn "Box" [.sort .prop]) ∧
    ∃ c, (s.execute wrap).1.table.constructor? "wrap" = some c ∧
      c.type.nameless.ConcludesIn "Wrap" [.sort .prop] := by
  rw [Text.ofString_ofList, Text.ofString_ofList]
  intro s box wrap
  have hparseBox : (parseCommand box).toOption.map (·.statement) =
      some (.declare (.family "Box" [("A", .sort .prop)] none
        [("box", .pi "A" (.sort .prop) (.app (.global "Box") (.var "A")))])) := by decide +kernel
  have hparseWrap : (parseCommand wrap).toOption.map (·.statement) =
      some (.declare (.family "Wrap" [("A", .sort .prop)] none
        [("wrap", .pi "B" (.sort .prop) (.app (.global "Wrap") (.var "A")))])) := by decide +kernel
  have hbox : (s.execute box).2.value.isOk = true := by
    rw [execute_eq_run hparseBox]
    decide +kernel
  have hwrap : (s.execute wrap).2.value.isOk = true := by
    rw [execute_eq_run hparseWrap]
    decide +kernel
  obtain ⟨c, _, hc, _, _, hboxIff⟩ := conclusions_execute hbox hparseBox List.mem_cons_self
  obtain ⟨d, _, hd, _, _, hwrapIff⟩ := conclusions_execute hwrap hparseWrap List.mem_cons_self
  exact ⟨⟨c, hc, hboxIff.not.2 (by decide)⟩, d, hd, hwrapIff.2 (by decide)⟩

end Session
end ProofKernel
