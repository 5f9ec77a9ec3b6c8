import ProofKernel.Proofs.Script.Scoping
import ProofKernel.Proofs.Session.Conclusion

/-!
# Globals that are read as parameters

The parameters of an inductive type are scoped twice.  The parser makes a name a variable where it
is in scope, and a global elsewhere.  The declaration then makes every global with the name of a
parameter a variable, in the types of all parameters and of the constructors.

* A phrase never mentions a global with a name that is in scope (`inherited_exposes`), so the second
  scoping changes no type of a constructor; a name that is left out of a binder apart.
* It changes the type of a parameter that mentions a global with the name of that parameter or of a
  later one.  The variable is then free in the arity (`Clashes.freeVars_ne_nil`), and the inductive
  type is rejected.
* `Session.parameters_execute`: so this is when the command is rejected for its names, and what is
  accepted is registered as it was read.
-/

set_option autoImplicit false
namespace ProofKernel

open Grammar (Quantifier)

/-! ## Terms -/

namespace Term

variable {names : List String} {x : String} {t : Term}

/-- A term stays as it is when no name of a parameter is mentioned in it. -/
theorem bindParams_eq_self_iff : t.bindParams names = t ↔ ∀ x ∈ names, x ∉ t.globalRefs := by
  induction t with
  | sort | var | lit | hole => simp [bindParams, globalRefs]
  | global y =>
    rw [bindParams, globalRefs]
    by_cases hy : y ∈ names
    · have hne : Term.var y ≠ .global y := Term.noConfusion
      rw [if_pos hy]
      exact iff_of_false hne fun h => h y hy (List.mem_singleton_self y)
    · rw [if_neg hy]
      exact iff_of_true rfl fun x hx hxy => hy (List.mem_singleton.1 hxy ▸ hx)
  | pi y a b iha ihb | lam y a b iha ihb | app a b iha ihb =>
    simp only [bindParams, globalRefs, pi.injEq, lam.injEq, app.injEq, true_and, iha, ihb,
      List.mem_append, not_or]
    exact ⟨fun h x hx => ⟨h.1 x hx, h.2 x hx⟩,
      fun h => ⟨fun x hx => (h x hx).1, fun x hx => (h x hx).2⟩⟩
  | fix y b ihb => simpa only [bindParams, globalRefs, fix.injEq, true_and] using ihb
  | elim s m cases ihs ihm ihc =>
    have hcases : cases.map (bindParams names) = cases ↔
        ∀ c ∈ cases, ∀ x ∈ names, x ∉ c.globalRefs := by
      have hmap := @List.map_inj_left _ _ cases (bindParams names) id
      rw [List.map_id] at hmap
      exact hmap.trans (forall₂_congr ihc)
    simp only [bindParams, globalRefs, elim.injEq, ihs, ihm, bindParamsAll_eq_map, hcases,
      List.mem_append, mem_globalRefsAll]
    grind

end Term

namespace Grammar.Quantifier

variable {names : List String} {x : String} {q : Quantifier} {binders : Telescope} {t : Term}

theorem close_append (q : Quantifier) (binders more : Telescope) (t : Term) :
    q.close (binders ++ more) t = q.close binders (q.close more t) := by
  cases q <;> exact List.foldr_append

theorem mem_globalRefs_close :
    x ∈ (q.close binders t).globalRefs ↔
      (∃ p ∈ binders, x ∈ p.2.globalRefs) ∨ x ∈ t.globalRefs := by
  induction binders with
  | nil => cases q <;> simp [close, Term.lams, Term.pis]
  | cons b rest ih =>
    have hcons : (q.close (b :: rest) t).globalRefs =
        b.2.globalRefs ++ (q.close rest t).globalRefs := by
      cases q <;> rfl
    rw [hcons, List.mem_append, ih, List.exists_mem_cons_iff, or_assoc]

theorem bindParams_close : (q.close binders t).bindParams names =
    q.close (binders.map fun p => (p.1, p.2.bindParams names)) (t.bindParams names) := by
  induction binders with
  | nil => cases q <;> rfl
  | cons b rest ih =>
    cases q with
    | lam => exact congrArg (Term.lam b.1 (b.2.bindParams names)) ih
    | pi => exact congrArg (Term.pi b.1 (b.2.bindParams names)) ih

/-- What is free in the type of the first binder is free. -/
theorem mem_freeVars_close_head {b : String × Term} (h : x ∈ b.2.freeVars) :
    x ∈ (q.close (b :: binders) t).freeVars := by
  cases q <;> exact List.mem_append_left _ h

/-- What is free under binders of other names is free. -/
theorem mem_freeVars_close (hx : x ∉ binders.map Prod.fst) (h : x ∈ t.freeVars) :
    x ∈ (q.close binders t).freeVars := by
  induction binders with
  | nil => cases q <;> exact h
  | cons b rest ih =>
    rw [List.map_cons, List.mem_cons, not_or] at hx
    have hrest := Term.mem_filter_ne.2 ⟨ih hx.2, hx.1⟩
    cases q <;> exact List.mem_append_right _ hrest

end Grammar.Quantifier

/-! ## Phrases -/

/-- A global that a term mentions has no name that is in scope, and is not bound in it when it is
read as a parameter.  The type of a binder that was left out is none. -/
def Term.Exposes (names scope : List String) (t : Term) : Prop :=
  ∀ x ∈ t.globalRefs, x ≠ Term.placeholder →
    x ∉ scope ∧ (x ∈ names → x ∈ (t.bindParams names).freeVars)

/-- The same of the types of binders, whatever they are closed over. -/
def Telescope.Exposes (names scope : List String) (binders : Telescope) : Prop :=
  ∀ p ∈ binders, ∀ x ∈ p.2.globalRefs, x ≠ Term.placeholder →
    x ∉ scope ∧ (x ∈ names → ∀ (q : Quantifier) (t : Term),
      x ∈ (q.close (binders.map fun p => (p.1, p.2.bindParams names)) t).freeVars)

namespace Term.Exposes

variable {names scope : List String}

theorem app {f a : Term} (hf : f.Exposes names scope) (ha : a.Exposes names scope) :
    (Term.app f a).Exposes names scope := by
  intro x hx hne
  rcases List.mem_append.1 hx with hx | hx
  · exact ⟨(hf x hx hne).1, fun hname => List.mem_append_left _ ((hf x hx hne).2 hname)⟩
  · exact ⟨(ha x hx hne).1, fun hname => List.mem_append_right _ ((ha x hx hne).2 hname)⟩

theorem close {q : Quantifier} {binders : Telescope} {t : Term}
    (hbinders : binders.Exposes names scope)
    (ht : t.Exposes names ((binders.map Prod.fst).reverse ++ scope)) :
    (q.close binders t).Exposes names scope := by
  intro x hx hne
  rw [Quantifier.bindParams_close]
  rcases Quantifier.mem_globalRefs_close.1 hx with ⟨p, hp, hx⟩ | hx
  · obtain ⟨hscope, hfree⟩ := hbinders p hp x hx hne
    exact ⟨hscope, fun hname => hfree hname q _⟩
  · obtain ⟨hscope, hfree⟩ := ht x hx hne
    rw [List.mem_append, List.mem_reverse, not_or] at hscope
    refine ⟨hscope.2, fun hname => Quantifier.mem_freeVars_close ?_ (hfree hname)⟩
    rw [List.map_map]
    exact hscope.1

theorem arrow {a b : Term} (ha : a.Exposes names scope) (hb : b.Exposes names scope) :
    (Term.arrow a b).Exposes names scope := by
  intro x hx hne
  rcases List.mem_append.1 hx with hx | hx
  · exact ⟨(ha x hx hne).1, fun hname => List.mem_append_left _ ((ha x hx hne).2 hname)⟩
  · exact ⟨(hb x hx hne).1, fun hname =>
      List.mem_append_right _ (Term.mem_filter_ne.2 ⟨(hb x hx hne).2 hname, hne⟩)⟩

theorem fix {self : String} {b : Term} (hb : b.Exposes names (self :: scope)) :
    (Term.fix self b).Exposes names scope := by
  intro x hx hne
  obtain ⟨hscope, hfree⟩ := hb x hx hne
  rw [List.mem_cons, not_or] at hscope
  exact ⟨hscope.2, fun hname => Term.mem_filter_ne.2 ⟨hfree hname, hscope.1⟩⟩

theorem elim {s m : Term} {cases : List Term} (hs : s.Exposes names scope)
    (hm : m.Exposes names scope) (hcases : ∀ c ∈ cases, c.Exposes names scope) :
    (Term.elim s m cases).Exposes names scope := by
  intro x hx hne
  rw [Term.bindParams, Term.freeVars, Term.bindParamsAll_eq_map]
  rcases List.mem_append.1 hx with hx | hx
  · rcases List.mem_append.1 hx with hx | hx
    · exact ⟨(hs x hx hne).1, fun hname =>
        List.mem_append_left _ (List.mem_append_left _ ((hs x hx hne).2 hname))⟩
    · exact ⟨(hm x hx hne).1, fun hname =>
        List.mem_append_left _ (List.mem_append_right _ ((hm x hx hne).2 hname))⟩
  · obtain ⟨c, hc, hx⟩ := Term.mem_globalRefsAll.1 hx
    refine ⟨(hcases c hc x hx hne).1, fun hname => List.mem_append_right _ ?_⟩
    exact Term.mem_freeVarsAll.2 ⟨_, List.mem_map_of_mem hc, (hcases c hc x hx hne).2 hname⟩

end Term.Exposes

namespace Telescope.Exposes

variable {names scope : List String}

theorem nil : Telescope.Exposes names scope [] :=
  List.forall_mem_nil _

/-- Names that share a type, and the binders after them: the first copy of the type stands under
none of the names. -/
theorem append {xs : List String} {a : Term} {rest : Telescope} (hxs : xs ≠ [])
    (ha : a.Exposes names scope) (hrest : rest.Exposes names (xs.reverse ++ scope)) :
    Telescope.Exposes names scope (xs.map (fun x => (x, a)) ++ rest) := by
  intro p hp x hx hne
  rcases List.mem_append.1 hp with hp | hp
  · obtain ⟨_, _, rfl⟩ := List.mem_map.1 hp
    obtain ⟨hscope, hfree⟩ := ha x hx hne
    refine ⟨hscope, fun hname q t => ?_⟩
    obtain ⟨y, ys, rfl⟩ := List.exists_cons_of_ne_nil hxs
    exact Quantifier.mem_freeVars_close_head (hfree hname)
  · obtain ⟨hscope, hfree⟩ := hrest p hp x hx hne
    rw [List.mem_append, List.mem_reverse, not_or] at hscope
    refine ⟨hscope.2, fun hname q t => ?_⟩
    rw [List.map_append, Quantifier.close_append]
    refine Quantifier.mem_freeVars_close ?_ (hfree hname q t)
    simpa using hscope.1

end Telescope.Exposes

namespace Grammar

variable {names : List String}

/-- A word that stands for a term by itself mentions no global. -/
theorem globalRefs_constant {w : Word} {t : Term} (h : constant? w = some t) :
    t.globalRefs = [] := by
  obtain ⟨_, rfl⟩ | rfl | rfl | ⟨_, -, rfl⟩ := constant?_cases h <;> rfl

/-- A binder whose type was left out mentions only the placeholder. -/
theorem exposes_fields (xs scope : List String) :
    Telescope.Exposes names scope (xs.map fun x => (x, .global Term.placeholder)) := by
  intro p hp x hx hne
  obtain ⟨_, _, rfl⟩ := List.mem_map.1 hp
  exact absurd (List.mem_singleton.1 hx) hne

/-- **What is built from a phrase** mentions no global with a name in scope, and does not bind its
globals when they are read as parameters. -/
theorem inherited_exposes (names : List String) :
    Inherited (fun scope t => t.Exposes names scope)
      (fun scope binders => binders.Exposes names scope) where
  constant h := by
    rw [Term.Exposes, globalRefs_constant h]
    exact nofun
  leveled _ := nofun
  name scope x := by
    split
    · exact nofun
    · next hx =>
      intro y hy _
      obtain rfl := List.mem_singleton.1 hy
      refine ⟨hx, fun hname => ?_⟩
      rw [Term.bindParams, if_pos hname]
      exact List.mem_singleton_self y
  app := .app
  arrow := .arrow
  close := .close
  fix := .fix
  elim := .elim
  nil _ := .nil
  group := .append
  fields scope xs := exposes_fields xs scope

theorem Clauses.exposes (scope : List String) :
    ∀ clauses : Clauses, ∀ c ∈ clauses.elaborate scope, c.2.Exposes names scope
  | .nil => nofun
  | .last _ _ type => List.forall_mem_singleton.2 (type.inherits (inherited_exposes names) scope)
  | .cons _ _ type rest =>
    List.forall_mem_cons.2 ⟨type.inherits (inherited_exposes names) scope, rest.exposes scope⟩

end Grammar

/-- **What is read of an inductive type**: its parameters in an empty scope, and its constructors in
the scope of the parameters. -/
theorem exposes_family {input : Text} {I : String} {params : Telescope} {sort : Option Term}
    {constructors : Telescope}
    (hparse : (parseCommand input).toOption.map (·.statement) =
      some (.declare (.family I params sort constructors))) (names : List String) :
    params.Exposes names [] ∧
      ∀ c ∈ constructors, c.2.Exposes names (params.map Prod.fst).reverse := by
  cases hcommand : parseCommand input with
  | error e =>
    rw [hcommand] at hparse
    cases hparse
  | ok command =>
    rw [hcommand] at hparse
    obtain ⟨sentence, -, hsentence⟩ := Grammar.Sentence.exists_spells hcommand
    have hsaid := hsentence.trans (Option.some.inj hparse)
    cases sentence with
    | family name _ groups type bar clauses =>
      cases hsaid
      rw [groups.map_fst_elaborate]
      exact ⟨groups.inherits (Grammar.inherited_exposes names) [], clauses.exposes _⟩
    | _ => cases hsaid

/-! ## Inductive types -/

/-- A type of a parameter mentions a global that has the name of a parameter. -/
def Telescope.Clashes (params : Telescope) : Prop :=
  ∃ x ∈ params.map Prod.fst, x ≠ Term.placeholder ∧ ∃ p ∈ params, p.2.mentions x = true

/-- A parameter has no name, and a type of a parameter or of a constructor has a binder whose type
was left out. -/
def Telescope.Blurs (params constructors : Telescope) : Prop :=
  Term.placeholder ∈ params.map Prod.fst ∧
    ∃ p ∈ params ++ constructors, p.2.mentions Term.placeholder = true

namespace Telescope

variable {params constructors : Telescope} {t u : Term}

theorem pis_inj {more : Telescope} (h : params.map Prod.fst = more.map Prod.fst) :
    Term.pis params t = Term.pis more u ↔ params = more ∧ t = u := by
  induction params generalizing more with
  | nil =>
    obtain rfl := List.map_eq_nil_iff.1 h.symm
    exact (and_iff_right rfl).symm
  | cons b rest ih =>
    obtain ⟨b', rest', rfl, hb, hrest⟩ := List.map_eq_cons_iff.1 h.symm
    have hcons : Term.pis (b :: rest) t = Term.pis (b' :: rest') u ↔
        b.1 = b'.1 ∧ b.2 = b'.2 ∧ Term.pis rest t = Term.pis rest' u :=
      Iff.of_eq (Term.pi.injEq ..)
    rw [hcons, ih hrest.symm, List.cons.injEq, Prod.ext_iff, and_assoc, and_assoc]

/-- Nothing is read as a parameter iff no name of a parameter is mentioned. -/
theorem boundParams_eq_self_iff :
    boundParams params = params ↔
      ∀ p ∈ params, ∀ x ∈ params.map Prod.fst, x ∉ p.2.globalRefs := by
  have hmap := @List.map_inj_left _ _ params
    (fun p => (p.1, p.2.bindParams (params.map Prod.fst))) id
  rw [List.map_id] at hmap
  refine hmap.trans (forall₂_congr fun p _ => ?_)
  rw [← Term.bindParams_eq_self_iff]
  exact Prod.ext_iff.trans (and_iff_right rfl)

theorem mentions_iff {x : String} : t.mentions x = true ↔ x ∈ t.globalRefs := by
  rw [Term.mentions, List.contains_eq_mem, decide_eq_true_iff]

/-- A clash leaves a variable free in front of whatever the parameters close. -/
theorem Clashes.freeVars_ne_nil (h : params.Clashes)
    (hparams : params.Exposes (params.map Prod.fst) []) (t : Term) :
    (Term.pis (boundParams params) t).freeVars ≠ [] := by
  obtain ⟨x, hx, hne, p, hp, hmentions⟩ := h
  exact List.ne_nil_of_mem ((hparams p hp x (mentions_iff.1 hmentions) hne).2 hx .pi t)

/-- **When nothing is read as a parameter.** -/
theorem bindParams_eq_self_iff (hconstructors : ∀ c ∈ constructors,
      c.2.Exposes (params.map Prod.fst) (params.map Prod.fst).reverse) :
    (boundParams params = params ∧
        ∀ c ∈ constructors, c.2.bindParams (params.map Prod.fst) = c.2) ↔
      ¬ params.Clashes ∧ ¬ params.Blurs constructors := by
  rw [boundParams_eq_self_iff, forall₂_congr fun c _ => Term.bindParams_eq_self_iff]
  constructor
  · rintro ⟨hparams, hfields⟩
    constructor
    · rintro ⟨x, hx, -, p, hp, hmentions⟩
      exact hparams p hp x hx (mentions_iff.1 hmentions)
    · rintro ⟨hx, p, hp, hmentions⟩
      rcases List.mem_append.1 hp with hp | hp
      · exact hparams p hp _ hx (mentions_iff.1 hmentions)
      · exact hfields p hp _ hx (mentions_iff.1 hmentions)
  · rintro ⟨hclash, hblur⟩
    constructor
    · intro p hp x hx hmem
      by_cases hne : x = Term.placeholder
      · subst hne
        exact hblur ⟨hx, p, List.mem_append_left _ hp, mentions_iff.2 hmem⟩
      · exact hclash ⟨x, hx, hne, p, hp, mentions_iff.2 hmem⟩
    · intro c hc x hx hmem
      by_cases hne : x = Term.placeholder
      · subst hne
        exact hblur ⟨hx, c, List.mem_append_right _ hc, mentions_iff.2 hmem⟩
      · exact (hconstructors c hc x hmem hne).1 (List.mem_reverse.2 hx)

end Telescope

/-- An inductive type and its constructors are registered as they were read: each is a product over
the parameters. -/
structure SymbolTable.RegistersAsRead (table : SymbolTable) (I : String) (params : Telescope)
    (sort : Option Term) (constructors : Telescope) : Prop where
  arity : (table.family? I).map Family.arity =
    some (Term.pis params (sort.getD (.sort (.type 0))))
  constructors : ∀ c ∈ constructors, table.constructor? c.1 = some ⟨I, Term.pis params c.2⟩

namespace Session

open Declaration

variable {s : Session} {input : Text} {I : String} {params : Telescope} {sort : Option Term}
  {constructors : Telescope}

/-- **What an accepted inductive type is registered as**: products over the parameters as they were
bound.  They have no free variables. -/
theorem registrations_execute (h : (s.execute input).2.value.isOk = true)
    (hparse : (parseCommand input).toOption.map (·.statement) =
      some (.declare (.family I params sort constructors))) :
    (Term.pis (boundParams params) (sort.getD (.sort (.type 0)))).freeVars = [] ∧
    ((s.execute input).1.table.family? I).map Family.arity =
      some (Term.pis (boundParams params) (sort.getD (.sort (.type 0)))) ∧
    ∀ c ∈ constructors, (s.execute input).1.table.constructor? c.1 =
      some ⟨I, Term.pis (boundParams params) (c.2.bindParams (params.map Prod.fst))⟩ := by
  rw [execute_eq_run hparse] at h ⊢
  obtain ⟨table, hsession, hpub⟩ := run_declare_eq_ok h
  obtain ⟨T, _, hstage, _, _, hreg⟩ := publish_eq_ok hpub
  obtain ⟨_, hnodup, _⟩ := stage_eq_ok hstage
  obtain ⟨u, _, _, hsort, _, harity, _⟩ := stageFamily_eq_ok_iff.1 hstage
  rw [provides, ← map_fst_polymorphicConstructors params] at hnodup
  rw [hsession, hsort]
  refine ⟨closed_of_inferSort harity, ?_, fun c hc => ?_⟩
  · have hregistered := hreg I
    have hI : I ∈ (family I params sort constructors).provides := List.mem_cons_self
    rw [if_pos hI, layer, registration_familyLayer hnodup, arity, hsort] at hregistered
    exact congrArg (fun r => (Registration.family r).map Family.arity) hregistered
  · have hregistered := hreg c.1
    have hmem : (c.1, Term.pis (boundParams params) (c.2.bindParams (params.map Prod.fst))) ∈
        polymorphicConstructors params constructors := List.mem_map_of_mem hc
    have hname : c.1 ∈ (family I params sort constructors).provides :=
      List.mem_cons_of_mem _ (List.mem_map_of_mem hc)
    rw [if_pos hname, layer, registration_familyLayer_constructor hnodup hmem] at hregistered
    exact congrArg Registration.constructor hregistered

/-- **When the parameters of an inductive type are scoped as they were read.**  The names of all
parameters are read as parameters in the types of all of them.  This changes nothing iff no type of
a parameter mentions a global with the name of a parameter, and no parameter without a name meets a
binder whose type was left out.  If a type mentions such a global, the command is rejected, whatever
the global is; so what is accepted is registered as it was read, unless a name was left out. -/
theorem parameters_execute
    (hparse : (parseCommand input).toOption.map (·.statement) =
      some (.declare (.family I params sort constructors))) :
    ((boundParams params = params ∧
        ∀ c ∈ constructors, c.2.bindParams (params.map Prod.fst) = c.2) ↔
      ¬ params.Clashes ∧ ¬ params.Blurs constructors) ∧
    (params.Clashes → (s.execute input).2.value.isOk = false) ∧
    ((s.execute input).2.value.isOk = true →
      ((s.execute input).1.table.RegistersAsRead I params sort constructors ↔
        ¬ params.Blurs constructors)) := by
  obtain ⟨hparams, hconstructors⟩ := exposes_family hparse (params.map Prod.fst)
  have hsame := Telescope.bindParams_eq_self_iff hconstructors
  have hclash : params.Clashes → (s.execute input).2.value.isOk = false := by
    intro hclash
    rw [← Bool.not_eq_true]
    intro haccepted
    exact hclash.freeVars_ne_nil hparams _ (registrations_execute haccepted hparse).1
  refine ⟨hsame, hclash, fun haccepted => ?_⟩
  have hfree : ¬ params.Clashes := fun h => by
    rw [hclash h] at haccepted
    cases haccepted
  obtain ⟨-, harity, hregistered⟩ := registrations_execute haccepted hparse
  have hnames := names_boundParams params
  refine Iff.trans ?_ (hsame.trans (and_iff_right hfree))
  constructor
  · rintro ⟨harity', hconstructors'⟩
    rw [harity, Option.some.injEq, Telescope.pis_inj hnames] at harity'
    refine ⟨harity'.1, fun c hc => ?_⟩
    have htype := (hregistered c hc).symm.trans (hconstructors' c hc)
    rw [Option.some.injEq, Constructor.mk.injEq, Telescope.pis_inj hnames] at htype
    exact htype.2.2
  · rintro ⟨hbound, hfields⟩
    rw [hbound] at harity
    refine ⟨harity, fun c hc => ?_⟩
    rw [hregistered c hc, hbound, hfields c hc]

/-- The type of a parameter may not mention a postulate if a later parameter has its name.  Under
another name, the inductive type is registered as it was read. -/
theorem parameters_execute_box :
    let s := (run ⟨⟨100, false, false, false⟩, false, .empty⟩
      (.declare (.postulate "T" (.sort .prop)))).1
    let clash := Text.ofString "Inductive Box (A : T) (T : Prop) := box : Box A T."
    let apart := Text.ofString "Inductive Box (A : T) (U : Prop) := box : Box A U."
    (s.execute clash).2.value.isOk = false ∧ (s.execute apart).2.value.isOk = true ∧
      (s.execute apart).1.table.RegistersAsRead "Box" [("A", .global "T"), ("U", .sort .prop)] none
        [("box", .app (.app (.global "Box") (.var "A")) (.var "U"))] := by
  rw [Text.ofString_ofList, Text.ofString_ofList]
  intro s clash apart
  have hparseClash : (parseCommand clash).toOption.map (·.statement) =
      some (.declare (.family "Box" [("A", .global "T"), ("T", .sort .prop)] none
        [("box", .app (.app (.global "Box") (.var "A")) (.var "T"))])) := by decide +kernel
  have hparseApart : (parseCommand apart).toOption.map (·.statement) =
      some (.declare (.family "Box" [("A", .global "T"), ("U", .sort .prop)] none
        [("box", .app (.app (.global "Box") (.var "A")) (.var "U"))])) := by decide +kernel
  have hclashes : Telescope.Clashes [("A", .global "T"), ("T", .sort .prop)] :=
    ⟨"T", by decide, by decide, ("A", .global "T"), List.mem_cons_self, by decide⟩
  have haccepted : (s.execute apart).2.value.isOk = true := by
    rw [execute_eq_run hparseApart]
    decide +kernel
  obtain ⟨-, hrejected, -⟩ := parameters_execute (s := s) hparseClash
  obtain ⟨-, -, hregistered⟩ := parameters_execute (s := s) hparseApart
  exact ⟨hrejected hclashes, haccepted, (hregistered haccepted).2 fun h => absurd h.1 (by decide)⟩

end Session
end ProofKernel
