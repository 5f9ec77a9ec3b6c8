import ProofKernel.Proofs.Nameless.Reduction

/-!
# Reduction of nameless terms

Reduction works on terms with names, but it is reduction of their nameless forms: a step contracts
one redex of the nameless form at one position, and what it gives depends on the nameless form only.

* `Nameless.Contraction` are the rules: a function is applied, a definition unfolded, a match on a
  constructor resolved, a fixpoint unfolded at a constructor, an operation on numbers evaluated.
* `Nameless.Frame` is a node with one part left out; a list of frames is a position, and
  `Nameless.Reduces` is a contraction at a position.
* `SymbolTable.reduces_of_step?` and `SymbolTable.not_reduces_of_step?`: a step is such a
  contraction, and there is none where there is no step.
* `SymbolTable.reduction_nameless` is the whole, with the number of steps that normalization takes.
-/

set_option autoImplicit false
namespace ProofKernel

open Term (interpret shape)

namespace Nameless

/-! ## The rules -/

/-- The application to several arguments, first to last. -/
def apps (fn : Nameless) (args : List Nameless) : Nameless :=
  args.foldl app fn

/-- A term headed by an inductive type. -/
def HeadedByFamily (table : SymbolTable) (u : Nameless) : Prop :=
  ∃ name args, u = (global name).apps args ∧ table.isFamily name = true

/-- The position of the structural argument of a fixpoint with this body: that of the first leading
binder whose type is headed by an inductive type. -/
inductive StructuralArgument (table : SymbolTable) : Nameless → Nat → Prop
  | here {a b : Nameless} (h : HeadedByFamily table a) : StructuralArgument table (lam a b) 0
  | there {a b : Nameless} {i : Nat} (h : ¬HeadedByFamily table a)
      (hb : StructuralArgument table b i) : StructuralArgument table (lam a b) (i + 1)

/-- A constructor applied to arguments: its position in its inductive type, and the arguments after
the parameters. -/
def ConstructorForm (table : SymbolTable) (u : Nameless) (index : Nat) (fields : List Nameless) :
    Prop :=
  ∃ name args c family, u = (global name).apps args ∧ table.constructor? name = some c ∧
    table.family? c.family = some family ∧
    family.constructors.findIdx? (· == name) = some index ∧ fields = args.drop family.params

/-- A redex and what it contracts to. -/
inductive Contraction (table : SymbolTable) : Nameless → Nameless → Prop
  | beta (a b c : Nameless) : Contraction table (app (lam a b) c) (b.instantiate c)
  | definition {name : String} {d : Definition} (h : table.definition? name = some d) :
      Contraction table (global name) d.body.nameless
  | elim {s m c : Nameless} {cases fields : List Nameless} {index : Nat}
      (hs : ConstructorForm table s index fields) (hc : cases[index]? = some c) :
      Contraction table (elim s m cases) (c.apps fields)
  | fix {b arg : Nameless} {args fields : List Nameless} {index constructor : Nat}
      (hb : StructuralArgument table b index) (harg : args[index]? = some arg)
      (hform : ConstructorForm table arg constructor fields) :
      Contraction table ((fix b).apps args) ((b.instantiate (fix b)).apps args)
  | arithmetic {operation : String} {x y z : Int64} (h : (table.postulate? operation).isSome)
      (hz : Arithmetic.evaluate? operation x y = some z) :
      Contraction table (app (app (global operation) (lit (.int x))) (lit (.int y))) (lit (.int z))

/-! ## Positions -/

/-- A node of a term with one part left out.  The motive and the cases of a match are never left
out: nothing is reduced there. -/
inductive Frame where
  | piType (body : Nameless)
  | piBody (type : Nameless)
  | lamType (body : Nameless)
  | lamBody (type : Nameless)
  | fn (arg : Nameless)
  | arg (fn : Nameless)
  | scrutinee (motive : Nameless) (cases : List Nameless)
  | fixBody

/-- The node with its missing part. -/
def Frame.fill (u : Nameless) : Frame → Nameless
  | piType b => pi u b
  | piBody a => pi a u
  | lamType b => lam u b
  | lamBody a => lam a u
  | fn a => app u a
  | arg f => app f u
  | scrutinee m cases => elim u m cases
  | fixBody => fix u

/-- A term at a position, given by the nodes around it from the outside in. -/
def plug (position : List Frame) (u : Nameless) : Nameless :=
  position.foldr (fun frame v => frame.fill v) u

/-- One contraction at one position. -/
def Reduces (table : SymbolTable) (u v : Nameless) : Prop :=
  ∃ position redex contractum, u = plug position redex ∧ v = plug position contractum ∧
    Contraction table redex contractum

variable {table : SymbolTable} {u v : Nameless}

theorem Contraction.reduces (h : Contraction table u v) : Reduces table u v :=
  ⟨[], u, v, rfl, rfl, h⟩

theorem Reduces.fill (h : Reduces table u v) (frame : Frame) :
    Reduces table (frame.fill u) (frame.fill v) := by
  obtain ⟨position, redex, contractum, rfl, rfl, h⟩ := h
  exact ⟨frame :: position, redex, contractum, rfl, rfl, h⟩

end Nameless

open Nameless (HeadedByFamily StructuralArgument ConstructorForm Contraction Frame Reduces)

/-! ## Recognizing redexes -/

namespace Term

variable {σ : Naming} {t : Term}

/-! ### Terms that mean a given node -/

theorem eq_app_of_interpret (hσ : σ.Faithful) {u v : Nameless} (h : t.interpret σ = .app u v) :
    ∃ f a, t = .app f a ∧ f.interpret σ = u ∧ a.interpret σ = v := by
  obtain ⟨atomOf, hatom⟩ := Classical.skolem.1 hσ.atomic
  cases t with
  | app f a => exact ⟨f, a, rfl, Nameless.app.inj h⟩
  | _ => simp [interpret, hatom] at h

theorem eq_lam_of_interpret (hσ : σ.Faithful) {u v : Nameless} (h : t.interpret σ = .lam u v) :
    ∃ x a b, t = .lam x a b := by
  obtain ⟨atomOf, hatom⟩ := Classical.skolem.1 hσ.atomic
  cases t with
  | lam x a b => exact ⟨x, a, b, rfl⟩
  | _ => simp [interpret, hatom] at h

theorem eq_fix_of_interpret (hσ : σ.Faithful) {u : Nameless} (h : t.interpret σ = .fix u) :
    ∃ x b, t = .fix x b ∧ b.interpret (σ.under x) = u := by
  obtain ⟨atomOf, hatom⟩ := Classical.skolem.1 hσ.atomic
  cases t with
  | fix x b => exact ⟨x, b, rfl, Nameless.fix.inj h⟩
  | _ => simp [interpret, hatom] at h

theorem eq_elim_of_interpret (hσ : σ.Faithful) {u v : Nameless} {us : List Nameless}
    (h : t.interpret σ = .elim u v us) :
    ∃ s m cases, t = .elim s m cases ∧ s.interpret σ = u ∧ cases.map (interpret σ) = us := by
  obtain ⟨atomOf, hatom⟩ := Classical.skolem.1 hσ.atomic
  cases t with
  | elim s m cases =>
    rw [interpret, Nameless.elim.injEq, interpretAll_eq_map] at h
    exact ⟨s, m, cases, rfl, h.1, h.2.2⟩
  | _ => simp [interpret, hatom] at h

/-! ### Terms that mean an application -/

/-- A term that means an application has the head and the arguments that the meaning has. -/
theorem spine_of_interpret_eq_apps (hσ : σ.Faithful) {t : Term} {u : Nameless}
    (hu : ∀ f a, u ≠ .app f a) {args : List Nameless} (h : t.interpret σ = u.apps args) :
    t.head.interpret σ = u ∧ t.args.map (interpret σ) = args := by
  rcases List.eq_nil_or_concat args with rfl | ⟨front, arg, rfl⟩
  · cases t with
    | app f a => exact absurd h.symm (hu _ _)
    | _ => exact ⟨h, rfl⟩
  · rw [List.concat_eq_append] at h ⊢
    rw [Nameless.apps, List.foldl_append] at h
    obtain ⟨f, a, rfl, hf, rfl⟩ := eq_app_of_interpret hσ h
    obtain ⟨hhead, rfl⟩ := spine_of_interpret_eq_apps hσ hu hf
    exact ⟨hhead, List.map_append⟩
termination_by args.length
decreasing_by simp_all

theorem interpret_eq_apps_spine (σ : Naming) (t : Term) :
    t.interpret σ = (t.head.interpret σ).apps (t.args.map (interpret σ)) := by
  rw [Nameless.apps, ← interpret_apps, apps_spine]

theorem headGlobal?_eq_some_iff {name : String} :
    t.headGlobal? = some name ↔ t.head = .global name := by
  unfold headGlobal?
  split <;> simp_all

/-- A term that means a global applied to arguments is one. -/
theorem interpret_eq_apps_global_iff (hσ : σ.Faithful) {name : String} {args : List Nameless} :
    t.interpret σ = (Nameless.global name).apps args ↔
      t.headGlobal? = some name ∧ t.args.map (interpret σ) = args := by
  constructor
  · intro h
    obtain ⟨hhead, hargs⟩ := spine_of_interpret_eq_apps hσ (by simp) h
    refine ⟨headGlobal?_eq_some_iff.2 ?_, hargs⟩
    have hshape : Term.Shape σ σ t.head (.global name) := shape hσ hσ hhead
    generalize t.head = u at hshape
    cases hshape
    rfl
  · rintro ⟨hhead, rfl⟩
    rw [interpret_eq_apps_spine, headGlobal?_eq_some_iff.1 hhead, interpret]

end Term

namespace SymbolTable

variable {table : SymbolTable} {σ : Naming} {t t' : Term}

theorem headedByFamily_iff (hσ : σ.Faithful) :
    HeadedByFamily table (t.interpret σ) ↔
      (t.headGlobal?.map table.isFamily).getD false = true := by
  simp only [HeadedByFamily, Term.interpret_eq_apps_global_iff hσ]
  cases t.headGlobal? <;> simp

theorem structuralArgument_iff (hσ : σ.Faithful) {index : Nat} :
    StructuralArgument table (t.interpret σ) index ↔ table.structuralIndex? t = some index := by
  induction t generalizing σ index with
  | lam x a b _ ihb =>
    have hhead : HeadedByFamily table (a.interpret σ) ↔ _ := headedByFamily_iff hσ
    simp only [structuralIndex?, structuralIndexOf, Term.lambdaChain, List.findIdx?_cons] at ihb ⊢
    constructor
    · rintro (h | ⟨h, hb⟩)
      · rw [if_pos (hhead.1 h)]
      · rw [if_neg (mt hhead.2 h), (ihb (hσ.under x)).1 hb, Option.map_some]
    · intro h
      split at h
      · next hfamily =>
        cases h
        exact .here (hhead.2 hfamily)
      · next hfamily =>
        obtain ⟨i, hi, rfl⟩ := Option.map_eq_some_iff.1 h
        exact .there (mt hhead.1 hfamily) ((ihb (hσ.under x)).2 hi)
  | var x =>
    obtain ⟨a, ha⟩ := hσ.atomic x
    rw [interpret, ha]
    constructor <;> rintro ⟨⟩
  | _ => constructor <;> rintro ⟨⟩

theorem constructorForm_iff (hσ : σ.Faithful) {index : Nat} {fields : List Nameless} :
    ConstructorForm table (t.interpret σ) index fields ↔
      ∃ terms, table.constructorForm? t = some (index, terms) ∧
        fields = terms.map (interpret σ) := by
  simp only [ConstructorForm, Term.interpret_eq_apps_global_iff hσ, constructorForm?,
    Option.bind_eq_bind, Option.bind_eq_some_iff, Option.pure_def, Option.some.injEq, Prod.mk.injEq]
  constructor
  · rintro ⟨name, args, c, family, ⟨hname, rfl⟩, hc, hfamily, hindex, rfl⟩
    exact ⟨_, ⟨name, hname, c, hc, family, hfamily, index, hindex, rfl, rfl⟩, List.map_drop.symm⟩
  · rintro ⟨_, ⟨name, hname, c, hc, family, hfamily, _, hindex, rfl, rfl⟩, rfl⟩
    exact ⟨name, _, c, family, ⟨hname, rfl⟩, hc, hfamily, hindex, List.map_drop⟩

theorem arithmetic?_eq_some_iff :
    table.arithmetic? t = some t' ↔ ∃ operation x y z,
      t = .app (.app (.global operation) (.lit (.int x))) (.lit (.int y)) ∧
      (table.postulate? operation).isSome ∧ Arithmetic.evaluate? operation x y = some z ∧
      t' = .lit (.int z) := by
  constructor
  · intro h
    unfold arithmetic? at h
    split at h
    · next operation x y =>
      split at h
      · next hop =>
        obtain ⟨z, hz, rfl⟩ := Option.map_eq_some_iff.1 h
        exact ⟨operation, x, y, z, rfl, hop, hz, rfl⟩
      · cases h
    · cases h
  · rintro ⟨operation, x, y, z, rfl, hop, hz, rfl⟩
    rw [arithmetic?, if_pos hop, hz, Option.map_some]

theorem deltaStep?_eq_some_iff :
    table.deltaStep? t = some t' ↔ ∃ self body index arg form,
      t.head = .fix self body ∧ table.structuralIndex? body = some index ∧
      t.args[index]? = some arg ∧ table.constructorForm? arg = some form ∧
      t' = (body.substitute self (.fix self body)).apps t.args := by
  constructor
  · intro h
    unfold deltaStep? at h
    split at h
    · next self body hhead =>
      simp only [Option.bind_eq_bind, Option.bind_eq_some_iff, Option.pure_def,
        Option.some.injEq] at h
      obtain ⟨index, hindex, arg, harg, form, hform, rfl⟩ := h
      exact ⟨self, body, index, arg, form, hhead, hindex, harg, hform, rfl⟩
    · cases h
  · rintro ⟨self, body, index, arg, form, hhead, hindex, harg, hform, rfl⟩
    simp [deltaStep?, hhead, hindex, harg, hform]

/-! ## Steps -/

/-- A step of a part is a contraction inside the frame around it. -/
theorem reduces_of_map_step? {τ : Naming} {part : Term} {f : Term → Term} (frame : Frame)
    (h : (table.step? part).map f = some t')
    (hpart : ∀ u, table.step? part = some u → Reduces table (part.interpret τ) (u.interpret τ))
    (hf : ∀ u, (f u).interpret σ = frame.fill (u.interpret τ)) :
    Reduces table (frame.fill (part.interpret τ)) (t'.interpret σ) := by
  obtain ⟨u, hu, rfl⟩ := Option.map_eq_some_iff.1 h
  rw [hf]
  exact (hpart u hu).fill frame

/-- **A step contracts one redex of the nameless form, at one position.** -/
theorem reduces_of_step? (hbodies : table.BodiesClosed) (hσ : σ.Faithful)
    (h : table.step? t = some t') : Reduces table (t.interpret σ) (t'.interpret σ) := by
  induction t generalizing σ t' with
  | sort | var | lit | hole => cases h
  | global name =>
    obtain ⟨d, hd, rfl⟩ := Option.map_eq_some_iff.1 h
    rw [Term.interpret_of_closed (hbodies name d hd) σ .free]
    exact (Contraction.definition hd).reduces
  | pi x a b iha ihb =>
    rw [step?, Option.or_eq_some_iff] at h
    rcases h with h | ⟨_, h⟩
    · exact reduces_of_map_step? (.piType _) h (fun _ => iha hσ) fun _ => rfl
    · exact reduces_of_map_step? (.piBody _) h (fun _ => ihb (hσ.under x)) fun _ => rfl
  | lam x a b iha ihb =>
    rw [step?, Option.or_eq_some_iff] at h
    rcases h with h | ⟨_, h⟩
    · exact reduces_of_map_step? (.lamType _) h (fun _ => iha hσ) fun _ => rfl
    · exact reduces_of_map_step? (.lamBody _) h (fun _ => ihb (hσ.under x)) fun _ => rfl
  | fix x b ihb =>
    exact reduces_of_map_step? .fixBody h (fun _ => ihb (hσ.under x)) fun _ => rfl
  | elim s m cases ihs _ _ =>
    rw [step?, Option.or_eq_some_iff] at h
    rcases h with h | ⟨_, h⟩
    · simp only [Option.bind_eq_bind, Option.bind_eq_some_iff, Option.pure_def,
        Option.some.injEq] at h
      obtain ⟨⟨index, fields⟩, hform, chosen, hchosen, rfl⟩ := h
      rw [Term.interpret_apps]
      refine (Contraction.elim ((constructorForm_iff hσ).2 ⟨fields, hform, rfl⟩) ?_).reduces
      rw [Term.interpretAll_eq_map, List.getElem?_map, hchosen, Option.map_some]
    · exact reduces_of_map_step? (.scrutinee _ _) h (fun _ => ihs hσ) fun _ => rfl
  | app f a ihf iha =>
    by_cases hlam : ∃ x d b, f = .lam x d b
    · obtain ⟨x, d, b, rfl⟩ := hlam
      rw [step?_app_lam, Option.some.injEq] at h
      rw [← h, Term.interpret_substitute_eq_instantiate]
      exact (Contraction.beta _ _ _).reduces
    rw [step?_app fun x d b hf => hlam ⟨x, d, b, hf⟩] at h
    simp only [Option.or_eq_some_iff] at h
    rcases h with h | ⟨_, h | ⟨_, h | ⟨_, h⟩⟩⟩
    · obtain ⟨operation, x, y, z, ht, hop, hz, rfl⟩ := arithmetic?_eq_some_iff.1 h
      rw [ht]
      exact (Contraction.arithmetic hop hz).reduces
    · obtain ⟨self, body, index, arg, form, hhead, hindex, harg, hform, rfl⟩ :=
        deltaStep?_eq_some_iff.1 h
      rw [Term.interpret_apps, Term.interpret_substitute_eq_instantiate,
        Term.interpret_eq_apps_spine, hhead]
      refine (Contraction.fix ((structuralArgument_iff (hσ.under self)).2 hindex) ?_
        ((constructorForm_iff hσ).2 ⟨form.2, hform, rfl⟩)).reduces
      rw [List.getElem?_map, harg, Option.map_some]
    · exact reduces_of_map_step? (.fn _) h (fun _ => ihf hσ) fun _ => rfl
    · exact reduces_of_map_step? (.arg _) h (fun _ => iha hσ) fun _ => rfl

/-- A term whose nameless form is a redex takes a step. -/
theorem step?_of_contraction (hσ : σ.Faithful) {v : Nameless}
    (h : Contraction table (t.interpret σ) v) : table.step? t ≠ none := by
  generalize hu : t.interpret σ = u at h
  cases h with
  | beta a b c =>
    obtain ⟨f, c, rfl, hf, -⟩ := Term.eq_app_of_interpret hσ hu
    obtain ⟨x, a, b, rfl⟩ := Term.eq_lam_of_interpret hσ hf
    simp [step?_app_lam]
  | @definition name d hd =>
    have hshape : Term.Shape σ σ t (.global name) := shape hσ hσ hu
    cases hshape
    simp [step?, hd]
  | @elim u m c us fields index hform hc =>
    obtain ⟨s, m, cases, rfl, rfl, rfl⟩ := Term.eq_elim_of_interpret hσ hu
    obtain ⟨terms, hform, -⟩ := (constructorForm_iff hσ).1 hform
    rw [List.getElem?_map, Option.map_eq_some_iff] at hc
    obtain ⟨chosen, hchosen, -⟩ := hc
    simp [step?, hform, hchosen]
  | @fix b arg args fields index constructor hb harg hform =>
    -- the structural argument is one of the arguments, so that there are some
    obtain ⟨hhead, rfl⟩ := Term.spine_of_interpret_eq_apps hσ (by simp) hu
    obtain ⟨self, body, hfix, rfl⟩ := Term.eq_fix_of_interpret hσ hhead
    rw [List.getElem?_map, Option.map_eq_some_iff] at harg
    obtain ⟨arg, harg, rfl⟩ := harg
    obtain ⟨terms, hform, -⟩ := (constructorForm_iff hσ).1 hform
    have hdelta := deltaStep?_eq_some_iff.2 ⟨self, body, index, arg, _, hfix,
      (structuralArgument_iff (hσ.under self)).1 hb, harg, hform, rfl⟩
    cases t with
    | app f a =>
      rw [step?_app (by rintro x d b rfl; cases hfix), hdelta]
      simp
    | _ => simp [Term.args] at harg
  | @arithmetic operation x y z hop hz =>
    obtain rfl := eq_of_interpret_operation hσ hσ hu.symm
    simp [step?, arithmetic?, hop, hz]

/-- An application takes a step when one of its parts does. -/
theorem step?_app_ne_none {f a : Term} (h : table.step? f ≠ none ∨ table.step? a ≠ none) :
    table.step? (.app f a) ≠ none := by
  by_cases hlam : ∃ x d b, f = .lam x d b
  · obtain ⟨x, d, b, rfl⟩ := hlam
    simp [step?_app_lam]
  · rw [step?_app fun x d b hf => hlam ⟨x, d, b, hf⟩]
    simp only [ne_eq, Option.or_eq_none_iff, Option.map_eq_none_iff]
    rintro ⟨_, _, hf, ha⟩
    exact h.elim (· hf) (· ha)

/-- What a position leads into is the meaning of a part of the term, and a step there is a step of
the term. -/
theorem exists_part (table : SymbolTable) (hσ : σ.Faithful) {frame : Frame} {u : Nameless}
    (h : t.interpret σ = frame.fill u) : ∃ (part : Term) (τ : Naming), τ.Faithful ∧
      part.interpret τ = u ∧ (table.step? part ≠ none → table.step? t ≠ none) := by
  obtain ⟨atomOf, hatom⟩ := Classical.skolem.1 hσ.atomic
  cases t <;> cases frame
  case pi.piType x a b _ => exact ⟨a, σ, hσ, (Nameless.pi.inj h).1, by simp +contextual [step?]⟩
  case pi.piBody x a b _ =>
    exact ⟨b, σ.under x, hσ.under x, (Nameless.pi.inj h).2, by simp +contextual [step?]⟩
  case lam.lamType x a b _ =>
    exact ⟨a, σ, hσ, (Nameless.lam.inj h).1, by simp +contextual [step?]⟩
  case lam.lamBody x a b _ =>
    exact ⟨b, σ.under x, hσ.under x, (Nameless.lam.inj h).2, by simp +contextual [step?]⟩
  case fix.fixBody x b =>
    exact ⟨b, σ.under x, hσ.under x, Nameless.fix.inj h, by simp +contextual [step?]⟩
  case elim.scrutinee s m cases _ _ =>
    exact ⟨s, σ, hσ, (Nameless.elim.inj h).1, by simp +contextual [step?]⟩
  case app.fn f a _ =>
    exact ⟨f, σ, hσ, (Nameless.app.inj h).1, fun hf => step?_app_ne_none (.inl hf)⟩
  case app.arg f a _ =>
    exact ⟨a, σ, hσ, (Nameless.app.inj h).2, fun ha => step?_app_ne_none (.inr ha)⟩
  -- the frame is of another node
  all_goals simp [interpret, Frame.fill, hatom] at h

/-- **Where there is no step, the nameless form has no redex.** -/
theorem not_reduces_of_step? (hσ : σ.Faithful) (h : table.step? t = none) (v : Nameless) :
    ¬Reduces table (t.interpret σ) v := by
  rintro ⟨position, redex, contractum, hu, -, hredex⟩
  induction position generalizing t σ with
  | nil =>
    obtain rfl : t.interpret σ = redex := hu
    exact step?_of_contraction hσ hredex h
  | cons frame position ih =>
    obtain ⟨part, τ, hτ, hpart, hstep⟩ := exists_part table hσ hu
    exact hstep (fun hnone => ih hτ hnone hpart) h

end SymbolTable

/-! ## The number of steps -/

/-- Whether an event is a reduction step. -/
def Event.isStep : Event → Bool
  | step _ _ => true
  | _ => false

/-- The number of steps that normalization takes, as its log records them. -/
def normalizationSteps (options : Options) (table : SymbolTable) (t : Term) : Nat :=
  (normalize { options with traceReduce := true } table t).log.toList.countP Event.isStep

namespace SymbolTable

variable {table : SymbolTable} {t t' : Term}

theorem countP_reduceFrom_congr (hbodies : table.BodiesClosed) {options : Options}
    {whole whole' : Term} {n : Nat} {log log' : Log} (h : t.nameless = t'.nameless)
    (hlog : log.toList.countP Event.isStep = log'.toList.countP Event.isStep) :
    (reduceFrom options table whole n t log).log.toList.countP Event.isStep =
      (reduceFrom options table whole' n t' log').log.toList.countP Event.isStep := by
  induction n generalizing t t' log log' with
  | zero =>
    simp only [reduceFrom, Log.toList_append, List.countP_append, hlog]
    rfl
  | succ n ih =>
    rw [reduceFrom, reduceFrom]
    rcases Term.map_eq_map_cases
      (step?_congr hbodies Naming.faithful_free Naming.faithful_free h) with
      ⟨hs, hs'⟩ | ⟨u, u', hs, hs', hu⟩
    · rw [hs, hs']
      exact hlog
    · rw [hs, hs']
      refine ih hu ?_
      simp only [Log.toList_append, List.countP_append, hlog]
      cases options.traceReduce <;> rfl

/-! ## Reduction as a function of the nameless form -/

/-- **Reduction is a function of the nameless form.**  Terms of one nameless form both take a step
or both take none, and the results have one nameless form; normalization takes as many steps on the
one as on the other, to results of one nameless form.  A step is one contraction at one position of
the nameless form, and a term that takes none has no redex. -/
theorem reduction_nameless (hbodies : table.BodiesClosed) :
    (∀ t t' : Term, t.nameless = t'.nameless →
      (table.step? t).map Term.nameless = (table.step? t').map Term.nameless ∧
      ∀ options, normalizationSteps options table t = normalizationSteps options table t' ∧
        (normalize options table t).value.nameless =
          (normalize options table t').value.nameless) ∧
    (∀ t t' : Term, table.step? t = some t' → Reduces table t.nameless t'.nameless) ∧
    ∀ t : Term, table.step? t = none → ∀ v, ¬Reduces table t.nameless v := by
  have hfree := Naming.faithful_free
  refine ⟨fun t t' h => ⟨step?_congr hbodies hfree hfree h, fun options => ⟨?_, ?_⟩⟩, ?_, ?_⟩
  · exact countP_reduceFrom_congr hbodies h rfl
  · rw [value_normalize, value_normalize]
    exact reduce_congr hbodies hfree hfree options.fuel h
  · exact fun t t' => reduces_of_step? hbodies hfree
  · exact fun t => not_reduces_of_step? hfree

/-- The constant function, unfolded and applied to a variable of the name that it binds inside, and
to one of another name. -/
theorem reduction_nameless_capture :
    let int := Term.global "Int"
    let const := Term.lam "x" int (.lam "y" int (.var "x"))
    let table : SymbolTable :=
      ⟨{ Layer.empty with definitions := [("const", ⟨.pi "x" int (.pi "y" int int), const⟩)] }, []⟩
    let t := Term.lam "y" int (.app (.global "const") (.var "y"))
    let t' := Term.lam "z" int (.app (.global "const") (.var "z"))
    let options : Options := ⟨10, false, false, false⟩
    table.BodiesClosed ∧ t.nameless = t'.nameless ∧
      normalizationSteps options table t = 2 ∧ normalizationSteps options table t' = 2 ∧
      (normalize options table t).value = .lam "y" int (.lam "y'" int (.var "y")) ∧
      (normalize options table t').value = .lam "z" int (.lam "y" int (.var "z")) ∧
      (normalize options table t).value.nameless = (normalize options table t').value.nameless := by
  intro int const table t t' options
  have hbodies : table.BodiesClosed := by
    intro name d hd
    simp only [table, definition?, layers, List.findSome?_singleton, NameMap.get?] at hd
    split at hd
    · cases hd
      decide
    · cases hd
  have h : t.nameless = t'.nameless := rfl
  obtain ⟨hsteps, hvalues⟩ := ((reduction_nameless hbodies).1 t t' h).2 options
  have hcount : normalizationSteps options table t = 2 := by decide
  refine ⟨hbodies, h, hcount, hsteps ▸ hcount, ?_, ?_, hvalues⟩
  · decide
  · decide

end SymbolTable
end ProofKernel
