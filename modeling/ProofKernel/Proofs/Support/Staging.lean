import ProofKernel.Proofs.Declaration.Layer
import ProofKernel.Proofs.Session.Closed
import ProofKernel.Proofs.Support.Typing

/-!
# Declarations over tables that agree

* `Declaration.judge` is what a declaration would register over a table, or why it is rejected.
* `Declaration.Over` says that a declaration brings only names of a set, and that its terms rest on
  the set.
* `SymbolTable.Shared.judge`: such a declaration is judged alike over two tables that agree on the
  set.

The constructors of an inductive type are checked on a layer that grows, and the tables with the
same layer on top still agree (`SymbolTable.Shared.over_layer`).
-/

set_option autoImplicit false
namespace ProofKernel

variable {options : Options} {S : Leaf → Prop} {table table' : SymbolTable}

/-! ## Declarations over a set -/

namespace Declaration

/-- What a declaration would register over a table, or why it is rejected. -/
def judge (options : Options) (table : SymbolTable) (d : Declaration) : Except KernelError Layer :=
  (d.stage options (.ofTable table)).outcome.map (·.own)

/-- The terms that are judged for a declaration, with parameters put in front. -/
def judgedTerms : Declaration → List Term
  | definition _ type body => type.toList ++ [body]
  | postulate _ type => [type]
  | family _ params sort constructors =>
    arity params sort :: (polymorphicConstructors params constructors).map Prod.snd

/-- What a declaration brings belongs to a set, and its terms rest on the set. -/
structure Over (S : Leaf → Prop) (d : Declaration) : Prop where
  provides : ∀ name ∈ d.provides, S (.global name)
  terms : ∀ t ∈ d.judgedTerms, t.Over S

theorem Over.constructors {name : String} {params constructors : Telescope} {sort : Option Term}
    (h : (family name params sort constructors).Over S) :
    ∀ p ∈ polymorphicConstructors params constructors, S (.global p.1) ∧ p.2.Over S := by
  intro p hp
  refine ⟨h.provides p.1 (List.mem_cons_of_mem _ ?_),
    h.terms p.2 (List.mem_cons_of_mem _ (List.mem_map_of_mem hp))⟩
  rw [← map_fst_polymorphicConstructors params]
  exact List.mem_map_of_mem hp

end Declaration

/-! ## Definitions -/

theorem LocalsOver.nil : LocalsOver S [] := nofun

theorem SymbolTable.Shared.definitionType (h : Shared S table table') {body : Term}
    {type : Option Term} (hbody : body.Over S) (htype : ∀ A, type = some A → A.Over S) :
    Verdict.Same (Term.Over S) (ProofKernel.definitionType options (.ofTable table) body type)
      (ProofKernel.definitionType options (.ofTable table') body type) := by
  cases type with
  | none => exact h.infer hbody .nil
  | some A =>
    have hA := htype A rfl
    have hsort : ProofKernel.inferSort options (.ofTable table) A =
      ProofKernel.inferSort options (.ofTable table') A := h.inferSort hA .nil
    have hcheck : ProofKernel.check options (.ofTable table) body A =
      ProofKernel.check options (.ofTable table') body A := h.check hbody .nil hA
    rw [ProofKernel.definitionType, ProofKernel.definitionType, hsort, hcheck]
    exact (Verdict.Same.refl _).bind fun _ _ => (Verdict.Same.refl _).bind fun _ _ => .pure hA

/-! ## Inductive types -/

/-- Tables with the same layer on top agree, if it registers nothing from outside the set. -/
theorem SymbolTable.Shared.over_layer (h : Shared S table table') {layer : Layer}
    (hlayer : ∀ name, (layer.registration name).Over S) :
    Shared S ⟨layer, table.layers⟩ ⟨layer, table'.layers⟩ where
  agree := fun name hname => by
    rw [registration_over, registration_over, h.agree name hname]
  entries := fun name hname => by
    rw [registration_over]
    exact (hlayer name).or (h.entries name hname)
  literal := h.literal

theorem over_familyLayer {family : String} {arity : Term} {constructors : Telescope}
    (hfamily : S (.global family)) (harity : arity.Over S)
    (hc : ∀ p ∈ constructors, S (.global p.1) ∧ p.2.Over S) (name : String) :
    ((familyLayer family arity constructors).registration name).Over S where
  family := by
    intro f hf
    rw [Layer.registration, familyLayer, get?_singleton] at hf
    dsimp only at hf
    split at hf
    · cases hf
      refine ⟨harity, fun c hmem => ?_⟩
      obtain ⟨p, hp, rfl⟩ := List.mem_map.1 hmem
      exact (hc p hp).1
    · cases hf
  constructor := by
    intro c hget
    obtain ⟨p, hp, heq⟩ := List.mem_map.1 (NameMap.mem_of_get? hget)
    cases heq
    exact ⟨(hc p hp).2, hfamily⟩
  definition := nofun
  postulate := nofun

theorem SymbolTable.Shared.addConstructors (h : Shared S table table') {family : String}
    {params : List String} {arity : Term} {done rest : Telescope} (hfamily : S (.global family))
    (harity : arity.Over S) (hdone : ∀ p ∈ done, S (.global p.1) ∧ p.2.Over S)
    (hrest : ∀ p ∈ rest, S (.global p.1) ∧ p.2.Over S) :
    (ProofKernel.addConstructors options (.ofTable ⟨familyLayer family arity done, table.layers⟩)
        family params rest).outcome.map (·.own) =
      (ProofKernel.addConstructors options (.ofTable ⟨familyLayer family arity done, table'.layers⟩)
        family params rest).outcome.map (·.own) := by
  induction rest generalizing done with
  | nil => rfl
  | cons p rest ih =>
    obtain ⟨c, type⟩ := p
    rw [List.forall_mem_cons] at hrest
    have hlayer := h.over_layer (over_familyLayer hfamily harity hdone)
    have hsort : ProofKernel.inferSort options
        (.ofTable ⟨familyLayer family arity done, table.layers⟩) type =
      ProofKernel.inferSort options
        (.ofTable ⟨familyLayer family arity done, table'.layers⟩) type :=
      hlayer.inferSort hrest.1.2 .nil
    rw [addConstructors_cons, addConstructors_cons, ← hsort, ← hlayer.defined hrest.1.1]
    cases (ProofKernel.inferSort options (.ofTable ⟨familyLayer family arity done, table.layers⟩)
      type).outcome with
    | error e => rfl
    | ok u =>
      rw [Verdict.ok_bind, Verdict.ok_bind]
      cases checkConclusion family params c type with
      | error e => rfl
      | ok _ =>
        rw [Verdict.ok_bind, Verdict.ok_bind]
        split
        · rfl
        · refine ih (List.forall_mem_append.2 ⟨hdone, List.forall_mem_singleton.2 hrest.1⟩) hrest.2

/-! ## Any declaration -/

/-- **A declaration over the set is judged alike.** -/
theorem SymbolTable.Shared.judge (h : Shared S table table') {d : Declaration} (hd : d.Over S) :
    d.judge options table = d.judge options table' := by
  obtain ⟨hprovides, hterms⟩ := hd
  unfold Declaration.judge
  cases d with
  | definition name type body =>
    have hname := hprovides name List.mem_cons_self
    have hbody := hterms body (List.mem_append_right _ List.mem_cons_self)
    have htype : ∀ A, type = some A → A.Over S := by
      rintro A rfl
      exact hterms A (List.mem_append_left _ List.mem_cons_self)
    rw [Declaration.stage_definition, Declaration.stage_definition, ← h.defined hname,
      ← (h.definitionType hbody htype).eq]
    split
    · rfl
    · cases (ProofKernel.definitionType options (.ofTable table) body type).outcome <;> rfl
  | postulate name type =>
    have hname := hprovides name List.mem_cons_self
    have htype := hterms type List.mem_cons_self
    have hsort : ProofKernel.inferSort options (.ofTable table) type =
      ProofKernel.inferSort options (.ofTable table') type := h.inferSort htype .nil
    rw [Declaration.stage_postulate name type type, Declaration.stage_postulate name type type,
      ← h.defined hname, ← hsort]
    cases (ProofKernel.inferSort options (.ofTable table) type).outcome with
    | error e => rfl
    | ok u =>
      rw [Verdict.ok_bind, Verdict.ok_bind]
      split <;> rfl
  | family name params sort constructors =>
    have hname := hprovides name List.mem_cons_self
    have harity := hterms _ List.mem_cons_self
    have hc := Declaration.Over.constructors ⟨hprovides, hterms⟩
    have hsort : ProofKernel.inferSort options (.ofTable table) (Declaration.arity params sort) =
      ProofKernel.inferSort options (.ofTable table') (Declaration.arity params sort) :=
      h.inferSort harity .nil
    rw [Declaration.stage_family, Declaration.stage_family, ← h.defined hname, ← hsort]
    split
    · split
      · rfl
      · cases (ProofKernel.inferSort options (.ofTable table)
          (Declaration.arity params sort)).outcome with
        | error e => rfl
        | ok u =>
          rw [Verdict.ok_bind, Verdict.ok_bind]
          cases checkPositivity name (polymorphicConstructors params constructors) with
          | error e => rfl
          | ok _ => exact h.addConstructors hname harity nofun hc
    · rfl

/-- What a layer registers is over the set, if its declaration is. -/
theorem Declaration.over_layer {d : Declaration} (hd : d.Over S) {T : Term}
    (hT : ∀ name type body, d = .definition name type body → T.Over S) (name : String) :
    ((d.layer T).registration name).Over S := by
  cases d with
  | definition given type body =>
    refine ⟨by rintro _ ⟨⟩, by rintro _ ⟨⟩, fun e he => ?_, by rintro _ ⟨⟩⟩
    rw [Layer.registration, layer, get?_singleton] at he
    dsimp only at he
    split at he
    · cases he
      exact ⟨hT _ _ _ rfl, hd.terms body (List.mem_append_right _ List.mem_cons_self)⟩
    · cases he
  | postulate given type =>
    refine ⟨by rintro _ ⟨⟩, by rintro _ ⟨⟩, by rintro _ ⟨⟩, fun A hA => ?_⟩
    rw [Layer.registration, layer, get?_singleton] at hA
    dsimp only at hA
    split at hA
    · cases hA
      exact hd.terms type List.mem_cons_self
    · cases hA
  | family given params sort constructors =>
    exact over_familyLayer (hd.provides given List.mem_cons_self)
      (hd.terms _ List.mem_cons_self) hd.constructors name

/-- **What a declaration over the set registers stays within the set.** -/
theorem SymbolTable.Shared.over_judge (h : Shared S table table') {d : Declaration} (hd : d.Over S)
    {layer : Layer} (hjudge : d.judge options table = .ok layer) (name : String) :
    (layer.registration name).Over S := by
  obtain ⟨staged, hstage, rfl⟩ := Verdict.map_eq_ok_iff.1 hjudge
  obtain ⟨⟨T, hT, rfl⟩, _⟩ := Declaration.stage_eq_ok hstage
  refine Declaration.over_layer hd ?_ name
  rintro _ type body rfl
  refine (h.definitionType ?_ ?_).value T (hT _ _ _ rfl)
  · exact hd.terms body (List.mem_append_right _ List.mem_cons_self)
  · rintro A rfl
    exact hd.terms A (List.mem_append_left _ List.mem_cons_self)

end ProofKernel
