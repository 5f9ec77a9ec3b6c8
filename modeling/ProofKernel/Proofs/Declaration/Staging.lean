import ProofKernel.Declaration.Staging
import ProofKernel.Proofs.Verdict

/-!
# Accepted declarations

When a declaration is accepted, and what is registered then.

* `SymbolTable.register_eq_ok_iff` and `SymbolTable.publish_eq_ok_iff` say when the table takes a
  new name or a new layer.
* `stageDefinition_eq_ok_iff` and `stageFamily_eq_ok_iff` list the judgements behind a staged
  declaration, in the order in which they are made.
-/

set_option autoImplicit false
namespace ProofKernel

variable {options : Options} {Γ : Context} {name : String}

/-! ## The table -/

namespace SymbolTable

variable {table table' : SymbolTable} {above : Layer}

/-- A name is registered iff it is not taken. -/
theorem register_eq_ok_iff {change : Layer → Layer} :
    table.register name change = .ok table' ↔ table.defined name = false ∧
      table' = ⟨{ change table.own with order := (change table.own).order ++ [name] },
        table.below⟩ := by
  unfold register
  split
  · next hdef =>
    rw [hdef]
    exact ⟨nofun, nofun⟩
  · next hdef =>
    rw [Bool.not_eq_true] at hdef
    rw [Except.ok.injEq]
    exact ⟨fun h => ⟨hdef, h.symm⟩, fun h => h.2.symm⟩

/-- A layer is published iff none of its names is taken. -/
theorem publish_eq_ok_iff :
    table.publish above = .ok table' ↔ (∀ name ∈ above.order, table.defined name = false) ∧
      table' = ⟨table.own.merge above, table.below⟩ := by
  unfold SymbolTable.publish
  split
  · next name hname =>
    refine ⟨nofun, fun h => ?_⟩
    have hdefined := List.find?_some hname
    rw [h.1 name (List.mem_of_find?_eq_some hname)] at hdefined
    cases hdefined
  · next hfree =>
    have hnew : ∀ name ∈ above.order, table.defined name = false := by
      intro name hname
      simpa using List.find?_eq_none.1 hfree name hname
    rw [Except.ok.injEq]
    exact ⟨fun h => ⟨hnew, h.symm⟩, fun h => h.2.symm⟩

end SymbolTable

/-! ## Definitions -/

/-- The type a definition gets: the one that is given, if the body has it, or else the type of the
body. -/
def definitionType (options : Options) (Γ : Context) (body : Term) : Option Term → Verdict Term
  | some type => do
    let _ ← inferSort options Γ type
    check options Γ body type
    return type
  | none => infer options Γ body

/-- A definition is staged iff its name is new and its body has a type. -/
theorem stageDefinition_eq_ok_iff {type : Option Term} {body : Term}
    {staged : SymbolTable × Term} :
    (stageDefinition options Γ name type body).outcome = .ok staged ↔
      Γ.table.defined name = false ∧
      (definitionType options Γ body type).outcome = .ok staged.2 ∧
      Γ.table.fork.addDefinition name staged.2 body = .ok staged.1 := by
  obtain ⟨table, A⟩ := staged
  -- after the judgements the fork registers the name, which is all that remains
  have hrest : ∀ T : Term, (do
      let staged ← Verdict.ofExcept (Γ.table.fork.addDefinition name T body)
      Verdict.note true (.checkedDefinition name T)
      return (staged, T) : Verdict (SymbolTable × Term)).outcome = .ok (table, A) ↔
        T = A ∧ Γ.table.fork.addDefinition name A body = .ok table := by
    intro T
    rw [Verdict.bind_eq_ok_iff]
    constructor
    · rintro ⟨_, hadd, ⟨⟩⟩
      exact ⟨rfl, hadd⟩
    · rintro ⟨rfl, hadd⟩
      exact ⟨table, hadd, rfl⟩
  unfold stageDefinition definitionType
  cases hdef : Γ.table.defined name with
  | true => simp
  | false =>
    cases type with
    | none =>
      simp only [Bool.false_eq_true, if_false, true_and, Verdict.bind_eq_ok_iff, hrest]
      constructor
      · rintro ⟨T, h, rfl, hadd⟩
        exact ⟨h, hadd⟩
      · rintro ⟨h, hadd⟩
        exact ⟨A, h, rfl, hadd⟩
    | some type =>
      simp only [Bool.false_eq_true, if_false, true_and, Verdict.bind_eq_ok_iff, hrest]
      constructor
      · rintro ⟨u, hu, _, hc, T, hT, rfl, hadd⟩
        exact ⟨⟨u, hu, (), hc, hT⟩, hadd⟩
      · rintro ⟨⟨u, hu, _, hc, hT⟩, hadd⟩
        exact ⟨u, hu, (), hc, A, hT, rfl, hadd⟩

/-! ## Inductive types -/

/-- The parameters of an inductive type, with the globals of their names read as parameters. -/
def boundParams (params : Telescope) : Telescope :=
  params.map fun (x, a) => (x, a.bindParams (params.map Prod.fst))

/-- The constructors of an inductive type, with its parameters in front. -/
def polymorphicConstructors (params constructors : Telescope) : Telescope :=
  constructors.map fun (c, a) =>
    (c, Term.pis (boundParams params) (a.bindParams (params.map Prod.fst)))

/-- An inductive type is staged iff its sort is a universe, its name is new, its arity is a type,
it occurs positively, and its constructors are accepted one after the other. -/
theorem stageFamily_eq_ok_iff {params : Telescope} {sort : Option Term} {constructors : Telescope}
    {staged : SymbolTable} :
    (stageFamily options Γ name params sort constructors).outcome = .ok staged ↔
      ∃ u v table, sort.getD (.sort (.type 0)) = .sort u ∧ Γ.table.defined name = false ∧
        (inferSort options Γ (Term.pis (boundParams params) (.sort u))).outcome = .ok v ∧
        checkPositivity name (polymorphicConstructors params constructors) = .ok () ∧
        Γ.table.fork.addFamily name (Term.pis (boundParams params) (.sort u)) = .ok table ∧
        (addConstructors options { Γ with table := table } name (params.map Prod.fst)
          (polymorphicConstructors params constructors)).outcome = .ok staged := by
  unfold stageFamily
  cases hdef : Γ.table.defined name with
  | true =>
    simp only [Bool.true_eq_false, false_and, and_false, exists_false, iff_false]
    split <;> simp
  | false =>
    dsimp only
    split
    · next u hu =>
      simp only [Bool.false_eq_true, if_false, true_and, Verdict.bind_eq_ok_iff, hu]
      constructor
      · rintro ⟨v, hv, _, hpos, table, hadd, added, hcons, _, _, ⟨⟩⟩
        exact ⟨u, v, table, rfl, hv, hpos, hadd, hcons⟩
      · rintro ⟨u', v, table, ⟨⟩, hv, hpos, hadd, hcons⟩
        exact ⟨v, hv, (), hpos, table, hadd, staged, hcons, (), rfl, rfl⟩
    · next hsort =>
      simp only [Verdict.bind_eq_ok_iff, Verdict.outcome_reject]
      constructor
      · rintro ⟨_, ⟨⟩, _⟩
      · rintro ⟨u, _, _, hu, _⟩
        exact absurd hu (hsort u)

end ProofKernel
