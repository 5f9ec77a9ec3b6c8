import ProofKernel.Proofs.Declaration.Publication

/-!
# The layer of a declaration

A declaration that is accepted leaves one layer over the table, which depends on the declaration and
on the type that a definition gets.

* `Declaration.layer` is this layer; it lists what the declaration provides
  (`Declaration.order_layer`).
* `Declaration.stage_definition`, `Declaration.stage_postulate` and `Declaration.stage_family` list
  the judgements behind a staged declaration, in order.
* `Declaration.stage_eq_ok`: what is staged is this layer, and its names are new and distinct.
-/

set_option autoImplicit false
namespace ProofKernel

variable {options : Options} {table : SymbolTable}

/-! ## Layers -/

/-- An inductive type and its constructors. -/
def familyLayer (name : String) (arity : Term) (constructors : Telescope) : Layer :=
  { Layer.empty with
    families := [(name, ⟨arity, arity.piChain.1.length, constructors.map Prod.fst⟩)]
    constructors := constructors.map fun (c, type) => (c, ⟨name, type⟩)
    order := name :: constructors.map Prod.fst }

namespace Declaration

/-- The arity of an inductive type: its parameters in front of its sort. -/
def arity (params : Telescope) (sort : Option Term) : Term :=
  Term.pis (boundParams params) (sort.getD (.sort (.type 0)))

/-- What a declaration registers, given the type that a definition gets. -/
def layer (type : Term) : Declaration → Layer
  | definition name _ body =>
    { Layer.empty with definitions := [(name, ⟨type, body⟩)], order := [name] }
  | postulate name type => { Layer.empty with postulates := [(name, type)], order := [name] }
  | family name params sort constructors =>
    familyLayer name (arity params sort) (polymorphicConstructors params constructors)

theorem map_fst_polymorphicConstructors (params constructors : Telescope) :
    (polymorphicConstructors params constructors).map Prod.fst = constructors.map Prod.fst := by
  rw [polymorphicConstructors, List.map_map]
  rfl

@[simp] theorem order_layer (type : Term) (d : Declaration) :
    (d.layer type).order = d.provides := by
  cases d with
  | definition | postulate => rfl
  | family name params sort constructors =>
    rw [layer, familyLayer, map_fst_polymorphicConstructors]
    rfl

@[simp] theorem hints_layer (type : Term) (d : Declaration) : (d.layer type).hints = [] := by
  cases d <;> rfl

end Declaration

theorem get?_singleton {α : Type} (name other : String) (v : α) :
    NameMap.get? [(name, v)] other = if name = other then some v else none := rfl

theorem names_map {α : Type} (f : String × Term → α) (binders : Telescope) :
    NameMap.names (binders.map fun p => (p.1, f p)) = binders.map Prod.fst := by
  rw [NameMap.names, List.map_map]
  rfl

theorem tidy_familyLayer (name : String) (arity : Term) {constructors : Telescope}
    (h : (constructors.map Prod.fst).Nodup) : (familyLayer name arity constructors).Tidy := by
  have hnames : (familyLayer name arity constructors).constructors.names =
      constructors.map Prod.fst := names_map _ _
  refine ⟨fun other => ?_, List.pairwise_singleton _ _, hnames ▸ h, .nil, .nil⟩
  have hconstructor : (familyLayer name arity constructors).constructors.get? other = none ↔
      other ∉ constructors.map Prod.fst := by
    rw [NameMap.get?_eq_none_iff, hnames]
  have hfamily : (familyLayer name arity constructors).families.get? other = none ↔
      other ≠ name := by
    rw [familyLayer, get?_singleton]
    split
    · next heq => simp [heq]
    · next hne => simp [Ne.symm hne]
  rw [show (familyLayer name arity constructors).order = name :: constructors.map Prod.fst from rfl,
    List.mem_cons, not_or, ← ne_eq, ← hfamily, ← hconstructor, Layer.registration,
    Registration.none, Registration.mk.injEq]
  exact ⟨fun h => ⟨h.1, h.2.1⟩, fun h => ⟨h.1, h.2, rfl, rfl⟩⟩

/-- A declaration whose names are distinct leaves a tidy layer. -/
theorem Declaration.tidy_layer {d : Declaration} (h : d.provides.Nodup) (type : Term) :
    (d.layer type).Tidy := by
  have hone : ∀ {α : Type} (name other : String) (v : α),
      NameMap.get? [(name, v)] other = none ↔ other ∉ [name] := by
    intro α name other v
    rw [get?_singleton, List.mem_singleton]
    split
    · next heq => simp [heq]
    · next hne => simp [Ne.symm hne]
  cases d with
  | definition name given body =>
    refine ⟨fun other => ?_, .nil, .nil, List.pairwise_singleton _ _, .nil⟩
    rw [order_layer, provides, ← hone name other (⟨type, body⟩ : Definition)]
    simp [Layer.registration, layer, Layer.empty, Registration.none]
  | postulate name given =>
    refine ⟨fun other => ?_, .nil, .nil, .nil, List.pairwise_singleton _ _⟩
    rw [order_layer, provides, ← hone name other given]
    simp [Layer.registration, layer, Layer.empty, Registration.none]
  | family name params sort constructors =>
    refine tidy_familyLayer _ _ ?_
    rw [map_fst_polymorphicConstructors]
    exact (List.nodup_cons.1 h).2

/-! ## Inductive types with their constructors -/

/-- An inductive type of a new name starts a layer. -/
theorem addFamily_fork {name : String} (h : table.defined name = false) (arity : Term) :
    table.fork.addFamily name arity = .ok ⟨familyLayer name arity [], table.layers⟩ :=
  SymbolTable.register_eq_ok_iff.2 ⟨h, rfl⟩

/-- A constructor of a new name is added to the layer of its inductive type. -/
theorem addConstructor_familyLayer {name c : String} {arity type : Term} {done : Telescope} :
    (⟨familyLayer name arity done, table.layers⟩ : SymbolTable).addConstructor c name type =
      if (⟨familyLayer name arity done, table.layers⟩ : SymbolTable).defined c then
        .error (.alreadyDefined c)
      else .ok ⟨familyLayer name arity (done ++ [(c, type)]), table.layers⟩ := by
  have hfamily : (⟨familyLayer name arity done, table.layers⟩ : SymbolTable).family? name =
      some ⟨arity, arity.piChain.1.length, done.map Prod.fst⟩ := by
    simp [SymbolTable.family?, SymbolTable.layers, familyLayer, NameMap.get?]
  rw [SymbolTable.addConstructor, hfamily]
  cases hdefined : (⟨familyLayer name arity done, table.layers⟩ : SymbolTable).defined c with
  | true => rfl
  | false =>
    -- the name is new, so that its entry goes to the end
    have hnew := SymbolTable.defined_eq_false_iff.1 hdefined
    rw [SymbolTable.registration_over, Registration.or_eq_none_iff] at hnew
    have hget : (familyLayer name arity done).constructors.get? c = none :=
      congrArg Registration.constructor hnew.1
    simp only [Bool.false_eq_true, if_false, SymbolTable.register, hdefined,
      NameMap.put_of_get?_eq_none hget]
    simp [familyLayer, NameMap.put]

theorem addConstructors_cons {name c : String} {params : List String} {arity type : Term}
    {done rest : Telescope} :
    (addConstructors options (.ofTable ⟨familyLayer name arity done, table.layers⟩) name params
      ((c, type) :: rest)).outcome = (do
        let _ ← (inferSort options (.ofTable ⟨familyLayer name arity done, table.layers⟩)
          type).outcome
        checkConclusion name params c type
        if (⟨familyLayer name arity done, table.layers⟩ : SymbolTable).defined c then
          .error (.alreadyDefined c)
        else (addConstructors options
          (.ofTable ⟨familyLayer name arity (done ++ [(c, type)]), table.layers⟩) name params
          rest).outcome) := by
  rw [addConstructors]
  simp only [Verdict.outcome_bind, Verdict.outcome_ofExcept, Context.ofTable,
    addConstructor_familyLayer]
  refine congrArg _ (funext fun _ => congrArg _ (funext fun _ => ?_))
  split <;> rfl

/-- A constructor that is accepted has a type, a conclusion and a new name. -/
theorem addConstructors_cons_eq_ok {name c : String} {params : List String} {arity type : Term}
    {done rest : Telescope} {staged : SymbolTable}
    (h : (addConstructors options (.ofTable ⟨familyLayer name arity done, table.layers⟩) name params
      ((c, type) :: rest)).outcome = .ok staged) :
    (∃ u, (inferSort options (.ofTable ⟨familyLayer name arity done, table.layers⟩)
        type).outcome = .ok u) ∧
      (⟨familyLayer name arity done, table.layers⟩ : SymbolTable).defined c = false ∧
      (addConstructors options (.ofTable ⟨familyLayer name arity (done ++ [(c, type)]),
        table.layers⟩) name params rest).outcome = .ok staged := by
  rw [addConstructors_cons] at h
  cases hsort : (inferSort options (.ofTable ⟨familyLayer name arity done, table.layers⟩)
    type).outcome with
  | error e => rw [hsort] at h; cases h
  | ok u =>
    rw [hsort, Verdict.ok_bind] at h
    cases hconclusion : checkConclusion name params c type with
    | error e => rw [hconclusion] at h; cases h
    | ok _ =>
      rw [hconclusion, Verdict.ok_bind] at h
      split at h
      · cases h
      · next hdefined => exact ⟨⟨u, rfl⟩, Bool.not_eq_true _ ▸ hdefined, h⟩

/-- Constructors that are accepted have new and distinct names, and complete the layer. -/
theorem addConstructors_eq_ok {name : String} {params : List String} {arity : Term}
    {done rest : Telescope} {staged : SymbolTable}
    (h : (addConstructors options (.ofTable ⟨familyLayer name arity done, table.layers⟩) name params
      rest).outcome = .ok staged)
    (hdone : (name :: done.map Prod.fst).Nodup) :
    staged = ⟨familyLayer name arity (done ++ rest), table.layers⟩ ∧
      (name :: (done ++ rest).map Prod.fst).Nodup ∧
      ∀ c ∈ rest.map Prod.fst, table.defined c = false := by
  induction rest generalizing done with
  | nil =>
    cases h
    rw [List.append_nil]
    exact ⟨rfl, hdone, nofun⟩
  | cons p rest ih =>
    obtain ⟨c, type⟩ := p
    obtain ⟨_, hdefined, h⟩ := addConstructors_cons_eq_ok h
    rw [SymbolTable.defined_eq_false_iff, SymbolTable.registration_over,
      Registration.or_eq_none_iff] at hdefined
    obtain ⟨hlayer, htable⟩ := hdefined
    have htidy := tidy_familyLayer name arity (List.nodup_cons.1 hdone).2
    have hc : c ∉ name :: done.map Prod.fst := (htidy.listed c).1 hlayer
    have hnodup : (name :: (done ++ [(c, type)]).map Prod.fst).Nodup := by
      rw [List.map_append, List.map_singleton, ← List.cons_append, List.nodup_append]
      refine ⟨hdone, List.pairwise_singleton _ _, fun a ha b hb heq => ?_⟩
      rw [heq, List.mem_singleton.1 hb] at ha
      exact hc ha
    obtain ⟨hstaged, hall, hrest⟩ := ih h hnodup
    rw [List.append_assoc, List.singleton_append] at hstaged hall
    exact ⟨hstaged, hall,
      List.forall_mem_cons.2 ⟨SymbolTable.defined_eq_false_iff.2 htable, hrest⟩⟩

/-! ## Declarations -/

namespace Declaration

/-- A definition is judged by its name and its type. -/
theorem stage_definition (name : String) (type : Option Term) (body : Term) :
    (stage options (.ofTable table) (definition name type body)).outcome =
      if table.defined name then .error (.alreadyDefined name)
      else (definitionType options (.ofTable table) body type).outcome.map fun T =>
        ⟨(definition name type body).layer T, table.layers⟩ := by
  cases hdefined : table.defined name with
  | true => simp [stage, stageDefinition, Context.ofTable, hdefined]
  | false =>
    have hadd : ∀ T, table.fork.addDefinition name T body =
        .ok ⟨(definition name type body).layer T, table.layers⟩ := fun T =>
      SymbolTable.register_eq_ok_iff.2 ⟨hdefined, rfl⟩
    cases type with
    | none =>
      simp only [stage, stageDefinition, definitionType, Context.ofTable, hdefined,
        Bool.false_eq_true, if_false, Verdict.outcome_bind, hadd, Verdict.outcome_ofExcept]
      cases (infer options ⟨table, []⟩ body).outcome <;> rfl
    | some A =>
      simp only [stage, stageDefinition, definitionType, Context.ofTable, hdefined,
        Bool.false_eq_true, if_false, Verdict.outcome_bind, hadd, Verdict.outcome_ofExcept]
      cases (inferSort options ⟨table, []⟩ A).outcome with
      | error e => rfl
      | ok u => cases (check options ⟨table, []⟩ body A).outcome <;> rfl

/-- A constant is judged by its type and its name. -/
theorem stage_postulate (name : String) (type T : Term) :
    (stage options (.ofTable table) (postulate name type)).outcome = (do
      let _ ← (inferSort options (.ofTable table) type).outcome
      if table.defined name then .error (.alreadyDefined name)
      else .ok ⟨(postulate name type).layer T, table.layers⟩) := by
  rw [stage, stagePostulate, Verdict.outcome_bind]
  refine congrArg _ (funext fun _ => ?_)
  rw [Verdict.outcome_ofExcept, SymbolTable.addPostulate, SymbolTable.register]
  rfl

/-- An inductive type is judged by its sort, its name, its arity and its constructors. -/
theorem stage_family (name : String) (params : Telescope) (sort : Option Term)
    (constructors : Telescope) :
    (stage options (.ofTable table) (family name params sort constructors)).outcome =
      match sort.getD (.sort (.type 0)) with
      | .sort _ =>
        if table.defined name then .error (.alreadyDefined name)
        else do
          let _ ← (inferSort options (.ofTable table) (arity params sort)).outcome
          checkPositivity name (polymorphicConstructors params constructors)
          (addConstructors options
            (.ofTable ⟨familyLayer name (arity params sort) [], table.layers⟩)
            name (params.map Prod.fst) (polymorphicConstructors params constructors)).outcome
      | other => .error (.notAType other) := by
  rw [stage, stageFamily]
  unfold arity
  generalize sort.getD (.sort (.type 0)) = given
  cases given with
  | sort u =>
    by_cases hdefined : table.defined name = true
    · simp only [Context.ofTable, hdefined, if_true]
      rfl
    · rw [Bool.not_eq_true] at hdefined
      simp only [Context.ofTable, hdefined, Bool.false_eq_true, if_false, Verdict.outcome_bind,
        Verdict.outcome_ofExcept, addFamily_fork hdefined]
      refine congrArg _ (funext fun _ => congrArg _ (funext fun _ => ?_))
      exact bind_pure (m := Except KernelError) _
  | _ => rfl

/-- A type for the definition that a declaration may be. -/
def Types (options : Options) (table : SymbolTable) (T : Term) (d : Declaration) : Prop :=
  ∀ name type body, d = definition name type body →
    (definitionType options (.ofTable table) body type).outcome = .ok T

/-- **What is staged for a declaration is its layer over the table**, and its names are new and
distinct. -/
theorem stage_eq_ok {d : Declaration} {staged : SymbolTable}
    (h : (d.stage options (.ofTable table)).outcome = .ok staged) :
    (∃ T, d.Types options table T ∧ staged = ⟨d.layer T, table.layers⟩) ∧ d.provides.Nodup ∧
      ∀ name ∈ d.provides, table.defined name = false := by
  cases d with
  | definition name type body =>
    rw [stage_definition] at h
    split at h
    · cases h
    · next hdefined =>
      rw [Bool.not_eq_true] at hdefined
      obtain ⟨T, hT, rfl⟩ := Verdict.map_eq_ok_iff.1 h
      refine ⟨⟨T, ?_, rfl⟩, List.pairwise_singleton _ _, List.forall_mem_singleton.2 hdefined⟩
      rintro _ _ _ ⟨⟩
      exact hT
  | postulate name type =>
    rw [stage_postulate name type type] at h
    cases hsort : (inferSort options (.ofTable table) type).outcome with
    | error e => rw [hsort] at h; cases h
    | ok u =>
      rw [hsort, Verdict.ok_bind] at h
      split at h
      · cases h
      · next hdefined =>
        rw [Bool.not_eq_true] at hdefined
        cases h
        exact ⟨⟨type, nofun, rfl⟩, List.pairwise_singleton _ _,
          List.forall_mem_singleton.2 hdefined⟩
  | family name params sort constructors =>
    obtain ⟨u, v, added, hu, hdefined, _, _, hadd, hcons⟩ := stageFamily_eq_ok_iff.1 h
    obtain rfl : ⟨familyLayer name _ [], table.layers⟩ = added :=
      Except.ok.inj ((addFamily_fork hdefined _).symm.trans hadd)
    obtain ⟨rfl, hnodup, hnew⟩ := addConstructors_eq_ok hcons (List.pairwise_singleton _ name)
    rw [List.nil_append, map_fst_polymorphicConstructors] at hnodup
    rw [map_fst_polymorphicConstructors] at hnew
    refine ⟨⟨.hole, nofun, ?_⟩, hnodup, List.forall_mem_cons.2 ⟨hdefined, hnew⟩⟩
    rw [layer, arity, hu, List.nil_append]

/-- **A declaration that is published adds its layer to the table.** -/
theorem publish_eq_ok {d : Declaration} {table' : SymbolTable}
    (h : (d.publish options (.ofTable table)).outcome = .ok table') :
    ∃ T, d.Types options table T ∧
      (d.stage options (.ofTable table)).outcome = .ok ⟨d.layer T, table.layers⟩ ∧
      table'.names = table.names ++ d.provides ∧ table'.hints = table.hints ∧
      ∀ name, table'.registration name =
        if name ∈ d.provides then (d.layer T).registration name else table.registration name := by
  rw [publish, Verdict.bind_eq_ok_iff] at h
  obtain ⟨staged, hstage, hpub⟩ := h
  obtain ⟨⟨T, hT, rfl⟩, hnodup, _⟩ := stage_eq_ok hstage
  have hpub : table.publish (d.layer T) = .ok table' := hpub
  refine ⟨T, hT, hstage, ?_, ?_, fun name => ?_⟩
  · rw [SymbolTable.names_publish hpub, order_layer]
  · obtain ⟨_, rfl⟩ := SymbolTable.publish_eq_ok_iff.1 hpub
    simp [SymbolTable.hints, SymbolTable.layers, Layer.merge]
  · rw [SymbolTable.registration_publish_eq (tidy_layer hnodup T) hpub, order_layer]

end Declaration
end ProofKernel
