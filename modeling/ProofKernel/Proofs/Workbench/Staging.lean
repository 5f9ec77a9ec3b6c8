import ProofKernel.Proofs.Support.SelfContained

/-!
# Declarations staged among local variables

A declaration may be staged in a context that has local variables.  What it leaves is then a layer
of the same kind, whose terms rest on the table and on the names that it brings.

* `Declaration.Leaves` says what a staged declaration leaves: the names in order, what is registered
  for them, and the judgement behind a definition.
* `Declaration.leaves_of_stage`: every staged declaration leaves that, over a table that accounts
  for itself.
-/

set_option autoImplicit false
namespace ProofKernel

variable {options : Options} {table : SymbolTable} {locals : Telescope}

/-! ## Inductive types -/

/-- A constructor that is accepted has a type that rests on what is there before it, and a new
name. -/
theorem addConstructors_step {name c : String} {params : List String} {arity type : Term}
    {done rest : Telescope} {staged : SymbolTable}
    (h : (addConstructors options ⟨⟨familyLayer name arity done, table.layers⟩, locals⟩ name params
      ((c, type) :: rest)).outcome = .ok staged) :
    type.Over (⟨familyLayer name arity done, table.layers⟩ : SymbolTable).Knows ∧
      (⟨familyLayer name arity done, table.layers⟩ : SymbolTable).defined c = false ∧
      (addConstructors options ⟨⟨familyLayer name arity (done ++ [(c, type)]), table.layers⟩,
        locals⟩ name params rest).outcome = .ok staged := by
  rw [addConstructors] at h
  simp only [Verdict.bind_eq_ok_iff, Verdict.outcome_ofExcept, addConstructor_familyLayer] at h
  obtain ⟨u, htype, _, _, added, hadd, hrest⟩ := h
  split at hadd
  · cases hadd
  · next hnew =>
    cases hadd
    have hknown : type.Over (⟨familyLayer name arity done, table.layers⟩ : SymbolTable).Knows :=
      inferSort_known htype
    exact ⟨hknown, by simpa using hnew, hrest⟩

/-- Constructors that are accepted complete the layer of their inductive type, under distinct names
and with types that rest on the table and on the layer. -/
theorem addConstructors_leaves {name : String} {params : List String} {arity : Term}
    {done rest : Telescope} {staged : SymbolTable}
    (h : (addConstructors options ⟨⟨familyLayer name arity done, table.layers⟩, locals⟩ name params
      rest).outcome = .ok staged)
    (hdone : (name :: done.map Prod.fst).Nodup)
    (hover : ∀ p ∈ done, p.2.Over (table.KnowsWith (name :: (done ++ rest).map Prod.fst))) :
    staged.own = familyLayer name arity (done ++ rest) ∧
      (name :: (done ++ rest).map Prod.fst).Nodup ∧
      ∀ p ∈ done ++ rest, p.2.Over (table.KnowsWith (name :: (done ++ rest).map Prod.fst)) := by
  induction rest generalizing done with
  | nil =>
    cases h
    rw [List.append_nil] at hover ⊢
    exact ⟨rfl, hdone, hover⟩
  | cons p rest ih =>
    obtain ⟨c, type⟩ := p
    obtain ⟨htype, hnew, hrest⟩ := addConstructors_step h
    have hnodup := (List.nodup_cons.1 hdone).2
    -- the name is not one of the layer, since the layer would register it
    have hc : c ∉ name :: done.map Prod.fst := by
      rw [SymbolTable.defined_eq_false_iff, SymbolTable.registration_over,
        Registration.or_eq_none_iff] at hnew
      exact ((tidy_familyLayer name arity hnodup).listed c).1 hnew.1
    have hdone' : (name :: (done ++ [(c, type)]).map Prod.fst).Nodup := by
      rw [List.map_append, List.map_singleton, ← List.cons_append, List.nodup_append]
      refine ⟨hdone, List.pairwise_singleton _ _, fun a ha b hb heq => ?_⟩
      rw [heq, List.mem_singleton.1 hb] at ha
      exact hc ha
    have htype' : type.Over
        (table.KnowsWith (name :: (done ++ (c, type) :: rest).map Prod.fst)) := by
      refine htype.mono fun l hl => (SymbolTable.Knows.of_familyLayer hnodup hl).mono ?_
      intro n hn
      simp only [List.map_append, List.mem_cons, List.mem_append] at hn ⊢
      exact hn.imp_right .inl
    rw [List.append_cons] at hover htype' ⊢
    exact ih hrest hdone' (List.forall_mem_append.2 ⟨hover, List.forall_mem_singleton.2 htype'⟩)

/-! ## Any declaration -/

namespace Declaration

/-- What a declaration leaves that was staged over a table among local variables. -/
structure Leaves (options : Options) (table : SymbolTable) (locals : Telescope) (d : Declaration)
    (layer : Layer) : Prop where
  order : layer.order = d.provides
  tidy : layer.Tidy
  based : ∀ name, (layer.registration name).Over (table.KnowsWith d.provides)
  /-- A definition has the type that its body was judged to have. -/
  definition : ∀ name D, layer.definitions.get? name = some D → ∃ given,
    d = .definition name given D.body ∧
      (definitionType options ⟨table, locals⟩ D.body given).outcome = .ok D.type

/-- What a table accounts for is judged to be of a type that it accounts for. -/
theorem over_definitionType (ht : table.SelfContained) (hl : LocalsOver table.Knows locals)
    {given : Option Term} {body T : Term}
    (h : (definitionType options ⟨table, locals⟩ body given).outcome = .ok T) :
    body.Over table.Knows ∧ (∀ A, given = some A → A.Over table.Knows) ∧ T.Over table.Knows := by
  have hshared : SymbolTable.Shared table.Knows table table :=
    ⟨fun _ _ => rfl, fun name _ => ht.entries name, fun value => .inr (ht.literal value)⟩
  cases given with
  | none =>
    have hbody := infer_known h
    exact ⟨hbody, nofun, (hshared.infer hbody hl).value T h⟩
  | some A =>
    simp only [definitionType, Verdict.bind_eq_ok_iff] at h
    obtain ⟨u, hsort, _, hbody, hpure⟩ := h
    obtain rfl : A = T := Except.ok.inj hpure
    have hA : A.Over table.Knows := inferSort_known hsort
    exact ⟨check_known hbody, fun _ heq => Option.some.inj heq ▸ hA, hA⟩

/-- **A declaration that is staged leaves its names, over what the table accounts for.** -/
theorem leaves_of_stage (ht : table.SelfContained) (hl : LocalsOver table.Knows locals)
    {d : Declaration} {staged : SymbolTable}
    (h : (d.stage options ⟨table, locals⟩).outcome = .ok staged) :
    d.Leaves options table locals staged.own := by
  have hwith : ∀ {t : Term}, t.Over table.Knows → t.Over (table.KnowsWith d.provides) :=
    fun ht => ht.mono fun _ hl => hl.with _
  have hown : ∀ name ∈ d.provides, table.KnowsWith d.provides (.global name) :=
    fun name hname => .inr (.inl hname)
  cases d with
  | definition name given body =>
    rw [stage, Verdict.bind_eq_ok_iff] at h
    obtain ⟨⟨added, T⟩, hstage, hpure⟩ := h
    obtain rfl : added = staged := Except.ok.inj hpure
    obtain ⟨_, hT, hadd⟩ := stageDefinition_eq_ok_iff.1 hstage
    dsimp only at hT hadd
    obtain ⟨_, rfl⟩ := SymbolTable.register_eq_ok_iff.1 hadd
    obtain ⟨hbody, hgiven, hover⟩ := over_definitionType ht hl hT
    have hd : (Declaration.definition name given body).Over
        (table.KnowsWith (Declaration.definition name given body).provides) := by
      refine ⟨hown, List.forall_mem_append.2 ⟨fun A hA => ?_, ?_⟩⟩
      · exact hwith (hgiven A (Option.mem_toList.1 hA))
      · exact List.forall_mem_singleton.2 (hwith hbody)
    refine ⟨rfl, tidy_layer (d := .definition name given body) (List.pairwise_singleton _ _) T,
      over_layer hd fun _ _ _ _ => hwith hover, fun n D hD => ?_⟩
    obtain ⟨rfl, rfl⟩ : name = n ∧ (⟨T, body⟩ : Definition) = D := by
      simpa [NameMap.get?, NameMap.put, SymbolTable.fork, Layer.empty] using hD
    exact ⟨given, rfl, hT⟩
  | postulate name type =>
    rw [stage, stagePostulate, Verdict.bind_eq_ok_iff] at h
    obtain ⟨u, htype, hadd⟩ := h
    rw [Verdict.outcome_ofExcept] at hadd
    obtain ⟨_, rfl⟩ := SymbolTable.register_eq_ok_iff.1 hadd
    have htype : type.Over table.Knows := inferSort_known htype
    have hd : (Declaration.postulate name type).Over
        (table.KnowsWith (Declaration.postulate name type).provides) :=
      ⟨hown, List.forall_mem_singleton.2 (hwith htype)⟩
    refine ⟨rfl, tidy_layer (d := .postulate name type) (List.pairwise_singleton _ _) type,
      over_layer (T := type) hd fun _ _ _ heq => ?_, fun _ _ hD => ?_⟩
    · cases heq
    · cases hD
  | family name params sort constructors =>
    obtain ⟨u, v, added, hsort, hnew, harity, _, hadd, hcons⟩ := stageFamily_eq_ok_iff.1 h
    obtain rfl : ⟨familyLayer name _ [], table.layers⟩ = added :=
      Except.ok.inj ((addFamily_fork hnew _).symm.trans hadd)
    obtain ⟨hstaged, hnodup, hover⟩ :=
      addConstructors_leaves hcons (List.pairwise_singleton _ name) (List.forall_mem_nil _)
    have hnames : name :: ([] ++ polymorphicConstructors params constructors).map Prod.fst =
        (Declaration.family name params sort constructors).provides := by
      rw [List.nil_append, map_fst_polymorphicConstructors]
      rfl
    rw [hnames] at hnodup hover
    rw [List.nil_append] at hstaged hover
    have hlayer : staged.own = (Declaration.family name params sort constructors).layer .hole := by
      rw [hstaged, layer, arity, hsort]
    have hd : (Declaration.family name params sort constructors).Over
        (table.KnowsWith (Declaration.family name params sort constructors).provides) := by
      refine ⟨hown, List.forall_mem_cons.2 ⟨?_, fun t ht => ?_⟩⟩
      · rw [arity, hsort]
        exact hwith (inferSort_known harity)
      · obtain ⟨p, hp, rfl⟩ := List.mem_map.1 ht
        exact hover p hp
    rw [hlayer]
    refine ⟨order_layer _ _, tidy_layer hnodup _, over_layer hd fun _ _ _ heq => ?_,
      fun _ _ hD => ?_⟩
    · cases heq
    · cases hD

end Declaration
end ProofKernel
