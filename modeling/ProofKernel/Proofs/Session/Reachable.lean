import ProofKernel.Session
import ProofKernel.Proofs.Declaration.Staging

/-!
# Reachable sessions

The sessions that a list of statements leads to, and what their tables look like.

* `Session.Reachable` starts a session and runs statements, whether they are accepted or not.
* `SymbolTable.Invariant` is a property of tables that declarations and hints keep; every table a
  session can have has it (`Session.Reachable.invariant`).
* `SymbolTable.Regular` is one of them (`Session.Reachable.regular`): an inductive type ends in a
  universe after its parameters, and it is not at the same time a definition.

A declaration reaches the table by being checked on a fork and published from there, so that the
invariant is shown for the layer of the fork (`Layer.Fits`) and carried through the publication.
-/

set_option autoImplicit false
namespace ProofKernel

/-! ## Sessions -/

/-- Whether a statement declares a constant without a body. -/
def Statement.isPostulate : Statement → Bool
  | .declare (.postulate ..) => true
  | _ => false

/-- The sessions that are reached from a fresh one by statements that are allowed. -/
inductive Session.Reachable (options : Options) (withPrelude : Bool) (allowed : Statement → Prop) :
    Session → Prop
  | start {persistent : Bool} {s : Session}
      (h : (Session.start options withPrelude persistent).value = .ok s) :
      Reachable options withPrelude allowed s
  | run {s : Session} (statement : Statement) (h : Reachable options withPrelude allowed s)
      (ha : allowed statement) : Reachable options withPrelude allowed (s.run statement).1

/-! ## The invariant -/

/-- An inductive type is a product over its parameters that ends in a universe. -/
def Family.EndsInSort (f : Family) : Prop :=
  f.params = f.arity.piChain.1.length ∧ ∃ u, f.arity.piChain.2 = .sort u

/-- Without parameters, an inductive type is of a universe. -/
theorem Family.EndsInSort.arity_eq {f : Family} (h : f.EndsInSort) (hp : f.params = 0) :
    ∃ u, f.arity = .sort u := by
  obtain ⟨hlen, u, hu⟩ := h
  have hnil : f.arity.piChain.1 = [] := List.length_eq_zero_iff.1 (hlen.symm.trans hp)
  refine ⟨u, ?_⟩
  rw [← Term.pis_piChain f.arity, hnil, hu]
  rfl

/-- What every table of a session satisfies. -/
structure SymbolTable.Regular (table : SymbolTable) : Prop where
  endsInSort : ∀ name f, table.family? name = some f → f.EndsInSort
  family_or_definition : ∀ name, (table.family? name).isSome → table.definition? name = none

/-- The inductive types and the definitions of a layer are listed in it, and no name is both. -/
structure Layer.Fits (layer : Layer) : Prop where
  family : ∀ name f, (name, f) ∈ layer.families → f.EndsInSort ∧ name ∈ layer.order
  definition : ∀ name d, (name, d) ∈ layer.definitions →
    name ∈ layer.order ∧ ∀ f, (name, f) ∉ layer.families

/-! ## Publication -/

/-- A merged map finds a pair of the second map, or what the first map finds. -/
theorem NameMap.get?_merge_cases {α : Type} (m other : NameMap α) (name : String) :
    (∃ v, (name, v) ∈ other ∧ (m.merge other).get? name = some v) ∨
      (m.merge other).get? name = m.get? name := by
  induction other generalizing m with
  | nil => exact .inr rfl
  | cons p rest ih =>
    rcases ih (m.put p.1 p.2) with ⟨v, hv, hget⟩ | hget
    · exact .inl ⟨v, List.mem_cons_of_mem _ hv, hget⟩
    · rw [get?_put] at hget
      split at hget
      · next heq =>
        refine .inl ⟨p.2, ?_, hget⟩
        rw [← heq]
        exact List.mem_cons_self
      · exact .inr hget

namespace SymbolTable

variable {table table' : SymbolTable} {above : Layer} {name : String}

theorem family?_eq (table : SymbolTable) (name : String) :
    table.family? name = (table.own.families.get? name).or
      (table.below.findSome? (·.families.get? name)) := by
  unfold family? layers
  rw [List.findSome?_cons]
  cases table.own.families.get? name <;> rfl

theorem definition?_eq (table : SymbolTable) (name : String) :
    table.definition? name = (table.own.definitions.get? name).or
      (table.below.findSome? (·.definitions.get? name)) := by
  unfold definition? layers
  rw [List.findSome?_cons]
  cases table.own.definitions.get? name <;> rfl

/-- A name that is not registered is neither an inductive type nor a definition. -/
theorem family?_eq_none_of_not_defined (h : table.defined name = false) :
    table.family? name = none ∧ table.definition? name = none := by
  unfold defined type? at h
  cases hf : table.family? name <;> cases hd : table.definition? name <;> simp_all

theorem family?_of_publish {f : Family} (hpub : table.publish above = .ok table')
    (h : table'.family? name = some f) :
    (name, f) ∈ above.families ∨ table.family? name = some f := by
  obtain ⟨_, rfl⟩ := publish_eq_ok_iff.1 hpub
  rw [family?_eq, Layer.merge] at h
  rcases NameMap.get?_merge_cases table.own.families above.families name with ⟨v, hv, hget⟩ | hget
  · rw [hget, Option.some_or, Option.some.injEq] at h
    exact .inl (h ▸ hv)
  · rw [hget, ← family?_eq] at h
    exact .inr h

theorem definition?_of_publish {d : Definition} (hpub : table.publish above = .ok table')
    (h : table'.definition? name = some d) :
    (name, d) ∈ above.definitions ∨ table.definition? name = some d := by
  obtain ⟨_, rfl⟩ := publish_eq_ok_iff.1 hpub
  rw [definition?_eq, Layer.merge] at h
  rcases NameMap.get?_merge_cases table.own.definitions above.definitions name with
    ⟨v, hv, hget⟩ | hget
  · rw [hget, Option.some_or, Option.some.injEq] at h
    exact .inl (h ▸ hv)
  · rw [hget, ← definition?_eq] at h
    exact .inr h

/-- **Publication keeps a table regular.** -/
theorem Regular.publish (h : table.Regular) (hfit : above.Fits)
    (hpub : table.publish above = .ok table') : table'.Regular := by
  have hnew := (publish_eq_ok_iff.1 hpub).1
  constructor
  · intro name f hf
    rcases family?_of_publish hpub hf with habove | hbelow
    · exact (hfit.family name f habove).1
    · exact h.endsInSort name f hbelow
  · intro name hf
    obtain ⟨f, hf⟩ := Option.isSome_iff_exists.1 hf
    rw [Option.eq_none_iff_forall_ne_some]
    intro d hd
    -- one of the two is new, and the other one is new as well or is not there
    rcases family?_of_publish hpub hf with hf | hf <;>
      rcases definition?_of_publish hpub hd with hd | hd
    · exact (hfit.definition name d hd).2 f hf
    · have := (family?_eq_none_of_not_defined (hnew name (hfit.family name f hf).2)).2
      rw [hd] at this
      cases this
    · have := (family?_eq_none_of_not_defined (hnew name (hfit.definition name d hd).1)).1
      rw [hf] at this
      cases this
    · have := h.family_or_definition name (by rw [hf]; rfl)
      rw [hd] at this
      cases this

end SymbolTable

/-! ## What a declaration registers -/

/-- The layer holds one inductive type and no definition. -/
structure Layer.HoldsFamily (layer : Layer) (name : String) : Prop where
  family : ∃ f, layer.families = [(name, f)] ∧ f.EndsInSort
  definitions : layer.definitions = []
  listed : name ∈ layer.order

theorem Layer.HoldsFamily.fits {layer : Layer} {name : String} (h : layer.HoldsFamily name) :
    layer.Fits := by
  obtain ⟨f, hf, hs⟩ := h.family
  constructor
  · intro other g hg
    rw [hf, List.mem_singleton] at hg
    cases hg
    exact ⟨hs, h.listed⟩
  · intro other d hd
    rw [h.definitions] at hd
    cases hd

namespace SymbolTable

variable {table table' : SymbolTable} {name : String}

theorem fits_addDefinition {type body : Term}
    (h : table.fork.addDefinition name type body = .ok table') : table'.own.Fits := by
  obtain ⟨_, rfl⟩ := register_eq_ok_iff.1 h
  constructor
  · intro _ _ hf
    cases hf
  · intro other d hd
    simp only [fork, Layer.empty, NameMap.put, List.mem_singleton, Prod.mk.injEq] at hd
    rw [hd.1]
    refine ⟨List.mem_singleton.2 rfl, fun f hf => ?_⟩
    cases hf

theorem fits_addPostulate {type : Term} (h : table.fork.addPostulate name type = .ok table') :
    table'.own.Fits := by
  obtain ⟨_, rfl⟩ := register_eq_ok_iff.1 h
  constructor
  · intro _ _ hf
    cases hf
  · intro _ _ hd
    cases hd

theorem holdsFamily_addFamily {arity : Term} {u : Universe} (hs : arity.piChain.2 = .sort u)
    (h : table.fork.addFamily name arity = .ok table') : table'.own.HoldsFamily name := by
  obtain ⟨_, rfl⟩ := register_eq_ok_iff.1 h
  exact ⟨⟨_, rfl, rfl, u, hs⟩, rfl, List.mem_singleton.2 rfl⟩

theorem holdsFamily_addConstructor {family : String} {type : Term}
    (hown : table.own.HoldsFamily family)
    (h : table.addConstructor name family type = .ok table') : table'.own.HoldsFamily family := by
  obtain ⟨f, hf, hs⟩ := hown.family
  have hfam : table.family? family = some f := by
    rw [family?_eq, hf]
    simp [NameMap.get?]
  unfold addConstructor at h
  rw [hfam] at h
  split at h
  · cases h
  · obtain ⟨_, rfl⟩ := register_eq_ok_iff.1 h
    refine ⟨⟨{ f with constructors := f.constructors ++ [name] }, ?_, hs⟩, hown.definitions,
      List.mem_append_left _ hown.listed⟩
    simp [hf, NameMap.put]

end SymbolTable

theorem Term.piChain_pis (binders : Telescope) (t : Term) :
    (pis binders t).piChain = (binders ++ t.piChain.1, t.piChain.2) := by
  induction binders with
  | nil => rfl
  | cons b rest ih =>
    rw [pis] at ih
    rw [pis, List.foldr_cons, piChain, ih]
    rfl

theorem holdsFamily_addConstructors {options : Options} {family : String} {params : List String}
    {constructors : Telescope} {Γ : Context} {table : SymbolTable}
    (hown : Γ.table.own.HoldsFamily family)
    (h : (addConstructors options Γ family params constructors).outcome = .ok table) :
    table.own.HoldsFamily family := by
  induction constructors generalizing Γ with
  | nil =>
    cases h
    exact hown
  | cons c rest ih =>
    rw [addConstructors, Verdict.bind_eq_ok_iff] at h
    obtain ⟨_, _, h⟩ := h
    rw [Verdict.bind_eq_ok_iff] at h
    obtain ⟨_, _, h⟩ := h
    rw [Verdict.bind_eq_ok_iff] at h
    obtain ⟨added, hadd, h⟩ := h
    rw [Verdict.outcome_ofExcept] at hadd
    exact ih (Γ := { Γ with table := added }) (SymbolTable.holdsFamily_addConstructor hown hadd) h

/-- **What a declaration registers fits a layer of its own.** -/
theorem Declaration.fits_stage {options : Options} {Γ : Context} {d : Declaration}
    {staged : SymbolTable} (h : (d.stage options Γ).outcome = .ok staged) : staged.own.Fits := by
  cases d with
  | definition name type body =>
    rw [stage, Verdict.bind_eq_ok_iff] at h
    obtain ⟨⟨table, type⟩, hstage, h⟩ := h
    cases h
    exact SymbolTable.fits_addDefinition (stageDefinition_eq_ok_iff.1 hstage).2.2
  | postulate name type =>
    rw [stage, stagePostulate, Verdict.bind_eq_ok_iff] at h
    obtain ⟨_, _, h⟩ := h
    exact SymbolTable.fits_addPostulate h
  | family name params sort constructors =>
    obtain ⟨u, _, table, _, _, _, _, hadd, hcons⟩ := stageFamily_eq_ok_iff.1 h
    have hsort := fun binders => congrArg Prod.snd (Term.piChain_pis binders (.sort u))
    have hfamily := SymbolTable.holdsFamily_addFamily (hsort _) hadd
    exact (holdsFamily_addConstructors hfamily hcons).fits

/-! ## Every table of a session -/

/-- A statement that is accepted publishes a declaration, adds a hint, or leaves the table. -/
theorem Statement.run_eq_ok {options : Options} {table table' : SymbolTable} {statement : Statement}
    {output : String} (h : (statement.run options table).outcome = .ok (table', output)) :
    (∃ d, statement = .declare d ∧ (d.publish options (.ofTable table)).outcome = .ok table' ∧
      output = "") ∨
    (∃ name, statement = .hint name ∧ table.addHint name = .ok table' ∧ output = "") ∨
    (table' = table ∧ ((∃ t, statement = .check t) ∨ ∃ t, statement = .eval t)) := by
  cases statement with
  | declare d =>
    rw [Statement.run, Verdict.bind_eq_ok_iff] at h
    obtain ⟨published, hpub, h⟩ := h
    cases h
    exact .inl ⟨d, rfl, hpub, rfl⟩
  | check t =>
    rw [Statement.run, Verdict.bind_eq_ok_iff] at h
    obtain ⟨_, _, h⟩ := h
    cases h
    exact .inr (.inr ⟨rfl, .inl ⟨t, rfl⟩⟩)
  | eval t =>
    simp only [Statement.run, Verdict.bind_eq_ok_iff] at h
    obtain ⟨_, _, _, _, h⟩ := h
    cases h
    exact .inr (.inr ⟨rfl, .inr ⟨t, rfl⟩⟩)
  | hint name =>
    rw [Statement.run, Verdict.bind_eq_ok_iff] at h
    obtain ⟨hinted, hhint, h⟩ := h
    cases h
    exact .inr (.inl ⟨name, rfl, hhint, rfl⟩)

/-- A property of tables that the empty one has and that is kept by declarations of some kind and by
hints. -/
structure SymbolTable.Invariant (options : Options) (declared : Declaration → Prop)
    (I : SymbolTable → Prop) : Prop where
  empty : I .empty
  declare : ∀ d table table', declared d → I table →
    (d.publish options (.ofTable table)).outcome = .ok table' → I table'
  hint : ∀ name table table', I table → table.addHint name = .ok table' → I table'

namespace SymbolTable.Invariant

variable {options : Options} {declared : Declaration → Prop} {I : SymbolTable → Prop}
  {table table' : SymbolTable}

theorem publishAll (hI : Invariant options declared I) {ds : List Declaration}
    (hds : ∀ d ∈ ds, declared d) (h : I table) :
    I (publishAll options (.ofTable table) ds).1 := by
  induction ds generalizing table with
  | nil => exact h
  | cons d rest ih =>
    rw [List.forall_mem_cons] at hds
    rw [ProofKernel.publishAll]
    dsimp only
    split
    · exact h
    · next table' hpub => exact ih hds.2 (hI.declare d table table' hds.1 h hpub)

theorem initialTable {withPrelude : Bool} (hI : Invariant options declared I)
    (hprelude : ∀ d ∈ Prelude.declarations, declared d)
    (h : (initialTable options withPrelude).outcome = .ok table) : I table := by
  rw [ProofKernel.initialTable] at h
  split at h
  · cases hload : (loadPrelude options (.ofTable .empty)).2.outcome with
    | error e => simp [hload, Except.map] at h
    | ok _ =>
      simp only [hload, Except.map, Except.ok.injEq] at h
      rw [← h]
      exact hI.publishAll hprelude hI.empty
  · cases h
    exact hI.empty

/-- A statement keeps an invariant of the declarations it may hold. -/
theorem run {statement : Statement} {output : String} (hI : Invariant options declared I)
    (hd : ∀ d, statement = .declare d → declared d) (h : I table)
    (hrun : (statement.run options table).outcome = .ok (table', output)) : I table' := by
  rcases Statement.run_eq_ok hrun with ⟨d, rfl, hpub, _⟩ | ⟨name, rfl, hhint, _⟩ | ⟨rfl, _⟩
  · exact hI.declare d table table' (hd d rfl) h hpub
  · exact hI.hint name table table' h hhint
  · exact h

end SymbolTable.Invariant

namespace Session

variable {options : Options} {withPrelude : Bool} {allowed : Statement → Prop} {s : Session}

/-- A session starts with the initial table, if that can be made. -/
theorem start_eq_ok_iff {persistent : Bool} :
    (Session.start options withPrelude persistent).value = .ok s ↔
      ∃ table, (initialTable options withPrelude).outcome = .ok table ∧
        s = ⟨options, withPrelude, table⟩ := by
  unfold Session.start
  dsimp only
  split
  · next htable => simp [htable]
  · next table htable => simp [htable, eq_comm]

theorem options_run (statement : Statement) : (s.run statement).1.options = s.options := by
  unfold run
  dsimp only
  split <;> rfl

/-- A session keeps the settings it was started with. -/
theorem Reachable.options_eq (h : Reachable options withPrelude allowed s) :
    s.options = options := by
  induction h with
  | start h =>
    obtain ⟨table, _, rfl⟩ := start_eq_ok_iff.1 h
    rfl
  | run statement _ _ ih => rw [options_run, ih]

/-- **A property of tables holds along every session**, if it holds at the start and every statement
that is accepted keeps it. -/
theorem Reachable.table {I : SymbolTable → Prop} (h : Reachable options withPrelude allowed s)
    (hstart : ∀ table, (initialTable options withPrelude).outcome = .ok table → I table)
    (hrun : ∀ statement table table' output, allowed statement → I table →
      (statement.run options table).outcome = .ok (table', output) → I table') : I s.table := by
  induction h with
  | start h =>
    obtain ⟨table, htable, rfl⟩ := start_eq_ok_iff.1 h
    exact hstart table htable
  | @run s statement hreach hstatement ih =>
    unfold Session.run
    dsimp only
    split
    · next table output hok =>
      exact hrun statement s.table table output hstatement ih (hreach.options_eq ▸ hok)
    · exact ih

/-- **Every table a session can have satisfies the invariants of the declarations it may make.** -/
theorem Reachable.invariant {declared : Declaration → Prop} {I : SymbolTable → Prop}
    (h : Reachable options withPrelude allowed s) (hI : SymbolTable.Invariant options declared I)
    (hprelude : ∀ d ∈ Prelude.declarations, declared d)
    (hallowed : ∀ d, allowed (.declare d) → declared d) : I s.table := by
  refine h.table (fun _ htable => hI.initialTable hprelude htable)
    fun statement table table' output hstatement hi hrun => hI.run ?_ hi hrun
  rintro d rfl
  exact hallowed d hstatement

end Session

/-! ## Every table is regular -/

theorem SymbolTable.regular_empty : SymbolTable.empty.Regular :=
  ⟨nofun, nofun⟩

theorem SymbolTable.Regular.declare {options : Options} {Γ : Context} {table' : SymbolTable}
    {d : Declaration} (h : Γ.table.Regular)
    (hpub : (d.publish options Γ).outcome = .ok table') : table'.Regular := by
  rw [Declaration.publish, Verdict.bind_eq_ok_iff] at hpub
  obtain ⟨staged, hstage, hpub⟩ := hpub
  exact h.publish (Declaration.fits_stage hstage) hpub

/-- A hint changes neither inductive types nor definitions. -/
theorem SymbolTable.Regular.addHint {table table' : SymbolTable} {name : String}
    (h : table.Regular) (hhint : table.addHint name = .ok table') : table'.Regular := by
  unfold SymbolTable.addHint at hhint
  split at hhint
  · cases hhint
  split at hhint
  · cases hhint
    exact h
  · cases hhint
    exact ⟨fun name f hf => h.endsInSort name f hf, fun name hf => h.family_or_definition name hf⟩

/-- **Every table a session can have is regular.** -/
theorem Session.Reachable.regular {options : Options} {withPrelude : Bool}
    {allowed : Statement → Prop} {s : Session} (h : Reachable options withPrelude allowed s) :
    s.table.Regular := by
  have hregular : SymbolTable.Invariant options (fun _ => True) SymbolTable.Regular :=
    ⟨SymbolTable.regular_empty, fun d table table' _ hr hpub => hr.declare hpub,
      fun name table table' hr hhint => hr.addHint hhint⟩
  exact h.invariant hregular (fun _ _ => trivial) (fun _ _ => trivial)

end ProofKernel
