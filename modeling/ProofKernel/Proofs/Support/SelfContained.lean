import ProofKernel.Proofs.Support.Accepted
import ProofKernel.Proofs.Support.Staging

/-!
# Tables that account for themselves

A table is self-contained if whatever it registers mentions only names that it registers.  Two
self-contained tables that agree where both know a name judge alike whatever both account for.

* `SymbolTable.Common` is what two tables account for, together with names that are to come.
* `Declaration.known_of_judge`: an accepted declaration rests on what the table accounts for and on
  its own names.
* `SymbolTable.SelfContained.shared` makes of two such tables a set on which they agree.
-/

set_option autoImplicit false
namespace ProofKernel

variable {options : Options} {table table' : SymbolTable} {names : List String}

/-! ## What two tables account for -/

namespace SymbolTable

/-- A hole, a binder type left out, a name from a list, or a name that both tables register. -/
def Common (table table' : SymbolTable) (names : List String) : Leaf → Prop
  | .hole => True
  | .global name => name = Term.placeholder ∨ name ∈ names ∨
      table.defined name = true ∧ table'.defined name = true

/-- What a table accounts for with names that are to come. -/
abbrev KnowsWith (table : SymbolTable) (names : List String) : Leaf → Prop :=
  table.Common table names

theorem Knows.with {l : Leaf} (h : table.Knows l) (names : List String) :
    table.KnowsWith names l := by
  cases l with
  | hole => trivial
  | global name => exact h.imp_right fun hdefined => .inr ⟨hdefined, hdefined⟩

theorem Common.mono {names' : List String} {l : Leaf} (h : table.Common table' names l)
    (hnames : ∀ name ∈ names, name ∈ names') : table.Common table' names' l := by
  cases l with
  | hole => trivial
  | global name => exact h.imp_right (Or.imp_left (hnames name))

/-- What a table accounts for once an inductive type is on top of it. -/
theorem Knows.of_familyLayer {family : String} {arity : Term} {done : Telescope}
    (hdone : (done.map Prod.fst).Nodup) {l : Leaf}
    (h : (⟨familyLayer family arity done, table.layers⟩ : SymbolTable).Knows l) :
    table.KnowsWith (family :: done.map Prod.fst) l := by
  cases l with
  | hole => trivial
  | global name =>
    refine h.imp_right fun hdefined => ?_
    by_cases hname : name ∈ family :: done.map Prod.fst
    · exact .inl hname
    · have hnone := ((tidy_familyLayer family arity hdone).listed name).2 hname
      have htable : table.defined name = true := by
        rw [← Bool.not_eq_false, defined_eq_false_iff] at hdefined ⊢
        rwa [registration_over, hnone, Registration.none_or] at hdefined
      exact .inr ⟨htable, htable⟩

end SymbolTable

/-! ## Accepted declarations -/

/-- The type of a constructor that is accepted rests on the table, the inductive type and the
constructors before it. -/
theorem addConstructors_known {family : String} {params : List String} {arity : Term}
    {done rest : Telescope} {staged : SymbolTable}
    (h : (addConstructors options (.ofTable ⟨familyLayer family arity done, table.layers⟩) family
      params rest).outcome = .ok staged)
    (hnodup : ((done ++ rest).map Prod.fst).Nodup) {before after : Telescope} {c : String}
    {type : Term} (hrest : rest = before ++ (c, type) :: after) :
    type.Over (table.KnowsWith (family :: (done ++ before).map Prod.fst)) := by
  induction before generalizing done rest with
  | nil =>
    subst hrest
    obtain ⟨⟨u, hu⟩, _⟩ := addConstructors_cons_eq_ok h
    have hdone : (done.map Prod.fst).Nodup := by
      rw [List.map_append] at hnodup
      exact (List.nodup_append.1 hnodup).1
    rw [List.append_nil]
    exact (inferSort_known hu).mono fun _ => SymbolTable.Knows.of_familyLayer hdone
  | cons p before ih =>
    subst hrest
    obtain ⟨_, _, h⟩ := addConstructors_cons_eq_ok h
    rw [List.cons_append, List.append_cons] at hnodup
    have htype := ih h hnodup rfl
    rwa [List.append_assoc, List.singleton_append] at htype

/-- The terms of an inductive type that is accepted. -/
theorem Declaration.known_of_stage_family {name : String} {params constructors : Telescope}
    {sort : Option Term} {staged : SymbolTable}
    (h : (stage options (.ofTable table) (family name params sort constructors)).outcome =
      .ok staged) :
    (arity params sort).Over table.Knows ∧
      ∀ before c type after,
        polymorphicConstructors params constructors = before ++ (c, type) :: after →
        type.Over (table.KnowsWith (name :: before.map Prod.fst)) := by
  have hnodup := (stage_eq_ok h).2.1
  obtain ⟨u, v, added, hsort, hnew, harity, _, hadd, hcons⟩ := stageFamily_eq_ok_iff.1 h
  obtain rfl : ⟨familyLayer name _ [], table.layers⟩ = added :=
    Except.ok.inj ((addFamily_fork hnew _).symm.trans hadd)
  constructor
  · rw [arity, hsort]
    exact inferSort_known harity
  · intro before c type after hsplit
    refine addConstructors_known hcons ?_ hsplit
    rw [List.nil_append, map_fst_polymorphicConstructors]
    exact (List.nodup_cons.1 hnodup).2

/-- The terms of a definition that is accepted. -/
theorem Declaration.known_of_stage_definition {name : String} {type : Option Term} {body : Term}
    {staged : SymbolTable}
    (h : (stage options (.ofTable table) (definition name type body)).outcome = .ok staged) :
    body.Over table.Knows ∧ ∀ A, type = some A → A.Over table.Knows := by
  rw [stage_definition] at h
  split at h
  · cases h
  obtain ⟨T, hT, _⟩ := Verdict.map_eq_ok_iff.1 h
  cases type with
  | none => exact ⟨infer_known hT, nofun⟩
  | some A =>
    simp only [definitionType, Verdict.bind_eq_ok_iff] at hT
    obtain ⟨u, hA, _, hbody, _⟩ := hT
    refine ⟨check_known hbody, ?_⟩
    rintro _ ⟨⟩
    exact inferSort_known hA

/-- The type of a constant that is accepted. -/
theorem Declaration.known_of_stage_postulate {name : String} {type : Term} {staged : SymbolTable}
    (h : (stage options (.ofTable table) (postulate name type)).outcome = .ok staged) :
    type.Over table.Knows := by
  rw [stage_postulate name type type] at h
  cases hsort : (inferSort options (.ofTable table) type).outcome with
  | error e => rw [hsort] at h; cases h
  | ok u => exact inferSort_known hsort

/-- **An accepted declaration rests on what the table accounts for and on its own names.** -/
theorem Declaration.known_of_judge {d : Declaration} {layer : Layer}
    (h : d.judge options table = .ok layer) : d.Over (table.KnowsWith d.provides) := by
  obtain ⟨staged, hstage, _⟩ := Verdict.map_eq_ok_iff.1 h
  refine ⟨fun name hname => .inr (.inl hname), fun t ht => ?_⟩
  have hknown : ∀ {t : Term}, t.Over table.Knows → t.Over (table.KnowsWith d.provides) :=
    fun ht => ht.mono fun _ hl => hl.with _
  cases d with
  | definition name type body =>
    obtain ⟨hbody, htype⟩ := known_of_stage_definition hstage
    rcases List.mem_append.1 ht with ht | ht
    · exact hknown (htype t (Option.mem_toList.1 ht))
    · rw [List.mem_singleton.1 ht]
      exact hknown hbody
  | postulate name type =>
    rw [List.mem_singleton.1 ht]
    exact hknown (known_of_stage_postulate hstage)
  | family name params sort constructors =>
    obtain ⟨harity, hcons⟩ := known_of_stage_family hstage
    rcases List.mem_cons.1 ht with rfl | ht
    · exact hknown harity
    · obtain ⟨⟨c, type⟩, hmem, rfl⟩ := List.mem_map.1 ht
      obtain ⟨before, after, hsplit⟩ := List.append_of_mem hmem
      refine (hcons before c type after hsplit).mono fun _ hl => hl.mono fun n hn => ?_
      refine List.mem_cons.2 ((List.mem_cons.1 hn).imp_right fun hn => ?_)
      rw [← map_fst_polymorphicConstructors params, hsplit, List.map_append]
      exact List.mem_append_left _ hn

/-! ## Self-contained tables -/

namespace SymbolTable

/-- A table registers every name that it mentions, the types of literals included, and does not
register the name of a binder type left out. -/
structure SelfContained (table : SymbolTable) : Prop where
  entries : ∀ name, (table.registration name).Over table.Knows
  literal : ∀ value : Literal, table.defined value.typeName = true
  placeholder : table.defined Term.placeholder = false

/-- Whatever a table registers is registered alike by another one. -/
def Extends (table table' : SymbolTable) : Prop :=
  ∀ name, table.defined name = true → table'.registration name = table.registration name

/-- Two tables agree on the names that both register. -/
def Consistent (table table' : SymbolTable) : Prop :=
  ∀ name, table.defined name = true → table'.defined name = true →
    table.registration name = table'.registration name

namespace Extends

variable {table'' : SymbolTable}

theorem refl (table : SymbolTable) : table.Extends table := fun _ _ => rfl

theorem defined (h : table.Extends table') {name : String} (hname : table.defined name = true) :
    table'.defined name = true := by
  rw [← Bool.not_eq_false, defined_eq_false_iff, h name hname, ← defined_eq_false_iff, hname]
  exact Bool.noConfusion

theorem trans (h : table.Extends table') (h' : table'.Extends table'') :
    table.Extends table'' :=
  fun name hname => (h' name (h.defined hname)).trans (h name hname)

/-- Two tables that a third one extends are consistent. -/
theorem consistent (h : table.Extends table'') (h' : table'.Extends table'') :
    table.Consistent table' :=
  fun name hname hname' => (h name hname).symm.trans (h' name hname')

theorem knows (h : table.Extends table') {l : Leaf} (hl : table.Knows l) : table'.Knows l := by
  cases l with
  | hole => trivial
  | global name => exact hl.imp_right h.defined

end Extends

/-- **Self-contained tables agree on what both account for**, with names that both do not know. -/
theorem SelfContained.shared (h : table.SelfContained) (h' : table'.SelfContained)
    (hagree : table.Consistent table')
    (hnew : ∀ name ∈ names, table.defined name = false ∧ table'.defined name = false) :
    Shared (table.Common table' names) table table' := by
  have hnone : ∀ name, name = Term.placeholder ∨ name ∈ names →
      table.registration name = .none ∧ table'.registration name = .none := by
    rintro name (rfl | hname)
    · exact ⟨defined_eq_false_iff.1 h.placeholder, defined_eq_false_iff.1 h'.placeholder⟩
    · exact (hnew name hname).imp defined_eq_false_iff.1 defined_eq_false_iff.1
  refine ⟨fun name hname => ?_, fun name hname => ?_, fun value => ?_⟩
  · rcases or_assoc.2 hname with hname | ⟨hname, hname'⟩
    · rw [(hnone name hname).1, (hnone name hname).2]
    · exact hagree name hname hname'
  · rcases or_assoc.2 hname with hname | ⟨hname, hname'⟩
    · rw [(hnone name hname).1]
      exact Registration.over_none
    · -- both tables register what is mentioned
      have hover := h.entries name
      have hover' := hagree name hname hname' ▸ h'.entries name
      have hboth : ∀ l, table.Knows l → table'.Knows l → table.Common table' names l := by
        rintro (⟨other⟩ | _) hl hl'
        · rcases hl with hl | hl
          · exact .inl hl
          · exact hl'.imp_right fun hl' => .inr ⟨hl, hl'⟩
        · trivial
      exact hover.and hover' hboth
  · exact .inr (.inr ⟨h.literal value, h'.literal value⟩)

end SymbolTable
end ProofKernel
