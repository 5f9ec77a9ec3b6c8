import ProofKernel.Proofs.Session.Reachable
import ProofKernel.Proofs.Support.SelfContained

/-!
# Names are registered before they are used

The names of a table are listed in the order in which they were registered.  What is registered for
a name mentions only names that stand before it.

* `SymbolTable.before` lists the names before a name; `SymbolTable.Grounded` is the statement for a
  table.
* `SymbolTable.Grounded.publish` carries it over a declaration.
* `initialTable_grounded`: it holds of the table with the prelude.  The types of literals are in it,
  and these are all that inference brings in without looking them up.
-/

set_option autoImplicit false
namespace ProofKernel

variable {options : Options} {table table' : SymbolTable}

/-! ## The terms of a registration -/

namespace Registration

variable {S : Leaf → Prop} {r : Registration}

/-- The types and the body that are registered for a name. -/
def terms (r : Registration) : List Term :=
  r.family.toList.map (·.arity) ++ r.constructor.toList.map (·.type) ++
    r.definition.toList.flatMap (fun d => [d.type, d.body]) ++ r.postulate.toList

/-- The names that a registration is about: the constructors of an inductive type, and the inductive
type of a constructor. -/
def links (r : Registration) : List String :=
  r.family.toList.flatMap (·.constructors) ++ r.constructor.toList.map (·.family)

theorem Over.of_terms (ht : ∀ t ∈ r.terms, t.Over S) (hl : ∀ name ∈ r.links, S (.global name)) :
    r.Over S where
  family := fun f hf => ⟨ht _ (by simp [terms, hf]), fun c hc => hl c (by simp [links, hf, hc])⟩
  constructor := fun c hc => ⟨ht _ (by simp [terms, hc]), hl _ (by simp [links, hc])⟩
  definition := fun d hd => ⟨ht _ (by simp [terms, hd]), ht _ (by simp [terms, hd])⟩
  postulate := fun A hA => ht _ (by simp [terms, hA])

end Registration

namespace Declaration

variable {T t : Term} {name : String}

/-- Whether no type is left to be inferred. -/
def typeGiven : Declaration → Bool
  | definition _ none _ => false
  | _ => true

/-- The terms that a declaration registers. -/
theorem mem_terms_layer {d : Declaration} (h : t ∈ ((d.layer T).registration name).terms) :
    (∃ type body, d = definition name type body ∧ (t = T ∨ t = body)) ∨ d = postulate name t ∨
      (∃ params sort constructors, d = family name params sort constructors ∧
        t = arity params sort) ∨
      ∃ other params sort constructors, d = family other params sort constructors ∧
        (name, t) ∈ polymorphicConstructors params constructors := by
  cases d with
  | definition given type body =>
    simp only [Registration.terms, layer, Layer.registration, Layer.empty, get?_singleton,
      NameMap.get?] at h
    split at h
    · next heq =>
      rw [heq]
      exact .inl ⟨type, body, rfl, by simpa using h⟩
    · simp at h
  | postulate given type =>
    simp only [Registration.terms, layer, Layer.registration, Layer.empty, get?_singleton,
      NameMap.get?] at h
    split at h
    · next heq =>
      have ht : t = type := by simpa using h
      rw [heq, ht]
      exact .inr (.inl rfl)
    · simp at h
  | family given params sort constructors =>
    refine .inr (.inr ?_)
    simp only [Registration.terms, layer, Layer.registration, familyLayer, Layer.empty,
      get?_singleton, List.mem_append, List.mem_map, Option.mem_toList] at h
    rcases h with ((⟨f, hf, rfl⟩ | ⟨c, hc, rfl⟩) | h) | h
    · split at hf
      · next heq =>
        cases hf
        rw [heq]
        exact .inl ⟨params, sort, constructors, rfl, rfl⟩
      · cases hf
    · obtain ⟨p, hp, heq⟩ := List.mem_map.1 (NameMap.mem_of_get? hc)
      cases heq
      exact .inr ⟨given, params, sort, constructors, rfl, hp⟩
    · cases h
    · cases h

/-- The names that the registrations of a declaration are about are among its own. -/
theorem links_layer {d : Declaration} {other : String}
    (h : other ∈ ((d.layer T).registration name).links) : other ∈ d.provides := by
  cases d with
  | definition | postulate => cases h
  | family given params sort constructors =>
    simp only [Registration.links, layer, Layer.registration, familyLayer, Layer.empty,
      get?_singleton, List.mem_append, List.mem_flatMap, List.mem_map, Option.mem_toList] at h
    rcases h with ⟨f, hf, hother⟩ | ⟨c, hc, rfl⟩
    · split at hf
      · cases hf
        rw [map_fst_polymorphicConstructors] at hother
        exact List.mem_cons_of_mem _ hother
      · cases hf
    · obtain ⟨p, hp, heq⟩ := List.mem_map.1 (NameMap.mem_of_get? hc)
      cases heq
      exact List.mem_cons_self

/-- **Whatever an accepted declaration registers for a name** mentions what the table knows, and the
names of the declaration that stand before it. -/
theorem known_before {d : Declaration} {staged : SymbolTable}
    (h : (d.stage options (.ofTable table)).outcome = .ok staged)
    (hT : ∀ given type body, d = definition given type body → T.Over table.Knows)
    (ht : t ∈ ((d.layer T).registration name).terms) :
    t.Over (table.KnowsWith (d.provides.takeWhile (· != name))) := by
  have hknown : ∀ {t : Term}, t.Over table.Knows →
      t.Over (table.KnowsWith (d.provides.takeWhile (· != name))) :=
    fun ht => ht.mono fun _ hl => hl.with _
  rcases mem_terms_layer ht with ⟨type, body, rfl, rfl | rfl⟩ | rfl |
    ⟨params, sort, constructors, rfl, rfl⟩ | ⟨other, params, sort, constructors, rfl, hmem⟩
  · exact hknown (hT _ _ _ rfl)
  · exact hknown (known_of_stage_definition h).1
  · exact hknown (known_of_stage_postulate h)
  · exact hknown (known_of_stage_family h).1
  · obtain ⟨before, after, hsplit⟩ := List.append_of_mem hmem
    -- the names before the constructor are the inductive type and the constructors before it
    have hprovides : (family other params sort constructors).provides =
        (other :: before.map Prod.fst) ++ name :: after.map Prod.fst := by
      rw [provides, ← map_fst_polymorphicConstructors params, hsplit, List.map_append]
      rfl
    have hnodup := (stage_eq_ok h).2.1
    rw [hprovides] at hnodup ⊢
    have hother : ∀ n ∈ other :: before.map Prod.fst, (n != name) = true := fun n hn =>
      bne_iff_ne.2 ((List.nodup_append.1 hnodup).2.2 n hn name List.mem_cons_self)
    rw [List.takeWhile_append_of_pos hother]
    refine ((known_of_stage_family h).2 before name t after hsplit).mono fun _ hl => ?_
    exact hl.mono fun n hn => List.mem_append_left _ hn

end Declaration

/-! ## Grounded tables -/

namespace SymbolTable

/-- The names that were registered before a name. -/
def before (table : SymbolTable) (name : String) : List String :=
  table.names.takeWhile (· != name)

/-- The names before a name stay there when others are added. -/
theorem mem_before_of_append {names : List String} (h : table'.names = table.names ++ names)
    {name other : String} (hother : other ∈ table.before name) : other ∈ table'.before name := by
  unfold before at hother ⊢
  rw [h, List.takeWhile_append]
  split
  · exact List.mem_append_left _ (List.takeWhile_subset _ hother)
  · exact hother

/-- A hole, a binder type left out, or a name from a list. -/
def Among (names : List String) : Leaf → Prop
  | .hole => True
  | .global name => name = Term.placeholder ∨ name ∈ names

/-- A table lists what it registers, once, and what it registers for a name mentions only names that
stand before it. -/
structure Grounded (table : SymbolTable) : Prop where
  nodup : table.names.Nodup
  listed : ∀ name, name ∈ table.names ↔ table.defined name = true
  terms : ∀ name, ∀ t ∈ (table.registration name).terms, t.Over (Among (table.before name))
  links : ∀ name, ∀ other ∈ (table.registration name).links, other ∈ table.names

namespace Grounded

theorem empty : SymbolTable.empty.Grounded :=
  ⟨.nil, fun _ => ⟨nofun, nofun⟩, nofun, nofun⟩

/-- Only the names of a table and what it knows of them matter. -/
theorem congr (h : table.Grounded) (hnames : table'.names = table.names)
    (halike : table'.Alike table) : table'.Grounded where
  nodup := hnames ▸ h.nodup
  listed := fun name => by rw [hnames, h.listed, halike.defined]
  terms := fun name => by
    rw [halike name, before, hnames]
    exact h.terms name
  links := fun name => by
    rw [halike name, hnames]
    exact h.links name

theorem entries (h : table.Grounded) (name : String) :
    (table.registration name).Over table.Knows := by
  refine .of_terms (fun t ht => (h.terms name t ht).mono fun l hl => ?_) fun other hother => ?_
  · cases l with
    | hole => trivial
    | global other =>
      exact hl.imp_right fun hmem => (h.listed other).1 (List.takeWhile_subset _ hmem)
  · exact .inr ((h.listed other).1 (h.links name other hother))

/-- A grounded table that has the types of literals agrees with itself on what it knows. -/
theorem shared (h : table.Grounded)
    (hliteral : ∀ value : Literal, table.defined value.typeName = true) :
    Shared table.Knows table table :=
  ⟨fun _ _ => rfl, fun name _ => h.entries name, fun value => .inr (hliteral value)⟩

/-- The type of an accepted definition rests on what the table knows. -/
theorem over_type (h : table.Grounded) {d : Declaration} {T : Term}
    (hliteral : d.typeGiven = false → ∀ value : Literal, table.defined value.typeName = true)
    (hT : d.Types options table T) (name : String) (type : Option Term) (body : Term)
    (hd : d = .definition name type body) : T.Over table.Knows := by
  have hT := hT name type body hd
  cases type with
  | none =>
    rw [definitionType] at hT
    exact ((h.shared (hliteral (hd ▸ rfl))).infer (infer_known hT) .nil).value T hT
  | some A =>
    simp only [definitionType, Verdict.bind_eq_ok_iff] at hT
    obtain ⟨u, hA, _, _, hpure⟩ := hT
    cases hpure
    exact inferSort_known hA

/-- **A declaration keeps a table grounded.** -/
theorem publish (h : table.Grounded) {d : Declaration}
    (hliteral : d.typeGiven = false → ∀ value : Literal, table.defined value.typeName = true)
    (hpub : (d.publish options (.ofTable table)).outcome = .ok table') : table'.Grounded := by
  obtain ⟨T, hT, hstage, hnames, _, hreg⟩ := Declaration.publish_eq_ok hpub
  obtain ⟨_, hnodup, hnew⟩ := Declaration.stage_eq_ok hstage
  have hfresh : ∀ name ∈ d.provides, name ∉ table.names := by
    intro name hname hmem
    rw [h.listed, hnew name hname] at hmem
    cases hmem
  refine ⟨?_, fun name => ?_, fun name t ht => ?_, fun name other hother => ?_⟩
  · rw [hnames, List.nodup_append]
    refine ⟨h.nodup, hnodup, fun a ha b hb heq => ?_⟩
    exact hfresh b hb (heq ▸ ha)
  · have htidy := (Declaration.tidy_layer hnodup T).listed name
    rw [Declaration.order_layer] at htidy
    rw [hnames, List.mem_append, ← Bool.not_eq_false, defined_eq_false_iff, hreg]
    split
    · next hmem => exact ⟨fun _ hnone => htidy.1 hnone hmem, fun _ => .inr hmem⟩
    · next hmem =>
      rw [← defined_eq_false_iff, Bool.not_eq_false, ← h.listed]
      exact or_iff_left hmem
  · rw [hreg] at ht
    split at ht
    · next hmem =>
      -- the names before it are those of the table and those of the declaration before it
      have hbefore : table'.before name = table.names ++ d.provides.takeWhile (· != name) := by
        rw [before, hnames]
        refine List.takeWhile_append_of_pos fun n hn => bne_iff_ne.2 ?_
        rintro rfl
        exact hfresh n hmem hn
      rw [hbefore]
      refine (Declaration.known_before hstage (h.over_type hliteral hT) ht).mono fun l hl => ?_
      cases l with
      | hole => trivial
      | global n =>
        refine hl.imp_right fun hn => ?_
        rw [List.mem_append]
        exact hn.elim .inr fun hn => .inl ((h.listed n).2 hn.1)
    · refine (h.terms name t ht).mono fun l hl => ?_
      cases l with
      | hole => trivial
      | global n => exact hl.imp_right (mem_before_of_append hnames)
  · rw [hreg] at hother
    rw [hnames, List.mem_append]
    split at hother
    · exact .inr (Declaration.links_layer hother)
    · exact .inl (h.links name other hother)

theorem addHint (h : table.Grounded) {name : String} (hhint : table.addHint name = .ok table') :
    table'.Grounded :=
  h.congr (names_addHint hhint) (alike_addHint hhint)

end Grounded
end SymbolTable

/-! ## The prelude -/

theorem names_publishAll {ds : List Declaration}
    (h : (publishAll options (.ofTable table) ds).2.outcome = .ok ()) :
    (publishAll options (.ofTable table) ds).1.names = table.names ++ ds.flatMap (·.provides) := by
  induction ds generalizing table with
  | nil => exact (List.append_nil _).symm
  | cons d rest ih =>
    rw [publishAll] at h ⊢
    dsimp only at h ⊢
    cases hpub : (d.publish options (.ofTable table)).outcome with
    | error e =>
      rw [hpub] at h
      cases h
    | ok table' =>
      rw [hpub] at h
      obtain ⟨_, _, _, hnames, _⟩ := Declaration.publish_eq_ok hpub
      have hrest := @ih table' h
      rw [List.flatMap_cons, ← List.append_assoc, ← hnames]
      exact hrest

/-- The names of the table that a session with the prelude starts from. -/
theorem names_initialTable (h : (initialTable options true).outcome = .ok table) :
    table.names = Prelude.declarations.flatMap (·.provides) := by
  rw [initialTable, if_pos rfl] at h
  obtain ⟨_, hload, rfl⟩ := Verdict.map_eq_ok_iff.1 h
  have hload : (publishAll options (.ofTable .empty) Prelude.declarations).2.outcome = .ok () :=
    hload
  exact names_publishAll hload

/-- **The table that a session with the prelude starts from is grounded**, and has the types of
literals. -/
theorem initialTable_grounded (h : (initialTable options true).outcome = .ok table) :
    table.Grounded ∧ ∀ value : Literal, table.defined value.typeName = true := by
  have hinv : SymbolTable.Invariant options (·.typeGiven = true) SymbolTable.Grounded :=
    ⟨.empty, fun d table table' hd hg hpub => hg.publish (fun hnone => absurd hd (by simp [hnone]))
      hpub, fun _ _ _ hg hhint => hg.addHint hhint⟩
  have hg := hinv.initialTable (by decide) h
  refine ⟨hg, fun value => (hg.listed _).1 ?_⟩
  rw [names_initialTable h]
  have htypes : ∀ name ∈ ["Int", "Float", "Text"],
      name ∈ Prelude.declarations.flatMap (·.provides) := by decide
  refine htypes _ ?_
  cases value <;> simp [Literal.typeName]

end ProofKernel
