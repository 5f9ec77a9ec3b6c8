import ProofKernel.Proofs.Session.Reachable
import ProofKernel.Proofs.Typing.Renaming

/-!
# What a session registers is closed

The terms that a table holds were accepted without local variables, so that they have no free
variables.

* `SymbolTable.LayersClosed` says so of the layers of a table, and asks a property of its
  definitions; `LayersClosed.stage` carries it over a declaration.
* `Session.Reachable.closed` holds of every session: all that is registered is closed, but for the
  types of definitions.  Where such a type was inferred, the name of a fixpoint may be left in it.
* `Session.Reachable.type_closed` says that nothing is left where only the types of hygienic
  definitions are inferred.
-/

set_option autoImplicit false
namespace ProofKernel

variable {options : Options} {P : Definition → Prop}

/-! ## Maps from names -/

namespace NameMap

variable {α : Type} {m other : NameMap α}

theorem mem_of_get? {name : String} {v : α} (h : m.get? name = some v) : (name, v) ∈ m := by
  induction m with
  | nil => cases h
  | cons p rest ih =>
    rw [get?] at h
    split at h
    · next heq =>
      cases h
      rw [← heq]
      exact List.mem_cons_self
    · exact List.mem_cons_of_mem _ (ih h)

theorem mem_put {name : String} {v : α} {p : String × α} (h : p ∈ m.put name v) :
    p = (name, v) ∨ p ∈ m := by
  induction m with
  | nil => exact .inl (List.mem_singleton.1 h)
  | cons q rest ih =>
    rw [put] at h
    split at h
    · next heq =>
      rcases List.mem_cons.1 h with rfl | h
      · exact .inl (by rw [heq])
      · exact .inr (List.mem_cons_of_mem _ h)
    · rcases List.mem_cons.1 h with rfl | h
      · exact .inr List.mem_cons_self
      · exact (ih h).imp_right (List.mem_cons_of_mem _)

theorem mem_merge {p : String × α} (h : p ∈ m.merge other) : p ∈ m ∨ p ∈ other := by
  induction other generalizing m with
  | nil => exact .inl h
  | cons q rest ih =>
    rcases ih (m := m.put q.1 q.2) h with hm | hrest
    · rcases mem_put hm with rfl | hm
      · exact .inr List.mem_cons_self
      · exact .inl hm
    · exact .inr (List.mem_cons_of_mem _ hrest)

end NameMap

/-! ## Layers -/

/-- What a layer holds is closed; of its definitions a property is asked. -/
structure Layer.Closed (P : Definition → Prop) (layer : Layer) : Prop where
  family : ∀ p ∈ layer.families, p.2.arity.freeVars = []
  constructor : ∀ p ∈ layer.constructors, p.2.type.freeVars = []
  definition : ∀ p ∈ layer.definitions, P p.2
  postulate : ∀ p ∈ layer.postulates, p.2.freeVars = []

namespace Layer.Closed

variable {layer above : Layer}

theorem empty : Layer.empty.Closed P :=
  ⟨nofun, nofun, nofun, nofun⟩

theorem merge (h : layer.Closed P) (ha : above.Closed P) : (layer.merge above).Closed P where
  family := fun p hp => (NameMap.mem_merge hp).elim (h.family p) (ha.family p)
  constructor := fun p hp => (NameMap.mem_merge hp).elim (h.constructor p) (ha.constructor p)
  definition := fun p hp => (NameMap.mem_merge hp).elim (h.definition p) (ha.definition p)
  postulate := fun p hp => (NameMap.mem_merge hp).elim (h.postulate p) (ha.postulate p)

end Layer.Closed

/-- Every layer of a table is closed. -/
def SymbolTable.LayersClosed (P : Definition → Prop) (table : SymbolTable) : Prop :=
  ∀ layer ∈ table.layers, layer.Closed P

namespace SymbolTable.LayersClosed

variable {table table' : SymbolTable} {name : String}

/-! ## What a table finds -/

/-- What is found in a table is found in one of its layers. -/
theorem mem_of_findSome? {α : Type} {entries : Layer → NameMap α} {v : α}
    (h : table.layers.findSome? (fun layer => (entries layer).get? name) = some v) :
    ∃ layer ∈ table.layers, (name, v) ∈ entries layer := by
  obtain ⟨layer, hlayer, hget⟩ := List.exists_of_findSome?_eq_some h
  exact ⟨layer, hlayer, NameMap.mem_of_get? hget⟩

theorem family? (h : table.LayersClosed P) {f : Family} (hf : table.family? name = some f) :
    f.arity.freeVars = [] := by
  obtain ⟨layer, hlayer, hmem⟩ := mem_of_findSome? hf
  exact (h layer hlayer).family _ hmem

theorem constructor? (h : table.LayersClosed P) {c : Constructor}
    (hc : table.constructor? name = some c) : c.type.freeVars = [] := by
  obtain ⟨layer, hlayer, hmem⟩ := mem_of_findSome? hc
  exact (h layer hlayer).constructor _ hmem

theorem definition? (h : table.LayersClosed P) {d : Definition}
    (hd : table.definition? name = some d) : P d := by
  obtain ⟨layer, hlayer, hmem⟩ := mem_of_findSome? hd
  exact (h layer hlayer).definition _ hmem

theorem postulate? (h : table.LayersClosed P) {type : Term}
    (hp : table.postulate? name = some type) : type.freeVars = [] := by
  obtain ⟨layer, hlayer, hmem⟩ := mem_of_findSome? hp
  exact (h layer hlayer).postulate _ hmem

theorem mono {Q : Definition → Prop} (h : table.LayersClosed P) (hPQ : ∀ d, P d → Q d) :
    table.LayersClosed Q := fun layer hlayer =>
  { h layer hlayer with definition := fun p hp => hPQ p.2 ((h layer hlayer).definition p hp) }

/-- A registered type is closed when those of definitions are. -/
theorem type? (h : table.LayersClosed P) (hP : ∀ d, P d → d.type.freeVars = []) {A : Term}
    (hA : table.type? name = some A) : A.freeVars = [] := by
  simp only [SymbolTable.type?, Option.or_eq_some_iff, Option.map_eq_some_iff] at hA
  rcases hA with ⟨f, hf, rfl⟩ | ⟨_, ⟨c, hc, rfl⟩ | ⟨_, ⟨d, hd, rfl⟩ | ⟨_, hp⟩⟩⟩
  · exact h.family? hf
  · exact h.constructor? hc
  · exact hP d (h.definition? hd)
  · exact h.postulate? hp

/-- A table is closed when the types that it knows are. -/
theorem closed (h : table.LayersClosed fun d => d.body.freeVars = [])
    (htype : ∀ name A, table.type? name = some A → A.freeVars = []) : table.Closed where
  type := htype
  constructor := fun _ _ hc => h.constructor? hc
  body := fun _ _ hd => h.definition? hd

/-! ## Registration -/

theorem empty : SymbolTable.empty.LayersClosed P := by
  intro layer hlayer
  rw [List.mem_singleton.1 hlayer]
  exact .empty

theorem fork (h : table.LayersClosed P) : table.fork.LayersClosed P :=
  List.forall_mem_cons.2 ⟨.empty, h⟩

/-- A name may be registered by any change that keeps the own layer closed. -/
theorem register {change : Layer → Layer} (h : table.LayersClosed P)
    (hchange : (change table.own).Closed P) (hreg : table.register name change = .ok table') :
    table'.LayersClosed P := by
  obtain ⟨_, rfl⟩ := register_eq_ok_iff.1 hreg
  refine List.forall_mem_cons.2 ⟨?_, fun layer hlayer => h layer (List.mem_cons_of_mem _ hlayer)⟩
  exact ⟨hchange.family, hchange.constructor, hchange.definition, hchange.postulate⟩

theorem own (h : table.LayersClosed P) : table.own.Closed P :=
  h table.own List.mem_cons_self

theorem addFamily {arity : Term} (h : table.LayersClosed P) (ha : arity.freeVars = [])
    (hadd : table.addFamily name arity = .ok table') : table'.LayersClosed P := by
  refine h.register { h.own with family := fun p hp => ?_ } hadd
  rcases NameMap.mem_put hp with rfl | hp
  · exact ha
  · exact h.own.family p hp

theorem addDefinition {type body : Term} (h : table.LayersClosed P) (hP : P ⟨type, body⟩)
    (hadd : table.addDefinition name type body = .ok table') : table'.LayersClosed P := by
  refine h.register { h.own with definition := fun p hp => ?_ } hadd
  rcases NameMap.mem_put hp with rfl | hp
  · exact hP
  · exact h.own.definition p hp

theorem addPostulate {type : Term} (h : table.LayersClosed P) (ht : type.freeVars = [])
    (hadd : table.addPostulate name type = .ok table') : table'.LayersClosed P := by
  refine h.register { h.own with postulate := fun p hp => ?_ } hadd
  rcases NameMap.mem_put hp with rfl | hp
  · exact ht
  · exact h.own.postulate p hp

/-- A constructor also changes the inductive type it belongs to, but not its arity. -/
theorem addConstructor {family : String} {type : Term} (h : table.LayersClosed P)
    (ht : type.freeVars = []) (hadd : table.addConstructor name family type = .ok table') :
    table'.LayersClosed P := by
  unfold SymbolTable.addConstructor at hadd
  split at hadd
  · cases hadd
  split at hadd
  · cases hadd
  · next f hf =>
    refine h.register { h.own with family := fun p hp => ?_, constructor := fun p hp => ?_ } hadd
    · rcases NameMap.mem_put hp with rfl | hp
      · have harity : f.arity.freeVars = [] := h.family? hf
        exact harity
      · exact h.own.family p hp
    · rcases NameMap.mem_put hp with rfl | hp
      · exact ht
      · exact h.own.constructor p hp

theorem publish {above : Layer} (h : table.LayersClosed P) (ha : above.Closed P)
    (hpub : table.publish above = .ok table') : table'.LayersClosed P := by
  obtain ⟨_, rfl⟩ := publish_eq_ok_iff.1 hpub
  exact List.forall_mem_cons.2
    ⟨h.own.merge ha, fun layer hlayer => h layer (List.mem_cons_of_mem _ hlayer)⟩

theorem addHint (h : table.LayersClosed P) (hhint : table.addHint name = .ok table') :
    table'.LayersClosed P := by
  unfold SymbolTable.addHint at hhint
  split at hhint
  · cases hhint
  split at hhint
  · cases hhint
    exact h
  · cases hhint
    refine List.forall_mem_cons.2 ⟨?_, fun layer hl => h layer (List.mem_cons_of_mem _ hl)⟩
    exact ⟨h.own.family, h.own.constructor, h.own.definition, h.own.postulate⟩

/-! ## Declarations -/

theorem addConstructors {family : String} {params : List String} {constructors : Telescope}
    (h : table.LayersClosed P)
    (hadd : (addConstructors options (.ofTable table) family params constructors).outcome =
      .ok table') : table'.LayersClosed P := by
  induction constructors generalizing table with
  | nil =>
    cases hadd
    exact h
  | cons c rest ih =>
    rw [ProofKernel.addConstructors, Verdict.bind_eq_ok_iff] at hadd
    obtain ⟨u, hu, hadd⟩ := hadd
    rw [Verdict.bind_eq_ok_iff] at hadd
    obtain ⟨_, _, hadd⟩ := hadd
    rw [Verdict.bind_eq_ok_iff] at hadd
    obtain ⟨added, hone, hadd⟩ := hadd
    exact ih (h.addConstructor (closed_of_inferSort hu) hone) hadd

/-- **What is staged for a declaration is closed**, if the definition it may be is as it should. -/
theorem stage {d : Declaration} {staged : SymbolTable} (h : table.LayersClosed P)
    (hdef : ∀ name type body T, d = .definition name type body →
      (definitionType options (.ofTable table) body type).outcome = .ok T → P ⟨T, body⟩)
    (hstage : (d.stage options (.ofTable table)).outcome = .ok staged) :
    staged.LayersClosed P := by
  cases d with
  | definition name type body =>
    rw [Declaration.stage, Verdict.bind_eq_ok_iff] at hstage
    obtain ⟨⟨added, T⟩, hone, hstage⟩ := hstage
    cases hstage
    obtain ⟨_, hT, hadd⟩ := stageDefinition_eq_ok_iff.1 hone
    exact h.fork.addDefinition (hdef name type body T rfl hT) hadd
  | postulate name type =>
    rw [Declaration.stage, stagePostulate, Verdict.bind_eq_ok_iff] at hstage
    obtain ⟨u, hu, hadd⟩ := hstage
    exact h.fork.addPostulate (closed_of_inferSort hu) hadd
  | family name params sort constructors =>
    obtain ⟨u, v, added, _, _, hv, _, hadd, hcons⟩ := stageFamily_eq_ok_iff.1 hstage
    exact (h.fork.addFamily (closed_of_inferSort hv) hadd).addConstructors hcons

/-- Closed layers are an invariant of sessions whose definitions are as they should. -/
theorem invariant {declared : Declaration → Prop}
    (hdef : ∀ name type body table T, declared (.definition name type body) →
      table.LayersClosed P → (definitionType options (.ofTable table) body type).outcome = .ok T →
      P ⟨T, body⟩) :
    SymbolTable.Invariant options declared (SymbolTable.LayersClosed P) where
  empty := empty
  declare := by
    intro d table table' hd h hpub
    rw [Declaration.publish, Verdict.bind_eq_ok_iff] at hpub
    obtain ⟨staged, hstage, hpub⟩ := hpub
    refine h.publish (h.stage ?_ hstage).own hpub
    rintro name type body T rfl hT
    exact hdef name type body table T hd h hT
  hint := fun _ _ _ h hhint => h.addHint hhint

end SymbolTable.LayersClosed

/-! ## Sessions -/

/-- Whether no type is left to be inferred but that of a hygienic term. -/
def Declaration.hygienic : Declaration → Bool
  | .definition _ none body => body.hygienic [Term.placeholder]
  | _ => true

/-- Definitions with closed types and bodies. -/
def Definition.Closed (d : Definition) : Prop :=
  d.type.freeVars = [] ∧ d.body.freeVars = []

variable {table : SymbolTable} {body T : Term}

/-- A definition has a closed body, whatever its type is. -/
theorem closed_of_definitionType {type : Option Term}
    (h : (definitionType options (.ofTable table) body type).outcome = .ok T) :
    body.freeVars = [] := by
  cases type with
  | none => exact closed_of_infer h
  | some type =>
    simp only [definitionType, Verdict.bind_eq_ok_iff] at h
    obtain ⟨_, _, _, hcheck, _⟩ := h
    exact closed_of_check hcheck

/-- A type that is given is closed, and so is the one of a hygienic body. -/
theorem definitionType_closed {name : String} {type : Option Term} (hclosed : table.Closed)
    (hy : (Declaration.definition name type body).hygienic = true)
    (h : (definitionType options (.ofTable table) body type).outcome = .ok T) :
    T.freeVars = [] := by
  cases type with
  | none =>
    rw [definitionType] at h
    rcases (@infer_matches_of_nameless_eq options table body body hclosed hy hy rfl).cases with
      ⟨A, _, hA, _, _, hfree, _⟩ | ⟨e, _, he, _⟩
    · rw [h] at hA
      cases hA
      exact hfree
    · rw [h] at he
      cases he
  | some type =>
    simp only [definitionType, Verdict.bind_eq_ok_iff] at h
    obtain ⟨_, htype, _, _, hpure⟩ := h
    cases hpure
    exact closed_of_inferSort htype

namespace Session.Reachable

variable {withPrelude : Bool} {allowed : Statement → Prop} {s : Session}

theorem layersClosed (h : Reachable options withPrelude allowed s) :
    s.table.LayersClosed fun d => d.body.freeVars = [] := by
  have hinv : SymbolTable.Invariant options (fun _ => True)
      (SymbolTable.LayersClosed fun d => d.body.freeVars = []) :=
    SymbolTable.LayersClosed.invariant fun _ _ _ _ _ _ _ hT => closed_of_definitionType hT
  exact h.invariant hinv (fun _ _ => trivial) fun _ _ => trivial

/-- What a session unfolds is closed. -/
theorem bodiesClosed (h : Reachable options withPrelude allowed s) : s.table.BodiesClosed :=
  fun _ _ hd => h.layersClosed.definition? hd

/-- **What a session registers is closed, if the types that its table knows are.** -/
theorem closed (h : Reachable options withPrelude allowed s)
    (htype : ∀ name A, s.table.type? name = some A → A.freeVars = []) : s.table.Closed :=
  h.layersClosed.closed htype

/-- **These types are closed where none is inferred but that of a hygienic term.** -/
theorem type_closed (h : Reachable options withPrelude allowed s)
    (hallowed : ∀ d, allowed (.declare d) → d.hygienic = true) {name : String} {A : Term}
    (hA : s.table.type? name = some A) : A.freeVars = [] := by
  have hclosed : ∀ {table : SymbolTable}, table.LayersClosed Definition.Closed → table.Closed :=
    fun h => (h.mono fun _ hd => hd.2).closed fun _ _ => h.type? fun _ hd => hd.1
  have hinv : SymbolTable.Invariant options (·.hygienic = true)
      (SymbolTable.LayersClosed Definition.Closed) :=
    SymbolTable.LayersClosed.invariant fun _ _ _ _ _ hy h hT =>
      ⟨definitionType_closed (hclosed h) hy hT, closed_of_definitionType hT⟩
  exact (h.invariant hinv (by decide) hallowed).type? (fun _ hd => hd.1) hA

end Session.Reachable

end ProofKernel
