import ProofKernel.Proofs.Declaration.Staging
import ProofKernel.Proofs.Support.Tables

/-!
# What is known after a publication

* `Layer.registration` is what a layer knows of a name; a table knows what its layers know, the
  nearest first (`SymbolTable.registration_over`).
* `Layer.Tidy` says that a layer lists exactly the names that it registers, each once.
* `SymbolTable.registration_publish`: publishing a tidy layer gives the table that has it on top.
-/

set_option autoImplicit false
namespace ProofKernel

/-! ## Maps from names -/

namespace NameMap

variable {α : Type}

/-- A value of a new name goes to the end. -/
theorem put_of_get?_eq_none {m : NameMap α} {name : String} (h : m.get? name = none) (v : α) :
    m.put name v = m ++ [(name, v)] := by
  induction m with
  | nil => rfl
  | cons p rest ih =>
    rw [get?] at h
    split at h
    · cases h
    · next hne => rw [put, if_neg hne, ih h, List.cons_append]

theorem get?_eq_none_iff {m : NameMap α} {name : String} :
    m.get? name = none ↔ name ∉ m.names := by
  induction m with
  | nil => simp [names]
  | cons p rest ih =>
    rw [get?, names, List.map_cons, List.mem_cons, not_or, ← names, ← ih]
    split
    · next heq => simp [heq]
    · next hne => simp [Ne.symm hne]

/-- Merging a map whose names are distinct gives its values, and else those that were there. -/
theorem get?_merge {m other : NameMap α} (h : other.names.Nodup) (name : String) :
    (m.merge other).get? name = (other.get? name).or (m.get? name) := by
  induction other generalizing m with
  | nil => rfl
  | cons p rest ih =>
    obtain ⟨hnew, hrest⟩ := List.nodup_cons.1 h
    have hmerge : (m.merge (p :: rest)).get? name = ((m.put p.1 p.2).merge rest).get? name := rfl
    rw [hmerge, ih hrest, get?_put, get?]
    split
    · next heq => rw [← heq, get?_eq_none_iff.2 hnew, Option.none_or, Option.some_or]
    · rfl

end NameMap

/-! ## Registrations of layers -/

namespace Registration

/-- What the first one says, and what the second one does where it says nothing. -/
def or (r s : Registration) : Registration :=
  ⟨r.family.or s.family, r.constructor.or s.constructor, r.definition.or s.definition,
    r.postulate.or s.postulate⟩

@[simp] theorem none_or (r : Registration) : none.or r = r := rfl

@[simp] theorem or_none (r : Registration) : r.or none = r := by
  simp [or, none]

theorem or_assoc (r s t : Registration) : (r.or s).or t = r.or (s.or t) := by
  simp [or, Option.or_assoc]

theorem or_eq_none_iff {r s : Registration} : r.or s = none ↔ r = none ∧ s = none := by
  obtain ⟨_, _, _, _⟩ := r
  obtain ⟨_, _, _, _⟩ := s
  simp [or, none]
  grind

theorem Over.or {S : Leaf → Prop} {r s : Registration} (hr : r.Over S) (hs : s.Over S) :
    (r.or s).Over S where
  family := fun f hf => (Option.or_eq_some_iff.1 hf).elim (hr.family f) fun h => hs.family f h.2
  constructor := fun c hc =>
    (Option.or_eq_some_iff.1 hc).elim (hr.constructor c) fun h => hs.constructor c h.2
  definition := fun d hd =>
    (Option.or_eq_some_iff.1 hd).elim (hr.definition d) fun h => hs.definition d h.2
  postulate := fun A hA =>
    (Option.or_eq_some_iff.1 hA).elim (hr.postulate A) fun h => hs.postulate A h.2

end Registration

/-- What a layer knows of a name. -/
def Layer.registration (layer : Layer) (name : String) : Registration :=
  ⟨layer.families.get? name, layer.constructors.get? name, layer.definitions.get? name,
    layer.postulates.get? name⟩

/-- A layer lists the names that it registers, and each of its maps holds a name once. -/
structure Layer.Tidy (layer : Layer) : Prop where
  listed : ∀ name, layer.registration name = .none ↔ name ∉ layer.order
  families : layer.families.names.Nodup
  constructors : layer.constructors.names.Nodup
  definitions : layer.definitions.names.Nodup
  postulates : layer.postulates.names.Nodup

/-- Each of the maps of a layer holds a name once. -/
structure Layer.Distinct (layer : Layer) : Prop where
  families : layer.families.names.Nodup
  constructors : layer.constructors.names.Nodup
  definitions : layer.definitions.names.Nodup
  postulates : layer.postulates.names.Nodup

theorem Layer.Tidy.distinct {layer : Layer} (h : layer.Tidy) : layer.Distinct :=
  ⟨h.families, h.constructors, h.definitions, h.postulates⟩

theorem Layer.Distinct.registration_merge {above : Layer} (h : above.Distinct) (below : Layer)
    (name : String) : (below.merge above).registration name =
      (above.registration name).or (below.registration name) := by
  unfold Layer.registration Layer.merge
  rw [NameMap.get?_merge h.families, NameMap.get?_merge h.constructors,
    NameMap.get?_merge h.definitions, NameMap.get?_merge h.postulates]
  rfl

theorem Layer.registration_merge {below above : Layer} (h : above.Tidy) (name : String) :
    (below.merge above).registration name =
      (above.registration name).or (below.registration name) :=
  h.distinct.registration_merge below name

namespace SymbolTable

variable {table table' : SymbolTable} {above : Layer} {name : String}

/-- A layer over a table comes first. -/
theorem registration_over (layer : Layer) (table : SymbolTable) (name : String) :
    (⟨layer, table.layers⟩ : SymbolTable).registration name =
      (layer.registration name).or (table.registration name) := by
  have hfind : ∀ {α : Type} (entries : Layer → NameMap α),
      (layer :: table.layers).findSome? (fun l => (entries l).get? name) =
        ((entries layer).get? name).or
          (table.layers.findSome? fun l => (entries l).get? name) := by
    intro α entries
    rw [List.findSome?_cons]
    cases (entries layer).get? name <;> rfl
  unfold registration family? constructor? definition? postulate?
  rw [show (⟨layer, table.layers⟩ : SymbolTable).layers = layer :: table.layers from rfl,
    hfind, hfind, hfind, hfind]
  rfl

theorem registration_eq (table : SymbolTable) (name : String) :
    table.registration name = (table.own.registration name).or
      ((⟨.empty, table.below⟩ : SymbolTable).registration name) := by
  obtain ⟨own, below⟩ := table
  cases below with
  | nil =>
    rw [show (⟨Layer.empty, []⟩ : SymbolTable).registration name = .none from rfl,
      Registration.or_none]
    unfold registration Layer.registration family? constructor? definition? postulate? layers
    simp only [List.findSome?_cons, List.findSome?_nil]
    congr 1
    all_goals
      split <;> simp_all
  | cons layer rest => exact registration_over own ⟨layer, rest⟩ name

/-- **A table knows after a publication what it knew with the layer on top of it.** -/
theorem registration_publish (h : above.Tidy) (hpub : table.publish above = .ok table')
    (name : String) :
    table'.registration name = (above.registration name).or (table.registration name) := by
  obtain ⟨_, rfl⟩ := publish_eq_ok_iff.1 hpub
  rw [registration_eq, Layer.registration_merge h, Registration.or_assoc, ← registration_eq]

/-- The names of a published layer are known as it registers them, and the others as before. -/
theorem registration_publish_eq (h : above.Tidy) (hpub : table.publish above = .ok table')
    (name : String) :
    table'.registration name =
      if name ∈ above.order then above.registration name else table.registration name := by
  rw [registration_publish h hpub]
  split
  · next hmem =>
    have hnew := (publish_eq_ok_iff.1 hpub).1 name hmem
    rw [defined_eq_false_iff.1 hnew, Registration.or_none]
  · next hmem => rw [(h.listed name).2 hmem, Registration.none_or]

theorem names_publish (hpub : table.publish above = .ok table') :
    table'.names = table.names ++ above.order := by
  obtain ⟨_, rfl⟩ := publish_eq_ok_iff.1 hpub
  unfold names layers
  rw [List.reverse_cons, List.reverse_cons, List.flatMap_append, List.flatMap_append,
    List.flatMap_singleton, List.flatMap_singleton, Layer.merge, List.append_assoc]

/-- A hint changes neither the names nor what is known of them. -/
theorem alike_addHint (h : table.addHint name = .ok table') : table'.Alike table := by
  unfold addHint at h
  split at h
  · cases h
  split at h
  · cases h
    exact fun _ => rfl
  · cases h
    exact fun _ => rfl

theorem names_addHint (h : table.addHint name = .ok table') : table'.names = table.names := by
  unfold addHint at h
  split at h
  · cases h
  split at h
  · cases h
    rfl
  · cases h
    simp [names, layers]

end SymbolTable
end ProofKernel
