import ProofKernel.Proofs.Declaration.Layer

/-!
# Sound layers

What a layer of a forest keeps with respect to those below it.  It may copy an inductive type of a
table below it without listing it, and those below may have changed since.

* `Layer.keys` are the keys of its four maps, `Registration.Single` says that a name is a key of at
  most one of them.
* `Layer.Grows` is what stays known when layers change, `Layer.Sound` what a layer keeps.
* `Layer.Sound.grows` and `Layer.Sound.publish`: it survives whatever is added below, and a
  publication.
-/

set_option autoImplicit false
namespace ProofKernel

variable {name : String}

/-! ## Keys -/

namespace NameMap

variable {α : Type} {m other : NameMap α}

theorem nodup_names_put (h : m.names.Nodup) (name : String) (v : α) :
    (m.put name v).names.Nodup := by
  induction m with
  | nil => exact List.pairwise_singleton _ _
  | cons p rest ih =>
    obtain ⟨hp, hrest⟩ := List.nodup_cons.1 h
    rw [put]
    split
    · exact h
    · next hne =>
      refine List.nodup_cons.2 ⟨?_, ih hrest⟩
      rw [← names, ← get?_eq_none_iff, get?_put, if_neg (Ne.symm hne), get?_eq_none_iff]
      exact hp

theorem nodup_names_merge (h : m.names.Nodup) : (m.merge other).names.Nodup := by
  induction other generalizing m with
  | nil => exact h
  | cons p rest ih => exact ih (nodup_names_put h p.1 p.2)

theorem mem_names : name ∈ m.names ↔ m.get? name ≠ none := by
  rw [Ne, get?_eq_none_iff, Decidable.not_not]

end NameMap

/-- At most one of the four kinds of entries is there. -/
def Registration.Single (r : Registration) : Prop :=
  r.family.isSome.toNat + r.constructor.isSome.toNat + r.definition.isSome.toNat +
    r.postulate.isSome.toNat ≤ 1

theorem Registration.Single.none : Registration.none.Single :=
  Nat.zero_le 1

theorem Layer.Distinct.merge {below above : Layer} (h : below.Distinct) :
    (below.merge above).Distinct :=
  ⟨NameMap.nodup_names_merge h.families, NameMap.nodup_names_merge h.constructors,
    NameMap.nodup_names_merge h.definitions, NameMap.nodup_names_merge h.postulates⟩

/-- The keys of the four maps of a layer. -/
def Layer.keys (layer : Layer) : List String :=
  layer.families.names ++ layer.constructors.names ++ layer.definitions.names ++
    layer.postulates.names

theorem Layer.mem_keys {layer : Layer} : name ∈ layer.keys ↔ layer.registration name ≠ .none := by
  simp only [keys, List.mem_append, NameMap.mem_names, registration, Registration.none, ne_eq,
    Registration.mk.injEq]
  grind

/-- A name is a key once, if it is a key of at most one map. -/
theorem Layer.Distinct.nodup_keys {layer : Layer} (h : layer.Distinct)
    (hsingle : ∀ name, (layer.registration name).Single) : layer.keys.Nodup := by
  simp only [Registration.Single, Layer.registration] at hsingle
  -- two maps with a key in common would count it twice
  unfold keys
  simp only [List.nodup_append, h.families, h.constructors, h.definitions, h.postulates,
    List.mem_append, NameMap.mem_names, Option.ne_none_iff_isSome, true_and]
  refine ⟨⟨?_, ?_⟩, ?_⟩
  · rintro a ha _ hb rfl
    have := hsingle a
    simp only [ha, hb, Bool.toNat_true] at this
    omega
  · rintro a ha _ hb rfl
    have := hsingle a
    rcases ha with ha | ha <;> simp only [ha, hb, Bool.toNat_true] at this <;> omega
  · rintro a ha _ hb rfl
    have := hsingle a
    rcases ha with (ha | ha) | ha <;> simp only [ha, hb, Bool.toNat_true] at this <;> omega

/-! ## Layers over others -/

namespace SymbolTable

variable {table table' : SymbolTable} {above : Layer}

/-- What is known through some layers. -/
def through (below : List Layer) : SymbolTable :=
  ⟨.empty, below⟩

theorem registration_own (table : SymbolTable) (name : String) : table.registration name =
    (table.own.registration name).or ((through table.below).registration name) :=
  registration_eq table name

/-- An empty layer adds nothing to what is known. -/
theorem registration_through_layers (table : SymbolTable) (name : String) :
    (through table.layers).registration name = table.registration name :=
  registration_over .empty table name

theorem registration_through_cons (layer : Layer) (below : List Layer) (name : String) :
    (through (layer :: below)).registration name =
      (layer.registration name).or ((through below).registration name) :=
  (registration_through_layers ⟨layer, below⟩ name).trans (registration_own ⟨layer, below⟩ name)

theorem defined_iff : table.defined name = true ↔ table.registration name ≠ .none := by
  rw [← Bool.not_eq_false, Ne, defined_eq_false_iff]

theorem isFamily_iff : table.isFamily name = true ↔ (table.registration name).family ≠ none :=
  Option.isSome_iff_ne_none

theorem defined_of_isFamily (h : table.isFamily name = true) : table.defined name = true := by
  rw [defined_iff]
  intro hnone
  rw [isFamily_iff, hnone] at h
  exact h rfl

theorem isFamily_through_cons (layer : Layer) (below : List Layer) :
    (through (layer :: below)).isFamily name = true ↔
      layer.families.get? name ≠ none ∨ (through below).isFamily name = true := by
  rw [isFamily_iff, isFamily_iff, registration_through_cons, Registration.or, Ne,
    Option.or_eq_none_iff]
  exact Decidable.not_and_iff_not_or_not

theorem defined_through_cons (layer : Layer) (below : List Layer) :
    (through (layer :: below)).defined name = true ↔
      layer.registration name ≠ .none ∨ (through below).defined name = true := by
  rw [defined_iff, defined_iff, registration_through_cons, Ne, Registration.or_eq_none_iff]
  exact Decidable.not_and_iff_not_or_not

theorem defined_through_layers (table : SymbolTable) :
    (through table.layers).defined name = table.defined name :=
  congrArg (fun r => r.type?.isSome) (registration_through_layers table name)

theorem below_publish (h : table.publish above = .ok table') : table'.below = table.below := by
  obtain ⟨_, rfl⟩ := publish_eq_ok_iff.1 h
  rfl

end SymbolTable

open SymbolTable (through)

/-- What stays known when layers change: inductive types, names, and the constructors of each
layer. -/
structure Layer.Grows (below below' : List Layer) : Prop where
  isFamily : ∀ name, (through below).isFamily name = true → (through below').isFamily name = true
  defined : ∀ name, (through below).defined name = true → (through below').defined name = true
  constructor : ∀ layer ∈ below, ∀ C c, layer.constructors.get? C = some c →
    ∃ layer' ∈ below', layer'.constructors.get? C = some c

/-- More layers on top of both change nothing. -/
theorem Layer.Grows.append {below below' : List Layer} (h : Grows below below')
    (above : List Layer) : Grows (above ++ below) (above ++ below') := by
  induction above with
  | nil => exact h
  | cons layer rest ih =>
    refine ⟨fun name hname => ?_, fun name hname => ?_, fun found hfound C c hc => ?_⟩
    · rw [List.cons_append, SymbolTable.isFamily_through_cons] at hname ⊢
      exact hname.imp_right (ih.isFamily name)
    · rw [List.cons_append, SymbolTable.defined_through_cons] at hname ⊢
      exact hname.imp_right (ih.defined name)
    · rcases List.mem_cons.1 hfound with rfl | hfound
      · exact ⟨_, List.mem_cons_self, hc⟩
      · obtain ⟨layer', hlayer', hc'⟩ := ih.constructor found hfound C c hc
        exact ⟨layer', List.mem_cons_of_mem _ hlayer', hc'⟩

/-- What a layer keeps with respect to those below it.  It lists what it registers, but for
inductive types that it has from below; a name that is not known below has one kind of entry; the
inductive types of its constructors and its hints are known. -/
structure Layer.Sound (own : Layer) (below : List Layer) : Prop where
  distinct : own.Distinct
  order : own.order.Nodup
  known : ∀ name ∈ own.order, own.registration name ≠ .none
  family : ∀ name, own.families.get? name ≠ none →
    name ∈ own.order ∨ (through below).isFamily name = true
  listed : ∀ name, name ∉ own.order →
    own.registration name = ⟨own.families.get? name, none, none, none⟩
  single : ∀ name, (through below).defined name = false → (own.registration name).Single
  owner : ∀ C c, own.constructors.get? C = some c →
    own.families.get? c.family ≠ none ∨ (through below).isFamily c.family = true
  hint : ∀ name ∈ own.hints, own.registration name ≠ .none ∨ (through below).defined name = true

namespace Layer.Sound

variable {own above : Layer} {below below' : List Layer} {table table' : SymbolTable}

theorem empty (below : List Layer) : Layer.empty.Sound below := by
  refine ⟨⟨.nil, .nil, .nil, .nil⟩, .nil, List.forall_mem_nil _, fun _ h => absurd rfl h,
    fun _ _ => rfl, fun _ _ => .none, fun _ _ hc => ?_, List.forall_mem_nil _⟩
  cases hc

/-- **A layer stays sound when those below it grow.** -/
theorem grows (h : own.Sound below) (hgrows : Grows below below') : own.Sound below' where
  distinct := h.distinct
  order := h.order
  known := h.known
  family := fun name hname => (h.family name hname).imp_right (hgrows.isFamily name)
  listed := h.listed
  single := by
    intro name hname
    refine h.single name (Bool.eq_false_iff.2 fun hdefined => ?_)
    rw [hgrows.defined name hdefined] at hname
    cases hname
  owner := fun C c hc => (h.owner C c hc).imp_right (hgrows.isFamily c.family)
  hint := fun name hname => (h.hint name hname).imp_right (hgrows.defined name)

/-- What a layer registers besides inductive types is listed. -/
theorem constructor_mem (h : own.Sound below) {C : String} {c : Constructor}
    (hc : own.constructors.get? C = some c) : C ∈ own.order := by
  by_cases hmem : C ∈ own.order
  · exact hmem
  · have := congrArg Registration.constructor (h.listed C hmem)
    cases hc.symm.trans this

/-- Names that are new to a table are not in its own layer and not known below. -/
theorem new_of_publish (hpub : table.publish above = .ok table') (name : String)
    (hname : name ∈ above.order) :
    table.own.registration name = .none ∧ (through table.below).defined name = false := by
  have hnew := (SymbolTable.publish_eq_ok_iff.1 hpub).1 name hname
  rw [SymbolTable.defined_eq_false_iff, SymbolTable.registration_own,
    Registration.or_eq_none_iff] at hnew
  exact ⟨hnew.1, SymbolTable.defined_eq_false_iff.2 hnew.2⟩

/-- What was known stays known after a publication. -/
theorem grows_publish (ha : above.Sound table.layers) (hpub : table.publish above = .ok table') :
    Grows table.layers table'.layers := by
  have hnew := new_of_publish hpub
  obtain ⟨_, rfl⟩ := SymbolTable.publish_eq_ok_iff.1 hpub
  have hreg := fun name => ha.distinct.registration_merge table.own name
  refine ⟨fun name hname => ?_, fun name hname => ?_, fun found hfound C c hc => ?_⟩
  · refine (SymbolTable.isFamily_through_cons ..).2 ?_
    refine ((SymbolTable.isFamily_through_cons ..).1 hname).imp_left fun hown hmerged => hown ?_
    have := (congrArg Registration.family (hreg name)).symm.trans hmerged
    exact (Option.or_eq_none_iff.1 this).2
  · refine (SymbolTable.defined_through_cons ..).2 ?_
    refine ((SymbolTable.defined_through_cons ..).1 hname).imp_left fun hown hmerged => hown ?_
    exact (Registration.or_eq_none_iff.1 ((hreg name).symm.trans hmerged)).2
  · rcases List.mem_cons.1 hfound with rfl | hfound
    · -- a name that is there is not among the new ones
      refine ⟨_, List.mem_cons_self, (congrArg Registration.constructor (hreg C)).trans ?_⟩
      have habove : above.constructors.get? C = none := by
        rw [Option.eq_none_iff_forall_ne_some]
        intro c' hc'
        have := congrArg Registration.constructor (hnew C (ha.constructor_mem hc')).1
        cases hc.symm.trans this
      exact (congrArg (Option.or · _) habove).trans hc
    · exact ⟨found, List.mem_cons_of_mem _ hfound, hc⟩

/-- A name that is not known below keeps one kind of entry. -/
theorem single_publish (h : table.own.Sound table.below) (ha : above.Sound table.layers)
    (hpub : table.publish above = .ok table') (name : String)
    (hname : (through table.below).defined name = false) :
    ((above.registration name).or (table.own.registration name)).Single := by
  by_cases hmem : name ∈ above.order
  · obtain ⟨hown, _⟩ := new_of_publish hpub name hmem
    rw [hown, Registration.or_none]
    refine ha.single name (Bool.eq_false_iff.2 fun hdefined => ?_)
    rcases (SymbolTable.defined_through_cons ..).1 hdefined with hknown | hbelow
    · exact hknown hown
    · rw [hname] at hbelow
      cases hbelow
  · have hown := h.single name hname
    rw [ha.listed name hmem]
    cases hfamily : above.families.get? name with
    | none => exact hown
    | some f =>
      -- the inductive type is a copy of one that the table itself registers
      have htable := (ha.family name (by simp [hfamily])).resolve_left hmem
      rcases (SymbolTable.isFamily_through_cons ..).1 htable with hcopied | hbelow
      · have hsome : (table.own.registration name).family.isSome = true :=
          Option.isSome_iff_ne_none.2 hcopied
        simpa [Registration.Single, Registration.or, hsome] using hown
      · rw [SymbolTable.defined_of_isFamily hbelow] at hname
        cases hname

/-- **A sound layer that is published into a sound one leaves it sound.** -/
theorem publish (h : table.own.Sound table.below) (ha : above.Sound table.layers)
    (hpub : table.publish above = .ok table') : table'.own.Sound table'.below := by
  have hnew := new_of_publish hpub
  have hsingle := h.single_publish ha hpub
  obtain ⟨_, rfl⟩ := SymbolTable.publish_eq_ok_iff.1 hpub
  have hreg := fun name => ha.distinct.registration_merge table.own name
  have hnone : ∀ name, (table.own.merge above).registration name = .none →
      above.registration name = .none ∧ table.own.registration name = .none := fun name hnone =>
    Registration.or_eq_none_iff.1 ((hreg name).symm.trans hnone)
  have hnoFamily : ∀ name, (table.own.merge above).families.get? name = none →
      above.families.get? name = none ∧ table.own.families.get? name = none := fun name hnone =>
    Option.or_eq_none_iff.1 ((congrArg Registration.family (hreg name)).symm.trans hnone)
  -- what the published layer knows of the table is in the merged layer, or below
  have hfamily : ∀ name, above.families.get? name ≠ none ∨
      (through table.layers).isFamily name = true →
      (table.own.merge above).families.get? name ≠ none ∨
        (through table.below).isFamily name = true := by
    rintro name (hname | hname)
    · exact .inl fun hnot => hname (hnoFamily name hnot).1
    · exact ((SymbolTable.isFamily_through_cons ..).1 hname).imp_left fun hown hnot =>
        hown (hnoFamily name hnot).2
  refine ⟨h.distinct.merge, ?_, fun name hname hnot => ?_, fun name hname => ?_,
    fun name hname => ?_, fun name hname => ?_, fun C c hc => ?_, fun name hname => ?_⟩
  · refine List.nodup_append.2 ⟨h.order, ha.order, ?_⟩
    rintro a hown _ habove rfl
    exact h.known a hown (hnew a habove).1
  · obtain ⟨hnoAbove, hnoOwn⟩ := hnone name hnot
    exact (List.mem_append.1 hname).elim (fun hown => h.known name hown hnoOwn)
      fun habove => ha.known name habove hnoAbove
  · by_cases habove : above.families.get? name = none
    · have hown : table.own.families.get? name ≠ none := fun hnot => hname (by
        rw [show (table.own.merge above).families.get? name = _ from
          congrArg Registration.family (hreg name)]
        exact Option.or_eq_none_iff.2 ⟨habove, hnot⟩)
      exact (h.family name hown).imp_left (List.mem_append_left _)
    · rcases ha.family name habove with hlisted | htable
      · exact .inl (List.mem_append_right _ hlisted)
      · rcases (SymbolTable.isFamily_through_cons ..).1 htable with hown | hbelow
        · exact (h.family name hown).imp_left (List.mem_append_left _)
        · exact .inr hbelow
  · have hown : name ∉ table.own.order := fun hmem => hname (List.mem_append_left _ hmem)
    have habove : name ∉ above.order := fun hmem => hname (List.mem_append_right _ hmem)
    rw [show (table.own.merge above).families.get? name = _ from
      congrArg Registration.family (hreg name), hreg, h.listed name hown, ha.listed name habove]
    rfl
  · rw [hreg]
    exact hsingle name hname
  · have hc : (above.constructors.get? C).or (table.own.constructors.get? C) = some c :=
      (congrArg Registration.constructor (hreg C)).symm.trans hc
    rcases Option.or_eq_some_iff.1 hc with habove | ⟨_, hown⟩
    · exact hfamily c.family (ha.owner C c habove)
    · exact (h.owner C c hown).imp_left fun hsome hnot => hsome (hnoFamily c.family hnot).2
  · rcases List.mem_append.1 hname with hown | habove
    · exact (h.hint name hown).imp_left fun hsome hnot => hsome (hnone name hnot).2
    · rcases ha.hint name habove with hsome | htable
      · exact .inl fun hnot => hsome (hnone name hnot).1
      · exact ((SymbolTable.defined_through_cons ..).1 htable).imp_left fun hsome hnot =>
          hsome (hnone name hnot).2

end Layer.Sound

end ProofKernel
