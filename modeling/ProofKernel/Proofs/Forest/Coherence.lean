import ProofKernel.Proofs.Forest.Layers
import ProofKernel.Proofs.Forest.Views

/-!
# The root of a forest is coherent

Tables of a forest are forked, added to and published in any order, and a table may be published
long after those below it have changed.

* `Forest.Action` is one of these actions, `Forest.performAll` performs several; one that fails
  changes nothing.
* An addition publishes a small layer of its own (`SymbolTable.publish_of_add`), so that publication
  is the only step to be considered.
* `Forest.Sound` is what every action keeps (`Forest.Sound.perform`).
* `Forest.coherent_performAll`: the root, below which there is nothing, is coherent after any list
  of actions.
-/

set_option autoImplicit false
namespace ProofKernel

variable {name : String}

/-! ## Actions -/

/-- What can be added to a table. -/
inductive Addition where
  | family (name : String) (arity : Term)
  | constructor (name family : String) (type : Term)
  | definition (name : String) (type body : Term)
  | postulate (name : String) (type : Term)
  | hint (name : String)
deriving DecidableEq

/-- Adds to a table, without checking terms. -/
def SymbolTable.add (t : SymbolTable) : Addition → Except KernelError SymbolTable
  | .family name arity => t.addFamily name arity
  | .constructor name family type => t.addConstructor name family type
  | .definition name type body => t.addDefinition name type body
  | .postulate name type => t.addPostulate name type
  | .hint name => t.addHint name

namespace Forest

/-- An action on the table at a place. -/
inductive Action where
  | fork (place : Nat)
  | commit (place : Nat)
  | add (place : Nat) (addition : Addition)
deriving DecidableEq

/-- The forest after an action.  One that fails, or for which there is no table, changes nothing. -/
def perform (f : Forest) : Action → Forest
  | .fork place => if place < f.size then f.fork place .empty else f
  | .commit place => (f.commit place).toOption.getD f
  | .add place addition =>
    if place < f.size then (f.update place (·.add addition)).toOption.getD f else f

/-- The forest after several actions. -/
def performAll (f : Forest) (actions : List Action) : Forest :=
  actions.foldl perform f

/-- **What an action can do**: nothing, open an empty table, or replace the layer of a table by what
an addition or a publication makes of it. -/
theorem perform_cases (f : Forest) (a : Action) :
    f.perform a = f ∨ (∃ p < f.size, f.perform a = f.fork p .empty) ∨
      (∃ p < f.size, ∃ addition table, (f.view p).add addition = .ok table ∧
        f.perform a = f.setLayer p table.own) ∨
      ∃ i p table, a = .commit i ∧ f.parentOf i = some p ∧
        (f.view p).publish (f.view i).own = .ok table ∧ f.perform a = f.setLayer p table.own := by
  cases a with
  | fork p =>
    rw [perform]
    split
    · next hp => exact .inr (.inl ⟨p, hp, rfl⟩)
    · exact .inl rfl
  | commit i =>
    rw [perform, commit]
    cases hparent : f.parentOf i with
    | none => exact .inl rfl
    | some p =>
      cases hpub : (f.view p).publish (f.view i).own with
      | error e => exact .inl (by simp [hpub, Except.toOption])
      | ok table =>
        refine .inr (.inr (.inr ⟨i, p, table, rfl, hparent, hpub, ?_⟩))
        simp [hpub, Except.toOption]
  | add p addition =>
    rw [perform]
    split
    · next hp =>
      rw [update]
      cases hadd : (f.view p).add addition with
      | error e => exact .inl (by simp [Except.map, Except.toOption])
      | ok table => exact .inr (.inr (.inl ⟨p, hp, addition, table, hadd, rfl⟩))
    · exact .inl rfl

end Forest

/-! ## Additions -/

/-- The layer that an addition publishes. -/
def Addition.layer (table : SymbolTable) : Addition → Layer
  | .family name arity => familyLayer name arity []
  | .constructor name owner type =>
    { Layer.empty with
      families := (table.family? owner).toList.map fun f =>
        (owner, { f with constructors := f.constructors ++ [name] })
      constructors := [(name, ⟨owner, type⟩)]
      order := [name] }
  | .definition name type body => (Declaration.definition name none body).layer type
  | .postulate name type => (Declaration.postulate name type).layer type
  | .hint name => { Layer.empty with hints := if name ∈ table.hints then [] else [name] }

namespace SymbolTable

variable {table table' : SymbolTable} {addition : Addition}

/-- A constructor that is added is new, and its inductive type is known. -/
theorem addConstructor_eq_ok {family : String} {type : Term}
    (h : table.addConstructor name family type = .ok table') :
    table.defined name = false ∧ ∃ f, table.family? family = some f ∧
      table' = ⟨table.own.merge ((Addition.constructor name family type).layer table),
        table.below⟩ := by
  unfold addConstructor at h
  split at h
  · cases h
  · split at h
    · cases h
    · next f hf =>
      obtain ⟨hnew, rfl⟩ := register_eq_ok_iff.1 h
      refine ⟨hnew, f, hf, ?_⟩
      simp [Addition.layer, hf, Layer.merge, NameMap.merge, Layer.empty]

/-- **An addition publishes its layer.** -/
theorem publish_of_add (h : table.add addition = .ok table') :
    table.publish (addition.layer table) = .ok table' := by
  rw [publish_eq_ok_iff]
  cases addition with
  | family name arity =>
    obtain ⟨hnew, rfl⟩ := register_eq_ok_iff.1 (show table.addFamily name arity = _ from h)
    refine ⟨List.forall_mem_singleton.2 hnew, ?_⟩
    simp [Addition.layer, familyLayer, Layer.merge, NameMap.merge, Layer.empty]
  | constructor name family type =>
    obtain ⟨hnew, f, _, rfl⟩ := addConstructor_eq_ok h
    exact ⟨List.forall_mem_singleton.2 hnew, rfl⟩
  | definition name type body =>
    obtain ⟨hnew, rfl⟩ := register_eq_ok_iff.1 (show table.addDefinition name type body = _ from h)
    refine ⟨List.forall_mem_singleton.2 hnew, ?_⟩
    simp [Addition.layer, Declaration.layer, Layer.merge, NameMap.merge, Layer.empty]
  | postulate name type =>
    obtain ⟨hnew, rfl⟩ := register_eq_ok_iff.1 (show table.addPostulate name type = _ from h)
    refine ⟨List.forall_mem_singleton.2 hnew, ?_⟩
    simp [Addition.layer, Declaration.layer, Layer.merge, NameMap.merge, Layer.empty]
  | hint name =>
    have h : table.addHint name = .ok table' := h
    refine ⟨List.forall_mem_nil _, ?_⟩
    unfold addHint at h
    split at h
    · cases h
    · split at h
      · next hmem =>
        cases h
        simp [Addition.layer, Layer.merge, NameMap.merge, Layer.empty, List.contains_iff_mem.1 hmem]
      · next hmem =>
        cases h
        rw [List.contains_iff_mem] at hmem
        simp [Addition.layer, Layer.merge, NameMap.merge, Layer.empty, hmem]

end SymbolTable

/-- A layer without constructors that lists what it registers is sound over any others. -/
theorem Layer.Tidy.sound {own : Layer} (h : own.Tidy) (below : List Layer)
    (horder : own.order.Nodup) (hsingle : ∀ name, (own.registration name).Single)
    (hconstructors : own.constructors = []) (hhints : own.hints = []) : own.Sound below where
  distinct := h.distinct
  order := horder
  known := fun name hname hnone => (h.listed name).1 hnone hname
  family := by
    refine fun name hname => .inl (Decidable.not_not.1 fun hnot => hname ?_)
    exact congrArg Registration.family ((h.listed name).2 hnot)
  listed := fun name hname => by
    rw [show own.families.get? name = (own.registration name).family from rfl,
      (h.listed name).2 hname]
    rfl
  single := fun name _ => hsingle name
  owner := by
    intro C c hc
    rw [hconstructors] at hc
    cases hc
  hint := by simp [hhints]

/-- A constructor comes with a copy of its inductive type. -/
theorem Addition.sound_constructor {table : SymbolTable} {C family : String} {type : Term}
    (hnew : table.defined C = false) (hfamily : table.isFamily family = true) :
    ((Addition.constructor C family type).layer table).Sound table.layers := by
  obtain ⟨f, hf⟩ := Option.isSome_iff_exists.1 hfamily
  have hne : family ≠ C := by
    rintro rfl
    rw [SymbolTable.defined_of_isFamily hfamily] at hnew
    cases hnew
  have hover : (SymbolTable.through table.layers).isFamily family = true := by
    rw [SymbolTable.isFamily_iff, SymbolTable.registration_through_layers]
    exact Option.isSome_iff_ne_none.1 hfamily
  have hreg : ∀ name, ((Addition.constructor C family type).layer table).registration name =
      ⟨if family = name then some { f with constructors := f.constructors ++ [C] } else none,
        if C = name then some ⟨family, type⟩ else none, none, none⟩ := by
    intro name
    simp [layer, hf, Layer.registration, Layer.empty, get?_singleton]
  refine ⟨⟨?_, List.pairwise_singleton _ _, .nil, .nil⟩, List.pairwise_singleton _ _,
    fun name hname => ?_, fun name hname => .inr ?_, fun name hname => ?_, fun name _ => ?_,
    fun D c hc => .inr ?_, List.forall_mem_nil _⟩
  · simp [layer, hf, NameMap.names]
  · rw [hreg, List.mem_singleton.1 hname, if_pos rfl]
    simp [Registration.none]
  · have hfound := (congrArg Registration.family (hreg name)).symm
    dsimp only at hfound
    split at hfound
    · next heq => rwa [← heq]
    · exact absurd hfound.symm hname
  · have hC : ¬ C = name := fun heq => hname (heq ▸ List.mem_cons_self)
    rw [show ((Addition.constructor C family type).layer table).families.get? name = _ from
      congrArg Registration.family (hreg name), hreg, if_neg hC]
  · rw [hreg]
    by_cases hC : C = name
    · subst hC
      simp [Registration.Single, hne]
    · simp only [Registration.Single, if_neg hC]
      split <;> simp
  · have hfound := (congrArg Registration.constructor (hreg D)).symm.trans hc
    dsimp only at hfound
    split at hfound
    · cases hfound
      exact hover
    · cases hfound

/-- **The layer of an addition is sound over the table.** -/
theorem Addition.sound {table table' : SymbolTable} {addition : Addition}
    (h : table.add addition = .ok table') : (addition.layer table).Sound table.layers := by
  cases addition with
  | family given arity =>
    have htidy : (familyLayer given arity []).Tidy := tidy_familyLayer given arity .nil
    refine htidy.sound _ (List.pairwise_singleton _ _) (fun name => ?_) rfl rfl
    simp only [familyLayer, Layer.registration, Layer.empty, get?_singleton]
    split <;> simp [Registration.Single]
  | constructor given family type =>
    obtain ⟨hnew, f, hf, _⟩ := SymbolTable.addConstructor_eq_ok h
    exact sound_constructor hnew (Option.isSome_iff_exists.2 ⟨f, hf⟩)
  | definition given type body =>
    have htidy := Declaration.tidy_layer (d := .definition given none body)
      (List.pairwise_singleton _ _) type
    refine htidy.sound _ (List.pairwise_singleton _ _) (fun name => ?_) rfl rfl
    simp only [Declaration.layer, Layer.registration, Layer.empty, get?_singleton]
    split <;> simp [Registration.Single]
  | postulate given type =>
    have htidy := Declaration.tidy_layer (d := .postulate given type)
      (List.pairwise_singleton _ _) type
    refine htidy.sound _ (List.pairwise_singleton _ _) (fun name => ?_) rfl rfl
    simp only [Declaration.layer, Layer.registration, Layer.empty, get?_singleton]
    split <;> simp [Registration.Single]
  | hint given =>
    have hdefined : table.defined given = true := by
      have h : table.addHint given = .ok table' := h
      unfold SymbolTable.addHint at h
      split at h
      · cases h
      · next hdefined => simpa using hdefined
    refine ⟨⟨.nil, .nil, .nil, .nil⟩, .nil, List.forall_mem_nil _, fun _ hsome => absurd rfl hsome,
      fun _ _ => rfl, fun _ _ => .none, fun _ _ hc => ?_, fun name hname => .inr ?_⟩
    · cases hc
    have hname : name = given := by
      simp only [layer] at hname
      split at hname
      · cases hname
      · exact List.mem_singleton.1 hname
    rw [SymbolTable.defined_through_layers, hname]
    exact hdefined

/-! ## Runs -/

namespace Forest

variable {f : Forest}

/-- A property of every layer with those below it. -/
def All (P : Layer → List Layer → Prop) (f : Forest) : Prop :=
  ∀ i < f.size, P (f.view i).own (f.view i).below

/-- A property that survives growth below holds everywhere again, once it holds of a layer that has
grown. -/
theorem All.setLayer {P : Layer → List Layer → Prop} {p : Nat} {table : SymbolTable}
    (hP : ∀ own below below', Layer.Grows below below' → P own below → P own below')
    (h : f.All P) (hwf : f.WellFormed) (hp : p < f.size) (hbelow : table.below = (f.view p).below)
    (hgrows : Layer.Grows (f.view p).layers table.layers) (htable : P table.own table.below) :
    (f.setLayer p table.own).All P := by
  intro i hi
  rw [size_setLayer] at hi
  by_cases hip : i = p
  · subst hip
    rw [view_setLayer_self hwf hp, ← hbelow]
    exact htable
  · rw [own_setLayer hwf hi, if_neg hip]
    rcases below_setLayer hwf hp hi hip table.own with hsame | ⟨above, hold, hnew⟩
    · rw [hsame]
      exact h i hi
    · have hgrown : Layer.Grows (f.view i).below ((f.setLayer p table.own).view i).below := by
        rw [hold, hnew, ← hbelow]
        exact hgrows.append above
      exact hP _ _ _ hgrown (h i hi)

theorem All.fork {P : Layer → List Layer → Prop} {p : Nat} (hempty : ∀ below, P .empty below)
    (h : f.All P) (hwf : f.WellFormed) (hp : p < f.size) : (f.fork p .empty).All P := by
  intro i hi
  rw [size_fork] at hi
  rcases Nat.lt_succ_iff_lt_or_eq.1 hi with hlt | rfl
  · rw [view_fork hlt]
    exact h i hlt
  · rw [view_fork_size hp hwf]
    exact hempty _

/-- A forest whose tables were forked from older ones and have sound layers. -/
structure Sound (f : Forest) : Prop where
  wellFormed : f.WellFormed
  size_pos : 0 < f.size
  layers : f.All Layer.Sound

/-- A sound layer that is published into a table leaves the forest sound. -/
theorem Sound.publish (h : f.Sound) {p : Nat} {above : Layer} {table : SymbolTable}
    (hp : p < f.size) (habove : above.Sound (f.view p).layers)
    (hpub : (f.view p).publish above = .ok table) : (f.setLayer p table.own).Sound := by
  refine ⟨h.wellFormed.setLayer, by rw [size_setLayer]; exact h.size_pos, ?_⟩
  exact h.layers.setLayer (fun _ _ _ hgrows hown => hown.grows hgrows) h.wellFormed hp
    (SymbolTable.below_publish hpub) (habove.grows_publish hpub)
    ((h.layers p hp).publish habove hpub)

theorem sound_root : Forest.root.Sound where
  wellFormed := by
    intro i p hp
    have hi : i = 0 := Nat.lt_one_iff.1 (parentOf_lt_size hp)
    subst hi
    cases hp
  size_pos := Nat.one_pos
  layers := by
    intro i hi
    have hi : i = 0 := Nat.lt_one_iff.1 hi
    subst hi
    exact .empty _

/-- **An action does nothing, opens an empty table, or publishes a sound layer**, either that of an
addition or that of a fork. -/
theorem Sound.perform_cases (h : f.Sound) (a : Action) :
    f.perform a = f ∨ (∃ p < f.size, f.perform a = f.fork p .empty) ∨
      ∃ p < f.size, ∃ above : Layer, ∃ table, above.Sound (f.view p).layers ∧
        (f.view p).publish above = .ok table ∧ f.perform a = f.setLayer p table.own ∧
        ((∃ addition, (f.view p).add addition = .ok table ∧ above = addition.layer (f.view p)) ∨
          ∃ i, a = .commit i ∧ f.parentOf i = some p ∧ above = (f.view i).own) := by
  refine (f.perform_cases a).imp_right (Or.imp_right ?_)
  rintro (⟨p, hp, addition, table, hadd, heq⟩ | ⟨i, p, table, rfl, hparent, hpub, heq⟩)
  · exact ⟨p, hp, _, table, Addition.sound hadd, SymbolTable.publish_of_add hadd, heq,
      .inl ⟨addition, hadd, rfl⟩⟩
  · have hi := parentOf_lt_size hparent
    refine ⟨p, Nat.lt_trans (h.wellFormed i p hparent) hi, _, table, ?_, hpub, heq,
      .inr ⟨i, rfl, hparent, rfl⟩⟩
    rw [← below_of_parentOf h.wellFormed hparent]
    exact h.layers i hi

/-- **Every action keeps a forest sound.** -/
theorem Sound.perform (h : f.Sound) (a : Action) : (f.perform a).Sound := by
  rcases h.perform_cases a with heq | ⟨p, hp, heq⟩ | ⟨p, hp, above, table, habove, hpub, heq, _⟩
  · rw [heq]
    exact h
  · rw [heq]
    exact ⟨h.wellFormed.fork hp, Nat.succ_pos _, h.layers.fork .empty h.wellFormed hp⟩
  · rw [heq]
    exact h.publish hp habove hpub

theorem Sound.performAll (h : f.Sound) (actions : List Action) : (f.performAll actions).Sound := by
  induction actions generalizing f with
  | nil => exact h
  | cons a rest ih => exact ih (h.perform a)

end Forest

/-- The four maps of a table without others below it have no name in common, its names are listed
once and are the keys of the maps, the inductive types of its constructors are registered, and so
are its hints. -/
structure SymbolTable.Coherent (table : SymbolTable) : Prop where
  below : table.below = []
  keys : table.own.keys.Nodup
  names : table.names.Nodup
  listed : ∀ name, name ∈ table.names ↔ name ∈ table.own.keys
  owner : ∀ C c, table.constructor? C = some c → table.isFamily c.family = true
  hint : ∀ name ∈ table.hints, table.defined name = true

namespace SymbolTable

variable {table : SymbolTable}

theorem names_of_below_eq_nil (h : table.below = []) : table.names = table.own.order := by
  simp [names, layers, h]

theorem hints_of_below_eq_nil (h : table.below = []) : table.hints = table.own.hints := by
  simp [hints, layers, h]

theorem registration_of_below_eq_nil (h : table.below = []) (name : String) :
    table.registration name = table.own.registration name := by
  rw [registration_own, h]
  exact Registration.or_none _

/-- A sound layer over no others is coherent. -/
theorem coherent_of_sound (h : table.own.Sound table.below) (hbelow : table.below = []) :
    table.Coherent := by
  have hreg := registration_of_below_eq_nil hbelow
  rw [hbelow] at h
  have hfamily : ∀ name, table.own.families.get? name ≠ none → table.isFamily name = true := by
    intro name hname
    rw [isFamily_iff, hreg]
    exact hname
  refine ⟨hbelow, h.distinct.nodup_keys fun name => h.single name rfl, ?_, fun name => ?_,
    fun C c hc => ?_, fun name hname => ?_⟩
  · rw [names_of_below_eq_nil hbelow]
    exact h.order
  · rw [names_of_below_eq_nil hbelow, Layer.mem_keys]
    refine ⟨h.known name, fun hknown => Decidable.not_not.1 fun hnot => hknown ?_⟩
    -- an inductive type that is not listed would come from below
    have hnone : table.own.families.get? name = none := by
      by_cases hsome : table.own.families.get? name = none
      · exact hsome
      · exact absurd ((h.family name hsome).resolve_left hnot) Bool.false_ne_true
    rw [h.listed name hnot, hnone]
    rfl
  · have hc : table.own.constructors.get? C = some c :=
      (congrArg Registration.constructor (hreg C)).symm.trans hc
    exact hfamily c.family ((h.owner C c hc).resolve_right Bool.false_ne_true)
  · rw [hints_of_below_eq_nil hbelow] at hname
    rw [defined_iff, hreg]
    exact (h.hint name hname).resolve_right Bool.false_ne_true

end SymbolTable

/-- **The root is coherent after any actions on the tables of a forest**, whether they succeed or
fail, and however stale the tables are that are published. -/
theorem Forest.coherent_performAll (actions : List Forest.Action) :
    ((Forest.root.performAll actions).view 0).Coherent := by
  have h := Forest.sound_root.performAll actions
  exact SymbolTable.coherent_of_sound (h.layers 0 h.size_pos)
    (Forest.below_zero h.wellFormed h.size_pos)

end ProofKernel
