import ProofKernel.Proofs.Forest.Coherence

/-!
# What publication keeps of constructors and hints

A fork that adds a constructor publishes the whole entry of the inductive type, as it was when the
constructor was added, and its hints without comparing them.  So the entry of the root can miss a
constructor that was published in between, and a hint can be there twice.

* `Layer.Listed` holds in every forest: an entry lists constructors of its inductive type, each
  once.
* `Layer.Timely` says that a layer publishes no entry that lacks a constructor the table lists, and
  no hint that the table has.  `Layer.Complete` is what timely publications keep.
* `Forest.faithful_performAll`: the root of a forest lists nothing but its constructors, it lists
  all of them if the publications were timely, and a publication into the root that is not timely
  loses a constructor or repeats a hint.
-/

set_option autoImplicit false
namespace ProofKernel

open SymbolTable (through)

variable {own above : Layer} {below below' : List Layer} {table table' : SymbolTable}

/-! ## What entries list -/

/-- The inductive types of a layer list constructors that some layer registers for them, each
once. -/
structure Layer.Listed (own : Layer) (below : List Layer) : Prop where
  nodup : ∀ I f, own.families.get? I = some f → f.constructors.Nodup
  owned : ∀ I f, own.families.get? I = some f → ∀ C ∈ f.constructors,
    ∃ layer ∈ own :: below, ∃ c, layer.constructors.get? C = some c ∧ c.family = I

namespace Layer

theorem Listed.of_families_eq_nil (h : own.families = []) (below : List Layer) :
    own.Listed below := by
  refine ⟨fun I f hf => ?_, fun I f hf => ?_⟩
  all_goals
    rw [h] at hf
    cases hf

theorem Listed.grows (h : own.Listed below) (hgrows : Grows below below') : own.Listed below' where
  nodup := h.nodup
  owned := by
    intro I f hf C hC
    obtain ⟨layer, hlayer, c, hc, rfl⟩ := h.owned I f hf C hC
    rcases List.mem_cons.1 hlayer with rfl | hlayer
    · exact ⟨_, List.mem_cons_self, c, hc, rfl⟩
    · obtain ⟨layer', hlayer', hc'⟩ := hgrows.constructor layer hlayer C c hc
      exact ⟨layer', List.mem_cons_of_mem _ hlayer', c, hc', rfl⟩

/-- **A publication keeps what entries list.** -/
theorem Listed.publish (h : table.own.Listed table.below) (ha : above.Listed table.layers)
    (hsound : above.Sound table.layers) (hpub : table.publish above = .ok table') :
    table'.own.Listed table'.below := by
  have hgrows := hsound.grows_publish hpub
  obtain ⟨_, rfl⟩ := SymbolTable.publish_eq_ok_iff.1 hpub
  have hreg := hsound.distinct.registration_merge table.own
  have hentry : ∀ I f, (table.own.merge above).families.get? I = some f →
      above.families.get? I = some f ∨ table.own.families.get? I = some f := by
    intro I f hf
    have hf := (congrArg Registration.family (hreg I)).symm.trans hf
    exact (Option.or_eq_some_iff.1 hf).imp_right And.right
  refine ⟨fun I f hf => ?_, fun I f hf C hC => ?_⟩
  · exact (hentry I f hf).elim (ha.nodup I f) (h.nodup I f)
  · have hold : (∃ layer ∈ table.layers, ∃ c, layer.constructors.get? C = some c ∧ c.family = I) →
        ∃ layer ∈ (⟨table.own.merge above, table.below⟩ : SymbolTable).layers,
          ∃ c, layer.constructors.get? C = some c ∧ c.family = I := by
      rintro ⟨layer, hlayer, c, hc, rfl⟩
      obtain ⟨layer', hlayer', hc'⟩ := hgrows.constructor layer hlayer C c hc
      exact ⟨layer', hlayer', c, hc', rfl⟩
    rcases hentry I f hf with hf | hf
    · obtain ⟨layer, hlayer, c, hc, rfl⟩ := ha.owned I f hf C hC
      rcases List.mem_cons.1 hlayer with rfl | hlayer
      · refine ⟨_, List.mem_cons_self, c, ?_, rfl⟩
        refine (congrArg Registration.constructor (hreg C)).trans ?_
        exact Option.or_eq_some_iff.2 (.inl hc)
      · exact hold ⟨layer, hlayer, c, hc, rfl⟩
    · exact hold (h.owned I f hf C hC)

end Layer

namespace SymbolTable

/-- The inductive types that a table finds list constructors of theirs, each once. -/
def ListsOwned (table : SymbolTable) : Prop :=
  ∀ I f, table.family? I = some f → f.constructors.Nodup ∧ ∀ C ∈ f.constructors,
    ∃ layer ∈ table.layers, ∃ c, layer.constructors.get? C = some c ∧ c.family = I

/-- A constructor of some layer is known. -/
theorem defined_of_mem_layers {layer : Layer} {C : String} {c : Constructor}
    (hlayer : layer ∈ table.layers) (hc : layer.constructors.get? C = some c) :
    table.defined C = true := by
  have hfound : (table.constructor? C).isSome = true := by
    rw [constructor?, List.findSome?_isSome_iff]
    exact ⟨layer, hlayer, by rw [hc]; rfl⟩
  rw [defined_iff]
  intro hnone
  rw [show table.constructor? C = (table.registration C).constructor from rfl, hnone] at hfound
  cases hfound

end SymbolTable

/-- The entry that comes with a constructor lists what the table listed, and the constructor. -/
theorem Addition.listed {addition : Addition} (h : table.add addition = .ok table')
    (howned : table.ListsOwned) : (addition.layer table).Listed table.layers := by
  cases addition with
  | constructor given family type =>
    obtain ⟨hnew, f, hf, _⟩ := SymbolTable.addConstructor_eq_ok h
    obtain ⟨hnodup, hlayers⟩ := howned family f hf
    have hentry : ∀ I g, ((Addition.constructor given family type).layer table).families.get? I =
        some g → I = family ∧ g.constructors = f.constructors ++ [given] := by
      intro I g hg
      simp only [layer, hf, Option.toList_some, List.map_cons, List.map_nil, get?_singleton] at hg
      split at hg
      · next heq =>
        cases hg
        exact ⟨heq.symm, rfl⟩
      · cases hg
    refine ⟨fun I g hg => ?_, fun I g hg C hC => ?_⟩
    · rw [(hentry I g hg).2]
      refine List.nodup_append.2 ⟨hnodup, List.pairwise_singleton _ _, ?_⟩
      rintro C hC _ hgiven rfl
      obtain ⟨layer, hlayer, c, hc, _⟩ := hlayers C hC
      rw [← List.mem_singleton.1 hgiven, SymbolTable.defined_of_mem_layers hlayer hc] at hnew
      cases hnew
    · obtain ⟨rfl, hlist⟩ := hentry I g hg
      rw [hlist] at hC
      rcases List.mem_append.1 hC with hC | hC
      · obtain ⟨layer, hlayer, howner⟩ := hlayers C hC
        exact ⟨layer, List.mem_cons_of_mem _ hlayer, howner⟩
      · rw [List.mem_singleton.1 hC]
        refine ⟨_, List.mem_cons_self, ⟨I, type⟩, ?_, rfl⟩
        exact (get?_singleton ..).trans (if_pos rfl)
  | family given arity =>
    have hentry : ∀ I g, (familyLayer given arity []).families.get? I = some g →
        g.constructors = [] := by
      intro I g hg
      rw [familyLayer, get?_singleton] at hg
      split at hg
      · cases hg
        rfl
      · cases hg
    refine ⟨fun I g hg => ?_, fun I g hg C hC => ?_⟩
    · rw [hentry I g hg]
      exact .nil
    · rw [hentry I g hg] at hC
      cases hC
  | definition | postulate | hint => exact .of_families_eq_nil rfl _

namespace Forest

variable {f : Forest}

/-- Every table of a forest finds entries that list constructors of theirs. -/
theorem All.listsOwned (h : f.All Layer.Listed) (hwf : f.WellFormed) {p : Nat} (hp : p < f.size) :
    (f.view p).ListsOwned := by
  induction p using Nat.strongRecOn with
  | ind p ih =>
    intro I g hg
    rw [SymbolTable.family?, SymbolTable.layers, List.findSome?_cons] at hg
    split at hg
    · next hown =>
      cases hg
      exact ⟨(h p hp).nodup I g hown, (h p hp).owned I g hown⟩
    · cases hparent : f.parentOf p with
      | none =>
        rw [below_of_parentOf_eq_none hwf hparent hp] at hg
        cases hg
      | some q =>
        have hlt := hwf p q hparent
        rw [below_of_parentOf hwf hparent] at hg
        obtain ⟨hnodup, howned⟩ := ih q hlt (Nat.lt_trans hlt hp) I g hg
        refine ⟨hnodup, fun C hC => ?_⟩
        obtain ⟨layer, hlayer, howner⟩ := howned C hC
        refine ⟨layer, List.mem_cons_of_mem _ ?_, howner⟩
        rw [below_of_parentOf hwf hparent]
        exact hlayer

/-- **Every action keeps what entries list.** -/
theorem All.listed_perform (h : f.All Layer.Listed) (hsound : f.Sound) (a : Action) :
    (f.perform a).All Layer.Listed := by
  have hwf := hsound.wellFormed
  rcases hsound.perform_cases a with heq | ⟨p, hp, heq⟩ |
    ⟨p, hp, above, table, habove, hpub, heq, hwhich⟩
  · rw [heq]
    exact h
  · rw [heq]
    exact h.fork (.of_families_eq_nil rfl) hwf hp
  · have hlisted : above.Listed (f.view p).layers := by
      rcases hwhich with ⟨addition, hadd, rfl⟩ | ⟨i, _, hparent, rfl⟩
      · exact Addition.listed hadd (h.listsOwned hwf hp)
      · rw [← below_of_parentOf hwf hparent]
        exact h i (parentOf_lt_size hparent)
    rw [heq]
    refine h.setLayer (fun _ _ _ hgrows hown => hown.grows hgrows) hwf hp ?_
      (habove.grows_publish hpub) ((h p hp).publish hlisted habove hpub)
    exact SymbolTable.below_publish hpub

end Forest

/-! ## Timely publications -/

namespace Layer

/-- A layer brings no entry that lacks a constructor which the table lists, and no hint that the
table has. -/
def Timely (above : Layer) (table : SymbolTable) : Prop :=
  (∀ I ∈ above.families.names, ∀ g ∈ above.families.get? I, ∀ f ∈ table.family? I,
    ∀ C ∈ f.constructors, C ∈ g.constructors) ∧
  ∀ name ∈ above.hints, name ∉ table.hints

instance (above : Layer) (table : SymbolTable) : Decidable (above.Timely table) :=
  inferInstanceAs (Decidable (_ ∧ _))

theorem Timely.entry (h : above.Timely table) {I C : String} {f g : Family}
    (hg : above.families.get? I = some g) (hf : table.family? I = some f)
    (hC : C ∈ f.constructors) : C ∈ g.constructors :=
  h.1 I (NameMap.mem_names.2 (by simp [hg])) g hg f hf C hC

/-- A layer lists its constructors in its own entries, and its hints once. -/
structure Complete (own : Layer) : Prop where
  constructors : ∀ C c, own.constructors.get? C = some c →
    ∃ f, own.families.get? c.family = some f ∧ C ∈ f.constructors
  hints : own.hints.Nodup

theorem Complete.of_constructors_eq_nil (h : own.constructors = []) (hhints : own.hints.Nodup) :
    own.Complete := by
  refine ⟨fun C c hc => ?_, hhints⟩
  rw [h] at hc
  cases hc

theorem Timely.of_families_eq_nil (h : above.families = [])
    (hhints : ∀ name ∈ above.hints, name ∉ table.hints) : above.Timely table := by
  refine ⟨fun I hI => ?_, hhints⟩
  rw [h] at hI
  cases hI

/-- **A timely publication loses no constructor and repeats no hint.** -/
theorem Complete.publish (h : table.own.Complete) (ha : above.Complete)
    (hsound : above.Sound table.layers) (htimely : above.Timely table)
    (hpub : table.publish above = .ok table') : table'.own.Complete := by
  obtain ⟨_, rfl⟩ := SymbolTable.publish_eq_ok_iff.1 hpub
  have hreg := hsound.distinct.registration_merge table.own
  have hfamily : ∀ I, (table.own.merge above).families.get? I =
      (above.families.get? I).or (table.own.families.get? I) := fun I =>
    congrArg Registration.family (hreg I)
  refine ⟨fun C c hc => ?_, ?_⟩
  · have hc := (congrArg Registration.constructor (hreg C)).symm.trans hc
    rw [hfamily]
    rcases Option.or_eq_some_iff.1 hc with hc | ⟨_, hc⟩
    · obtain ⟨g, hg, hC⟩ := ha.constructors C c hc
      exact ⟨g, by rw [hg]; rfl, hC⟩
    · obtain ⟨f, hf, hC⟩ := h.constructors C c hc
      cases hg : above.families.get? c.family with
      | none => exact ⟨f, hf, hC⟩
      | some g =>
        have htable : table.family? c.family = some f := by
          rw [SymbolTable.family?, SymbolTable.layers, List.findSome?_cons, hf]
        exact ⟨g, rfl, htimely.entry hg htable hC⟩
  · refine List.nodup_append.2 ⟨h.hints, ha.hints, ?_⟩
    rintro name hown _ habove rfl
    refine htimely.2 name habove ?_
    rw [SymbolTable.hints, SymbolTable.layers, List.reverse_cons, List.flatMap_append]
    exact List.mem_append_right _ (by simpa using hown)

end Layer

/-- **An addition is timely**, and its layer is complete. -/
theorem Addition.timely {addition : Addition} (h : table.add addition = .ok table') :
    (addition.layer table).Timely table ∧ (addition.layer table).Complete := by
  cases addition with
  | constructor given family type =>
    obtain ⟨_, f, hf, _⟩ := SymbolTable.addConstructor_eq_ok h
    have hentry : ((Addition.constructor given family type).layer table).families =
        [(family, { f with constructors := f.constructors ++ [given] })] := by
      simp [layer, hf]
    refine ⟨⟨fun I _ g hg f' hf' C hC => ?_, List.forall_mem_nil _⟩, fun C c hc => ?_, .nil⟩
    · rw [hentry, get?_singleton] at hg
      split at hg
      · next heq =>
        cases hg
        rw [← heq] at hf'
        cases hf.symm.trans hf'
        exact List.mem_append_left _ hC
      · cases hg
    · have hc : (if given = C then some (⟨family, type⟩ : Constructor) else none) = some c := hc
      split at hc
      · next heq =>
        cases hc
        rw [hentry, get?_singleton, if_pos rfl]
        exact ⟨_, rfl, heq ▸ List.mem_append_right _ List.mem_cons_self⟩
      · cases hc
  | family given arity =>
    have hnew := (SymbolTable.register_eq_ok_iff.1 (show table.addFamily given arity = _ from h)).1
    refine ⟨⟨fun I _ g hg f' hf' => ?_, List.forall_mem_nil _⟩, .of_constructors_eq_nil rfl .nil⟩
    have hg : (familyLayer given arity []).families.get? I = some g := hg
    rw [familyLayer, get?_singleton] at hg
    split at hg
    · next heq =>
      rw [← heq] at hf'
      have hfamily : table.isFamily given = true := Option.isSome_iff_exists.2 ⟨f', hf'⟩
      rw [SymbolTable.defined_of_isFamily hfamily] at hnew
      cases hnew
    · cases hg
  | definition | postulate =>
    exact ⟨.of_families_eq_nil rfl (List.forall_mem_nil _), .of_constructors_eq_nil rfl .nil⟩
  | hint given =>
    have hlayer : ((Addition.hint given).layer table).hints =
        if given ∈ table.hints then [] else [given] := rfl
    refine ⟨.of_families_eq_nil rfl fun name hname => ?_, .of_constructors_eq_nil rfl ?_⟩
    · rw [hlayer] at hname
      split at hname
      · cases hname
      · next hnot => rwa [List.mem_singleton.1 hname]
    · rw [hlayer]
      split
      · exact .nil
      · exact List.pairwise_singleton _ _

namespace Forest

variable {f : Forest}

/-- Whether an action is no publication, or one that fails, or a timely one. -/
def TimelyAction (f : Forest) : Action → Prop
  | .commit i => ∀ p ∈ f.parentOf i, ((f.view p).publish (f.view i).own).isOk = true →
      (f.view i).own.Timely (f.view p)
  | .fork _ | .add _ _ => True

instance (f : Forest) : (a : Action) → Decidable (f.TimelyAction a)
  | .commit i => inferInstanceAs (Decidable (∀ p ∈ f.parentOf i,
      ((f.view p).publish (f.view i).own).isOk = true → (f.view i).own.Timely (f.view p)))
  | .fork _ | .add _ _ => inferInstanceAs (Decidable True)

/-- Whether all publications among some actions are timely. -/
def Timely : Forest → List Action → Prop
  | _, [] => True
  | f, a :: rest => f.TimelyAction a ∧ (f.perform a).Timely rest

instance decidableTimely : (f : Forest) → (actions : List Action) → Decidable (f.Timely actions)
  | _, [] => inferInstanceAs (Decidable True)
  | f, a :: rest =>
    have := decidableTimely (f.perform a) rest
    inferInstanceAs (Decidable (_ ∧ _))

/-- **A timely action keeps all layers complete.** -/
theorem All.complete_perform (h : f.All fun own _ => own.Complete) (hsound : f.Sound) {a : Action}
    (htimely : f.TimelyAction a) : (f.perform a).All fun own _ => own.Complete := by
  have hwf := hsound.wellFormed
  rcases hsound.perform_cases a with heq | ⟨p, hp, heq⟩ |
    ⟨p, hp, above, table, habove, hpub, heq, hwhich⟩
  · rw [heq]
    exact h
  · rw [heq]
    exact h.fork (fun _ => .of_constructors_eq_nil rfl .nil) hwf hp
  · have hcomplete : above.Timely (f.view p) ∧ above.Complete := by
      rcases hwhich with ⟨addition, hadd, rfl⟩ | ⟨i, rfl, hparent, rfl⟩
      · exact Addition.timely hadd
      · exact ⟨htimely p hparent (by rw [hpub]; rfl), h i (parentOf_lt_size hparent)⟩
    rw [heq]
    exact h.setLayer (fun _ _ _ _ hown => hown) hwf hp (SymbolTable.below_publish hpub)
      (habove.grows_publish hpub) ((h p hp).publish hcomplete.2 habove hcomplete.1 hpub)

theorem All.complete_performAll {actions : List Action} (h : f.All fun own _ => own.Complete)
    (hsound : f.Sound) (htimely : f.Timely actions) :
    (f.performAll actions).All fun own _ => own.Complete := by
  induction actions generalizing f with
  | nil => exact h
  | cons a rest ih => exact ih (h.complete_perform hsound htimely.1) (hsound.perform a) htimely.2

theorem All.listed_performAll {actions : List Action} (h : f.All Layer.Listed) (hsound : f.Sound) :
    (f.performAll actions).All Layer.Listed := by
  induction actions generalizing f with
  | nil => exact h
  | cons a rest ih => exact ih (h.listed_perform hsound a) (hsound.perform a)

/-- A property of the empty layer holds of the forest that all start from. -/
theorem all_root {P : Layer → List Layer → Prop} (h : ∀ below, P .empty below) :
    Forest.root.All P := by
  intro i hi
  have hi : i = 0 := Nat.lt_one_iff.1 hi
  subst hi
  exact h _

end Forest

/-! ## The root -/

/-- The inductive types of a table list each of their constructors once and nothing else, and no
hint is there twice. -/
structure SymbolTable.Faithful (table : SymbolTable) : Prop where
  nodup : ∀ I f, table.family? I = some f → f.constructors.Nodup
  constructors : ∀ I f, table.family? I = some f → ∀ C, C ∈ f.constructors ↔
    ∃ c, table.constructor? C = some c ∧ c.family = I
  hints : table.hints.Nodup

namespace SymbolTable

/-- Without tables below, constructors are found in the table's own layer. -/
theorem constructor?_of_below_eq_nil (h : table.below = []) (C : String) :
    table.constructor? C = table.own.constructors.get? C :=
  congrArg Registration.constructor (registration_of_below_eq_nil h C)

theorem family?_of_below_eq_nil (h : table.below = []) (I : String) :
    table.family? I = table.own.families.get? I :=
  congrArg Registration.family (registration_of_below_eq_nil h I)

theorem ListsOwned.constructor? (h : table.ListsOwned) (hbelow : table.below = []) {I C : String}
    {f : Family} (hf : table.family? I = some f) (hC : C ∈ f.constructors) :
    ∃ c, table.constructor? C = some c ∧ c.family = I := by
  obtain ⟨layer, hlayer, c, hc, hfamily⟩ := (h I f hf).2 C hC
  rw [layers, hbelow, List.mem_singleton] at hlayer
  rw [constructor?_of_below_eq_nil hbelow, ← hlayer]
  exact ⟨c, hc, hfamily⟩

/-- A complete layer over no others is faithful. -/
theorem faithful_of_complete (howned : table.ListsOwned) (h : table.own.Complete)
    (hbelow : table.below = []) : table.Faithful where
  nodup := fun I f hf => (howned I f hf).1
  constructors := by
    intro I f hf C
    refine ⟨howned.constructor? hbelow hf, ?_⟩
    rintro ⟨c, hc, rfl⟩
    rw [constructor?_of_below_eq_nil hbelow] at hc
    obtain ⟨g, hg, hC⟩ := h.constructors C c hc
    rw [family?_of_below_eq_nil hbelow] at hf
    cases hf.symm.trans hg
    exact hC
  hints := by
    rw [hints_of_below_eq_nil hbelow]
    exact h.hints

/-- **A publication that leaves a faithful table was timely.** -/
theorem Faithful.timely (h : table'.Faithful) (howned : table.ListsOwned)
    (hbelow : table.below = []) (hsound : above.Sound table.layers)
    (hpub : table.publish above = .ok table') : above.Timely table := by
  have hbelow' : table'.below = [] := (below_publish hpub).trans hbelow
  have hgrows := hsound.grows_publish hpub
  refine ⟨fun I _ g hg f hf C hC => ?_, fun name hname hmem => ?_⟩
  · -- the constructor is still registered, and the entry is the one that was published
    obtain ⟨c, hc, hfamily⟩ := howned.constructor? hbelow hf hC
    rw [constructor?_of_below_eq_nil hbelow] at hc
    obtain ⟨layer, hlayer, hc'⟩ := hgrows.constructor _ List.mem_cons_self C c hc
    rw [layers, hbelow', List.mem_singleton] at hlayer
    rw [hlayer, ← constructor?_of_below_eq_nil hbelow'] at hc'
    have hentry : table'.family? I = some g := by
      rw [family?_of_below_eq_nil hbelow']
      obtain ⟨_, rfl⟩ := publish_eq_ok_iff.1 hpub
      have hmerge := hsound.distinct.registration_merge table.own I
      refine (congrArg Registration.family hmerge).trans ?_
      exact Option.or_eq_some_iff.2 (.inl hg)
    exact (h.constructors I g hentry C).2 ⟨c, hc', hfamily⟩
  · have hnodup := h.hints
    rw [hints_of_below_eq_nil hbelow] at hmem
    rw [hints_of_below_eq_nil hbelow'] at hnodup
    obtain ⟨_, rfl⟩ := publish_eq_ok_iff.1 hpub
    exact (List.nodup_append.1 hnodup).2.2 name hmem name hname rfl

end SymbolTable

/-- **What the root has of constructors and hints, after any actions on the tables of a forest.**
Its inductive types list constructors of theirs, each once.  If the publications were timely, they
list all of them, and no hint is there twice; and whenever a publication into the root is not
timely, the root is not so afterwards. -/
theorem Forest.faithful_performAll (actions : List Forest.Action) :
    let f := Forest.root.performAll actions
    (∀ I g, (f.view 0).family? I = some g → g.constructors.Nodup ∧
      ∀ C ∈ g.constructors, ∃ c, (f.view 0).constructor? C = some c ∧ c.family = I) ∧
    (Forest.root.Timely actions → (f.view 0).Faithful) ∧
    ∀ i f', f.parentOf i = some 0 → f.commit i = .ok f' → (f'.view 0).Faithful →
      (f.view i).own.Timely (f.view 0) := by
  intro f
  have hsound : f.Sound := Forest.sound_root.performAll actions
  have hlisted : f.All Layer.Listed :=
    (Forest.all_root (.of_families_eq_nil rfl)).listed_performAll Forest.sound_root
  have howned := hlisted.listsOwned hsound.wellFormed hsound.size_pos
  have hbelow := Forest.below_zero hsound.wellFormed hsound.size_pos
  refine ⟨fun I g hg => ⟨(howned I g hg).1, fun C => howned.constructor? hbelow hg⟩,
    fun htimely => ?_, fun i f' hparent hcommit hfaithful => ?_⟩
  · have hempty : Forest.root.All fun own _ => own.Complete :=
      Forest.all_root fun _ => .of_constructors_eq_nil rfl .nil
    have hcomplete := hempty.complete_performAll Forest.sound_root htimely
    exact SymbolTable.faithful_of_complete howned (hcomplete 0 hsound.size_pos) hbelow
  · have habove : (f.view i).own.Sound (f.view 0).layers := by
      rw [← Forest.below_of_parentOf hsound.wellFormed hparent]
      exact hsound.layers i (Forest.parentOf_lt_size hparent)
    rw [Forest.commit, hparent] at hcommit
    dsimp only at hcommit
    split at hcommit
    · cases hcommit
    · next table hpub =>
      cases hcommit
      rw [Forest.view_setLayer_self hsound.wellFormed hsound.size_pos,
        ← SymbolTable.below_publish hpub] at hfaithful
      exact hfaithful.timely howned hbelow habove hpub

/-- Two forks add a constructor each to one inductive type.  If the second is opened after the first
was published, both constructors are listed; if it was opened before, the first one is lost. -/
theorem Forest.faithful_performAll_two :
    let constructor (C : String) := Addition.constructor C "I" (.global "I")
    let inductiveType := Forest.Action.add 0 (.family "I" (.sort .prop))
    let inTurn : List Forest.Action := [inductiveType, .fork 0, .add 1 (constructor "a"), .commit 1,
      .fork 0, .add 2 (constructor "b"), .commit 2]
    let crossed : List Forest.Action := [inductiveType, .fork 0, .fork 0, .add 1 (constructor "a"),
      .add 2 (constructor "b"), .commit 1, .commit 2]
    ((Forest.root.performAll inTurn).view 0).Faithful ∧
      ((Forest.root.performAll inTurn).view 0).names = ["I", "a", "b"] ∧
      ((Forest.root.performAll crossed).view 0).names = ["I", "a", "b"] ∧
      ¬ ((Forest.root.performAll crossed).view 0).Faithful := by
  intro constructor inductiveType inTurn crossed
  refine ⟨(faithful_performAll inTurn).2.1 (by decide +kernel), by decide +kernel,
    by decide +kernel, fun hfaithful => ?_⟩
  have hentry : ((Forest.root.performAll crossed).view 0).family? "I" =
      some ⟨.sort .prop, 0, ["b"]⟩ := by decide +kernel
  have hlost : ((Forest.root.performAll crossed).view 0).constructor? "a" =
      some ⟨"I", .global "I"⟩ := by decide +kernel
  have hmem := (hfaithful.constructors "I" _ hentry "a").2 ⟨_, hlost, rfl⟩
  exact absurd hmem (by decide)

end ProofKernel
