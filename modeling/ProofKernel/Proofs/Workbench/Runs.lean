import Mathlib.Logic.Relation
import ProofKernel.Proofs.Workbench.Staging
import ProofKernel.Workbench

/-!
# Runs on a bench

Declarations are staged on a bench against the table as it is then, and published later, when the
table may have grown.

* `Forest.Flat` is a forest whose forks all stand over one table; staging and publication keep it.
* `Layer.Fit` says that a fork rests on the table and on itself; it still does so when the table has
  grown, and its publication keeps the table self-contained.
* `Workbench.perform?` stages a declaration or publishes a place, `Workbench.Step` is one such
  action and `Workbench.Run` any number of them.
* `Workbench.Sound` is what a run keeps (`Workbench.Sound.run`): the table accounts for itself, what
  was put aside fits, and every definition was staged in the run.
-/

set_option autoImplicit false
namespace ProofKernel

/-! ## Forests over one table -/

namespace Forest

/-- All forks stand over one table, newest first. -/
def Flat (f : Forest) (root : Layer) (forks : List Layer) : Prop :=
  f.nodes = forks.map (⟨·, some 0⟩) ++ [⟨root, none⟩]

variable {f f' : Forest} {root : Layer} {forks : List Layer} {place : Nat}

theorem layersAt_zero (root : Layer) (forks : List Layer) :
    layersAt (forks.map (⟨·, some 0⟩) ++ [⟨root, none⟩]) 0 = [root] := by
  induction forks with
  | nil => rfl
  | cons layer rest ih =>
    rw [List.map_cons, List.cons_append, layersAt, if_neg (by simp), ih]

/-- Every place but the lowest one holds a fork. -/
theorem exists_layersAt (root : Layer) {forks : List Layer} (hpos : 0 < place)
    (hle : place ≤ forks.length) :
    ∃ layer ∈ forks, layersAt (forks.map (⟨·, some 0⟩) ++ [⟨root, none⟩]) place =
      [layer, root] := by
  induction forks with
  | nil => exact absurd hle (Nat.not_le.2 hpos)
  | cons layer rest ih =>
    rw [List.map_cons, List.cons_append, layersAt]
    split
    · exact ⟨layer, List.mem_cons_self, by simp only [layersAt_zero]⟩
    · next hne =>
      have hle' : place ≤ rest.length := by
        simp only [List.length_append, List.length_map, List.length_cons, List.length_nil]
          at hne hle
        omega
      obtain ⟨found, hfound, hlayers⟩ := ih hle'
      exact ⟨found, List.mem_cons_of_mem _ hfound, hlayers⟩

namespace Flat

theorem view_zero (h : f.Flat root forks) : f.view 0 = ⟨root, []⟩ := by
  rw [view, h, layersAt_zero]

theorem fork (h : f.Flat root forks) (layer : Layer) :
    (f.fork 0 layer).Flat root (layer :: forks) := by
  rw [Flat, Forest.fork, h]
  rfl

theorem setLayer (h : f.Flat root forks) (layer : Layer) :
    (f.setLayer 0 layer).Flat layer forks := by
  rw [Flat, Forest.setLayer, h]
  simp

/-- A table that can be published is a fork. -/
theorem view_of_parentOf {below : Nat} (h : f.Flat root forks)
    (hparent : f.parentOf place = some below) :
    below = 0 ∧ (f.view place).own ∈ forks := by
  rw [parentOf, h, List.reverse_append, List.reverse_singleton, List.singleton_append,
    ← List.map_reverse] at hparent
  cases place with
  | zero => simp at hparent
  | succ place =>
    rw [List.getElem?_cons_succ, List.getElem?_map, Option.bind_map] at hparent
    obtain ⟨layer, hlayer, hbelow⟩ := Option.bind_eq_some_iff.1 hparent
    have hle : place + 1 ≤ forks.length := by
      have := (List.getElem?_eq_some_iff.1 hlayer).1
      rw [List.length_reverse] at this
      exact this
    obtain ⟨found, hfound, hlayers⟩ := exists_layersAt root (Nat.succ_pos place) hle
    rw [view, h, hlayers]
    exact ⟨(Option.some.inj hbelow).symm, hfound⟩

/-- **Publication merges one of the forks into the table**, and leaves all forks in place. -/
theorem commit (h : f.Flat root forks) (hcommit : f.commit place = .ok f') :
    ∃ layer ∈ forks, ∃ table, (⟨root, []⟩ : SymbolTable).publish layer = .ok table ∧
      f'.Flat table.own forks := by
  unfold Forest.commit at hcommit
  split at hcommit
  · cases hcommit
  · next below hparent =>
    obtain ⟨rfl, hfork⟩ := h.view_of_parentOf hparent
    rw [h.view_zero] at hcommit
    split at hcommit
    · cases hcommit
    · next table hpub =>
      cases hcommit
      exact ⟨_, hfork, table, hpub, h.setLayer _⟩

end Flat
end Forest

/-! ## Publication of what was staged earlier -/

/-- What a fork brings: its names with what it registers for them, which rests on the table and on
these names. -/
structure Layer.Fit (layer : Layer) (table : SymbolTable) : Prop where
  tidy : layer.Tidy
  based : ∀ name, (layer.registration name).Over (table.KnowsWith layer.order)
  placeholder : Term.placeholder ∉ layer.order

namespace Layer.Fit

variable {layer : Layer} {table table' : SymbolTable}

/-- A fork still fits when the table has grown. -/
theorem mono (h : layer.Fit table) (hextends : table.Extends table') : layer.Fit table' where
  tidy := h.tidy
  based := fun name => (h.based name).mono fun l hl => by
    cases l with
    | hole => trivial
    | global n =>
      refine hl.imp_right (Or.imp_right fun hdefined => ?_)
      exact ⟨hextends.defined hdefined.1, hextends.defined hdefined.1⟩
  placeholder := h.placeholder

theorem extends_publish (h : layer.Fit table) (hpub : table.publish layer = .ok table') :
    table.Extends table' := by
  intro name hname
  rw [SymbolTable.registration_publish_eq h.tidy hpub, if_neg]
  intro hmem
  rw [(SymbolTable.publish_eq_ok_iff.1 hpub).1 name hmem] at hname
  cases hname

/-- The names of a fork are registered after its publication. -/
theorem defined_publish (h : layer.Fit table) (hpub : table.publish layer = .ok table')
    {name : String} (hname : name ∈ layer.order) : table'.defined name = true := by
  rw [← Bool.not_eq_false, SymbolTable.defined_eq_false_iff,
    SymbolTable.registration_publish_eq h.tidy hpub, if_pos hname, h.tidy.listed]
  exact fun hnot => hnot hname

/-- **A table still accounts for itself after a fork was published into it.** -/
theorem selfContained_publish (h : layer.Fit table) (ht : table.SelfContained)
    (hpub : table.publish layer = .ok table') : table'.SelfContained where
  entries := by
    have hextends := h.extends_publish hpub
    intro name
    rw [SymbolTable.registration_publish_eq h.tidy hpub]
    split
    · refine (h.based name).mono fun l hl => ?_
      cases l with
      | hole => trivial
      | global n =>
        refine hl.imp_right fun hn => hn.elim (h.defined_publish hpub) fun hdefined => ?_
        exact hextends.defined hdefined.1
    · exact (ht.entries name).mono fun _ => hextends.knows
  literal := fun value => (h.extends_publish hpub).defined (ht.literal value)
  placeholder := by
    rw [SymbolTable.defined_eq_false_iff, SymbolTable.registration_publish_eq h.tidy hpub,
      if_neg h.placeholder, ← SymbolTable.defined_eq_false_iff]
    exact ht.placeholder

end Layer.Fit

/-! ## Runs on a bench -/

namespace Workbench

/-- A declaration to be staged among local variables, or a place to be published. -/
inductive Action where
  | stage (locals : Telescope) (d : Declaration)
  | commit (place : Nat)
deriving DecidableEq

/-- The local variables of an action. -/
def Action.locals : Action → Telescope
  | stage locals _ => locals
  | commit _ => []

/-- The names that an action brings. -/
def Action.provides : Action → List String
  | stage _ d => d.provides
  | commit _ => []

/-- The bench after an action, unless it is rejected. -/
def perform? (w : Workbench) : Action → Option Workbench
  | .stage locals d => (d.stage w.options ⟨w.table, locals⟩).outcome.toOption.map w.keep
  | .commit place => (w.commit place).toOption

/-- One action.  The types of local variables mention what is registered, and no declaration brings
the name that stands for a binder type left out. -/
def Step (w w' : Workbench) : Prop :=
  ∃ a : Action, LocalsOver w.table.Knows a.locals ∧ Term.placeholder ∉ a.provides ∧
    w.perform? a = some w'

theorem perform?_stage {w w' : Workbench} {locals : Telescope} {d : Declaration} :
    w.perform? (.stage locals d) = some w' ↔ ∃ staged,
      (d.stage w.options ⟨w.table, locals⟩).outcome = .ok staged ∧ w.keep staged = w' := by
  rw [perform?]
  cases (d.stage w.options ⟨w.table, locals⟩).outcome <;> simp [Except.toOption]

theorem perform?_commit {w w' : Workbench} {place : Nat} :
    w.perform? (.commit place) = some w' ↔ w.commit place = .ok w' := by
  rw [perform?]
  cases w.commit place <;> simp [Except.toOption]

/-- Any number of actions, in any order. -/
abbrev Run : Workbench → Workbench → Prop :=
  Relation.ReflTransGen Step

variable {options : Options} {start w w' : Workbench}

/-- A definition was staged in a run from one bench to another: among which local variables, and
with which type given. -/
def Defines (start w : Workbench) (name : String) (D : Definition) (locals : Telescope)
    (given : Option Term) : Prop :=
  ∃ w₁ staged, start.Run w₁ ∧ LocalsOver w₁.table.Knows locals ∧
    (Declaration.stage w₁.options ⟨w₁.table, locals⟩ (.definition name given D.body)).outcome =
      .ok staged ∧
    staged.own.definitions.get? name = some D ∧ name ≠ Term.placeholder ∧ (w₁.keep staged).Run w

/-- What was staged stays staged. -/
theorem exists_defines_tail {name : String} {D : Definition}
    (h : ∃ locals given, Defines start w name D locals given) (hstep : w.Step w') :
    ∃ locals given, Defines start w' name D locals given := by
  obtain ⟨locals, given, w₁, staged, hrun, hlocals, hstage, hget, hname, hlater⟩ := h
  exact ⟨locals, given, w₁, staged, hrun, hlocals, hstage, hget, hname, hlater.tail hstep⟩

/-- What holds throughout a run. -/
structure Sound (start w : Workbench) (forks : List Layer) : Prop where
  options : w.options = start.options
  place : w.scope.place = 0
  flat : w.forest.Flat w.table.own forks
  selfContained : w.table.SelfContained
  fit : ∀ layer ∈ forks, layer.Fit w.table
  staged : ∀ layer ∈ forks, ∀ name D, layer.definitions.get? name = some D →
    ∃ locals given, Defines start w name D locals given
  defined : ∀ name D, w.table.definition? name = some D →
    start.table.definition? name = some D ∨ ∃ locals given, Defines start w name D locals given

namespace Sound

variable {forks : List Layer}

/-- The table that is worked on has no table below it. -/
theorem table_eq (h : Sound start w forks) : w.table = ⟨w.table.own, []⟩ := by
  have hview := h.flat.view_zero
  rwa [← h.place] at hview

/-- A table that accounts for itself is a sound start. -/
theorem ofTable (options : Options) {table : SymbolTable} (hbelow : table.below = [])
    (h : table.SelfContained) :
    (ofTable options table).table = table ∧
      Sound (ofTable options table) (ofTable options table) [] := by
  have hroot : Forest.root.Flat .empty [] := rfl
  have hflat : (Workbench.ofTable options table).forest.Flat table.own [] := hroot.setLayer _
  have htable : (Workbench.ofTable options table).table = table := by
    refine hflat.view_zero.trans ?_
    rw [← hbelow]
  have hsound : Sound (Workbench.ofTable options table) (Workbench.ofTable options table) [] :=
    ⟨rfl, rfl, by rwa [htable], by rwa [htable], nofun, nofun, fun _ _ hD => .inl hD⟩
  exact ⟨htable, hsound⟩

/-- A staging leaves the table as it is, and what it puts aside fits. -/
theorem stage (h : Sound start w forks) (hrun : start.Run w) {locals : Telescope} {d : Declaration}
    {staged : SymbolTable} (hlocals : LocalsOver w.table.Knows locals)
    (hd : Term.placeholder ∉ d.provides)
    (hstage : (d.stage w.options ⟨w.table, locals⟩).outcome = .ok staged) :
    (w.keep staged).table = w.table ∧ Sound start (w.keep staged) (staged.own :: forks) := by
  have hstep : w.Step (w.keep staged) :=
    ⟨.stage locals d, hlocals, hd, perform?_stage.2 ⟨staged, hstage, rfl⟩⟩
  have hflat : (w.keep staged).forest.Flat w.table.own (staged.own :: forks) := by
    rw [keep, h.place]
    exact h.flat.fork staged.own
  have htable : (w.keep staged).table = w.table := by
    have hview := hflat.view_zero
    rw [← h.table_eq, ← h.place] at hview
    exact hview
  have hleaves := Declaration.leaves_of_stage h.selfContained hlocals hstage
  have hfit : staged.own.Fit w.table :=
    ⟨hleaves.tidy, hleaves.order ▸ hleaves.based, hleaves.order ▸ hd⟩
  refine ⟨htable, h.options, h.place, ?_, ?_, ?_, List.forall_mem_cons.2 ⟨?_, ?_⟩, ?_⟩
  · rwa [htable]
  · rw [htable]
    exact h.selfContained
  · rw [htable]
    exact List.forall_mem_cons.2 ⟨hfit, h.fit⟩
  · intro name D hD
    obtain ⟨given, rfl, _⟩ := hleaves.definition name D hD
    have hname : name ≠ Term.placeholder := fun heq => hd (heq ▸ List.mem_cons_self)
    exact ⟨locals, given, w, staged, hrun, hlocals, hstage, hD, hname, .refl⟩
  · intro layer hlayer name D hD
    exact exists_defines_tail (h.staged layer hlayer name D hD) hstep
  · intro name D hD
    rw [htable] at hD
    exact (h.defined name D hD).imp_right fun hdefines => exists_defines_tail hdefines hstep

/-- A publication extends the table by a fork, and every fork still fits. -/
theorem commit (h : Sound start w forks) {place : Nat} (hcommit : w.commit place = .ok w') :
    w.table.Extends w'.table ∧ Sound start w' forks := by
  have hstep : w.Step w' := ⟨.commit place, .nil, List.not_mem_nil, perform?_commit.2 hcommit⟩
  unfold Workbench.commit at hcommit
  cases hforest : w.forest.commit place with
  | error e => simp [hforest, Except.map] at hcommit
  | ok forest =>
    obtain rfl : { w with forest := forest } = w' := by
      simpa [hforest, Except.map] using hcommit
    obtain ⟨layer, hlayer, table, hpub, hflat⟩ := h.flat.commit hforest
    rw [← h.table_eq] at hpub
    have htable : ({ w with forest := forest } : Workbench).table = table := by
      have hview := hflat.view_zero
      rw [← h.place] at hview
      obtain ⟨_, rfl⟩ := SymbolTable.publish_eq_ok_iff.1 hpub
      refine hview.trans ?_
      rw [h.table_eq]
    have hfit := h.fit layer hlayer
    have hextends := hfit.extends_publish hpub
    refine ⟨by rwa [htable], h.options, h.place, by rwa [htable], ?_, ?_, ?_, ?_⟩
    · rw [htable]
      exact hfit.selfContained_publish h.selfContained hpub
    · rw [htable]
      exact fun other hother => (h.fit other hother).mono hextends
    · intro other hother name D hD
      exact exists_defines_tail (h.staged other hother name D hD) hstep
    · -- a definition is one of the fork, or was there before
      intro name D hD
      rw [htable] at hD
      have hreg := congrArg Registration.definition
        (SymbolTable.registration_publish_eq hfit.tidy hpub name)
      replace hreg : some D = _ := hD.symm.trans hreg
      split at hreg
      · exact .inr (exists_defines_tail (h.staged layer hlayer name D hreg.symm) hstep)
      · have hbefore := h.defined name D hreg.symm
        exact hbefore.imp_right fun hdefines => exists_defines_tail hdefines hstep

/-- **Every run keeps the bench sound, and its table grows.** -/
theorem run (h : Sound start w forks) (hw : start.Run w) (hrun : w.Run w') :
    w.table.Extends w'.table ∧ ∃ forks', Sound start w' forks' := by
  induction hrun with
  | refl => exact ⟨.refl _, forks, h⟩
  | @tail w₁ w₂ hbefore hstep ih =>
    obtain ⟨hextends, forks₁, h₁⟩ := ih
    obtain ⟨a, hlocals, hd, hperform⟩ := hstep
    cases a with
    | stage locals d =>
      obtain ⟨staged, hstage, rfl⟩ := perform?_stage.1 hperform
      obtain ⟨htable, h₂⟩ := h₁.stage (hw.trans hbefore) hlocals hd hstage
      rw [htable]
      exact ⟨hextends, _, h₂⟩
    | commit place =>
      obtain ⟨hgrows, h₂⟩ := h₁.commit (perform?_commit.1 hperform)
      exact ⟨hextends.trans hgrows, forks₁, h₂⟩

end Sound

/-- Actions without local variables that are performed one after the other are a run. -/
theorem run_of_performAll {actions : List Action} (hlocals : ∀ a ∈ actions, a.locals = [])
    (hprovides : ∀ a ∈ actions, Term.placeholder ∉ a.provides)
    (h : actions.foldlM perform? w = some w') : w.Run w' := by
  induction actions generalizing w with
  | nil =>
    cases h
    exact .refl
  | cons a rest ih =>
    rw [List.forall_mem_cons] at hlocals hprovides
    obtain ⟨next, hnext, hrest⟩ := Option.bind_eq_some_iff.1 h
    have hstep : w.Step next := by
      refine ⟨a, ?_, hprovides.1, hnext⟩
      rw [hlocals.1]
      exact .nil
    exact .head hstep (ih hlocals.2 hprovides.2 hrest)

end Workbench
end ProofKernel
