import ProofKernel.Proofs.Batch.Dependencies
import ProofKernel.Proofs.Support.Staging

/-!
# Checking layers of declarations

The declarations of a layer are judged over one table and published one after the other.  As their
names are distinct and new, none gets in the way of another.

* `Published` says what is known after a layer: what the accepted declarations register, and what
  was known before.  It does not mention an order.
* `Checked` is a run through layers, with the error that each declaration is rejected for.
* `Checked.same`: two runs through the same layers, each in an order of its own, from tables that
  know the same, end in tables that know the same and reject the same declarations for the same
  errors.
* `Batch.checked_checkLayers`: checking layers of positions is such a run.
-/

set_option autoImplicit false
namespace ProofKernel

variable {options : Options}

/-! ## Tables that know the same -/

/-- Tables that know the same agree on every set. -/
theorem SymbolTable.Alike.shared {table table' : SymbolTable} (h : table.Alike table') :
    Shared (fun _ => True) table table' where
  agree := fun name _ => h name
  entries := fun _ _ => ⟨fun _ _ => ⟨fun _ _ => trivial, fun _ _ => trivial⟩,
    fun _ _ => ⟨fun _ _ => trivial, trivial⟩, fun _ _ => ⟨fun _ _ => trivial, fun _ _ => trivial⟩,
    fun _ _ _ _ => trivial⟩
  literal := fun _ => trivial

theorem SymbolTable.Alike.judge {table table' : SymbolTable} (h : table.Alike table')
    (d : Declaration) : d.judge options table = d.judge options table' :=
  h.shared.judge ⟨fun _ _ => trivial, fun _ _ _ _ => trivial⟩

/-! ## One layer -/

/-- The error of a judgement that is a rejection. -/
def rejection? {α : Type} : Except KernelError α → Option KernelError
  | .ok _ => none
  | .error e => some e

@[simp] theorem rejection?_ok {α : Type} (a : α) : rejection? (.ok a) = none := rfl

@[simp] theorem rejection?_error {α : Type} (e : KernelError) :
    rejection? (.error e : Except KernelError α) = some e := rfl

/-- What is known after declarations were judged over one table and published into another. -/
structure Published (options : Options) (seen : SymbolTable) (ds : List Declaration)
    (table table' : SymbolTable) : Prop where
  accepted : ∀ d ∈ ds, ∀ layer, d.judge options seen = .ok layer → ∀ name ∈ d.provides,
    table'.registration name = layer.registration name
  other : ∀ name, (∀ d ∈ ds, ∀ layer, d.judge options seen = .ok layer → name ∉ d.provides) →
    table'.registration name = table.registration name
  hints : table'.hints = table.hints

/-- What is known after a layer depends neither on the order of its declarations nor on how the
table came to know what it knows. -/
theorem Published.alike {ds ds' : List Declaration} {table table' final final' : SymbolTable}
    (h : Published options table ds table final) (h' : Published options table' ds' table' final')
    (hp : ds.Perm ds') (ht : table.Alike table') : final.Alike final' := by
  intro name
  by_cases hname : ∃ d ∈ ds, ∃ layer, d.judge options table = .ok layer ∧ name ∈ d.provides
  · obtain ⟨d, hd, layer, hjudge, hmem⟩ := hname
    rw [h.accepted d hd layer hjudge name hmem,
      h'.accepted d (hp.mem_iff.1 hd) layer (ht.judge d ▸ hjudge) name hmem]
  · have hnone : ∀ d ∈ ds, ∀ layer, d.judge options table = .ok layer → name ∉ d.provides :=
      fun d hd layer hjudge hmem => hname ⟨d, hd, layer, hjudge, hmem⟩
    rw [h.other name hnone, ht name, h'.other name]
    intro d hd layer hjudge
    exact hnone d (hp.mem_iff.2 hd) layer (ht.judge d ▸ hjudge)

/-- The names that a list of declarations provides. -/
def provided (ds : List Declaration) : List String :=
  ds.flatMap (·.provides)

/-- A name that no declaration of a layer provides is known as before. -/
theorem Published.registration_eq {ds : List Declaration} {seen table table' : SymbolTable}
    (h : Published options seen ds table table') {name : String} (hname : name ∉ provided ds) :
    table'.registration name = table.registration name :=
  h.other name fun d hd _ _ hmem => hname (List.mem_flatMap.2 ⟨d, hd, hmem⟩)

/-! ## Publishing a layer -/

namespace Batch

theorem value_mapM {α β : Type} (f : α → Traced β) (l : List α) :
    (l.mapM f).value = l.map fun a => (f a).value := by
  have hloop : ∀ acc : List β,
      (List.mapM.loop f l acc).value = acc.reverse ++ l.map fun a => (f a).value := by
    induction l with
    | nil => simp [List.mapM.loop]
    | cons a rest ih =>
      intro acc
      rw [List.mapM.loop, Traced.value_bind, ih, List.reverse_cons, List.append_assoc]
      rfl
  rw [List.mapM, hloop]
  rfl

theorem value_stageLayer (table : SymbolTable) (items : List (Nat × Declaration)) :
    (stageLayer options table items).value =
      items.map fun p => (p.1, (p.2.stage options (.ofTable table)).outcome) := by
  unfold stageLayer
  rw [value_mapM]

/-- A staged declaration whose names are not taken is published. -/
theorem publish_staged {table current staged : SymbolTable} {d : Declaration}
    (hstage : (d.stage options (.ofTable table)).outcome = .ok staged)
    (hnew : ∀ name ∈ d.provides, current.defined name = false) :
    ∃ published, current.publish staged.own = .ok published ∧ published.hints = current.hints ∧
      ∀ name, published.registration name =
        if name ∈ d.provides then staged.own.registration name else current.registration name := by
  obtain ⟨⟨T, _, rfl⟩, hnodup, _⟩ := Declaration.stage_eq_ok hstage
  have hpub : current.publish (d.layer T) =
      .ok ⟨current.own.merge (d.layer T), current.below⟩ := by
    refine SymbolTable.publish_eq_ok_iff.2 ⟨fun name hname => ?_, rfl⟩
    rw [Declaration.order_layer] at hname
    exact hnew name hname
  refine ⟨_, hpub, ?_, fun name => ?_⟩
  · simp [SymbolTable.hints, SymbolTable.layers, Layer.merge]
  · rw [SymbolTable.registration_publish_eq (Declaration.tidy_layer hnodup T) hpub,
      Declaration.order_layer]

/-- The layer that was judged is the one that was staged. -/
theorem judge_eq_of_stage {table staged : SymbolTable} {d : Declaration}
    (hstage : (d.stage options (.ofTable table)).outcome = .ok staged) :
    d.judge options table = .ok staged.own := by
  rw [Declaration.judge, hstage]
  rfl

/-- **Publishing the forks of a layer** registers what the accepted declarations bring, and reports
the errors of the others. -/
theorem publishLayer_spec {seen table : SymbolTable} {items : List (Nat × Declaration)}
    (hnodup : (provided (items.map Prod.snd)).Nodup)
    (hnew : ∀ name ∈ provided (items.map Prod.snd), table.defined name = false) :
    let result := publishLayer table
      (items.map fun p => (p.1, (p.2.stage options (.ofTable seen)).outcome))
    Published options seen (items.map Prod.snd) table result.1 ∧
      result.2 = items.filterMap fun p => (rejection? (p.2.judge options seen)).map (p.1, ·) := by
  induction items generalizing table with
  | nil => exact ⟨⟨nofun, fun _ _ => rfl, rfl⟩, rfl⟩
  | cons p rest ih =>
    obtain ⟨i, d⟩ := p
    rw [List.map_cons, provided, List.flatMap_cons, ← provided] at hnodup hnew
    obtain ⟨_, hrest, hdisjoint⟩ := List.nodup_append.1 hnodup
    rw [List.forall_mem_append] at hnew
    cases hstage : (d.stage options (.ofTable seen)).outcome with
    | error e =>
      have hjudge : d.judge options seen = .error e := by rw [Declaration.judge, hstage]; rfl
      obtain ⟨hpub, herrors⟩ := ih hrest hnew.2
      simp only [List.map_cons, hstage, publishLayer, List.filterMap_cons, hjudge,
        rejection?_error, Option.map_some, herrors, and_true]
      refine ⟨List.forall_mem_cons.2 ⟨?_, hpub.accepted⟩, fun name hname => ?_, hpub.hints⟩
      · intro layer hlayer
        rw [hjudge] at hlayer
        cases hlayer
      · exact hpub.other name (List.forall_mem_cons.1 hname).2
    | ok staged =>
      have hjudge := judge_eq_of_stage hstage
      obtain ⟨published, hone, honeHints, hreg⟩ := publish_staged hstage hnew.1
      -- the names of the other declarations are still new
      have hnew' : ∀ name ∈ provided (rest.map Prod.snd), published.defined name = false := by
        intro name hname
        have hd : name ∉ d.provides := fun hmem => hdisjoint name hmem name hname rfl
        rw [SymbolTable.defined_eq_false_iff, hreg, if_neg hd, ← SymbolTable.defined_eq_false_iff]
        exact hnew.2 name hname
      obtain ⟨hpub, herrors⟩ := ih hrest hnew'
      simp only [List.map_cons, hstage, publishLayer, hone, List.filterMap_cons, hjudge,
        rejection?_ok, Option.map_none, herrors, and_true]
      refine ⟨List.forall_mem_cons.2 ⟨?_, hpub.accepted⟩, fun name hname => ?_,
        hpub.hints.trans honeHints⟩
      · intro layer hlayer name hname
        rw [hjudge] at hlayer
        cases hlayer
        have hold : name ∉ provided (rest.map Prod.snd) := fun hmem =>
          hdisjoint name hname name hmem rfl
        rw [hpub.registration_eq hold, hreg, if_pos hname]
      · obtain ⟨hd, hname⟩ := List.forall_mem_cons.1 hname
        rw [hpub.other name hname, hreg, if_neg (hd staged.own hjudge)]

end Batch

/-! ## Runs through layers -/

/-- A run through layers of declarations from one table to another, with the errors that
declarations are rejected for. -/
inductive Checked (options : Options) (errors : Declaration → Option KernelError) :
    List (List Declaration) → SymbolTable → SymbolTable → Prop
  | nil (table : SymbolTable) : Checked options errors [] table table
  | cons {ds : List Declaration} {later : List (List Declaration)}
      {table next final : SymbolTable} (h : Published options table ds table next)
      (herrors : ∀ d ∈ ds, errors d = rejection? (d.judge options table))
      (hlater : Checked options errors later next final) :
      Checked options errors (ds :: later) table final

namespace Checked

variable {errors errors' : Declaration → Option KernelError}
  {layers layers' : List (List Declaration)} {table table' final final' : SymbolTable}

/-- Only the errors of the declarations of the layers matter. -/
theorem congr (h : Checked options errors layers table final)
    (herrors : ∀ d ∈ layers.flatten, errors d = errors' d) :
    Checked options errors' layers table final := by
  induction h with
  | nil table => exact .nil table
  | cons h hd _ ih =>
    rw [List.flatten_cons, List.forall_mem_append] at herrors
    exact .cons h (fun d hmem => (herrors.1 d hmem).symm.trans (hd d hmem)) (ih herrors.2)

/-- **The order inside the layers does not matter.** -/
theorem same (h : Checked options errors layers table final)
    (h' : Checked options errors' layers' table' final')
    (hp : List.Forall₂ List.Perm layers layers') (ht : table.Alike table') :
    final.Alike final' ∧ ∀ d ∈ layers.flatten, errors d = errors' d := by
  induction h generalizing layers' table' with
  | nil table =>
    cases hp
    cases h'
    exact ⟨ht, nofun⟩
  | cons h hd _ ih =>
    cases hp with
    | cons hds hrest =>
      cases h' with
      | cons h' hd' hlater' =>
        obtain ⟨hfinal, herrors⟩ := ih hlater' hrest (h.alike h' hds ht)
        refine ⟨hfinal, List.forall_mem_append.2 ⟨fun d hmem => ?_, herrors⟩⟩
        rw [hd d hmem, hd' d (hds.mem_iff.1 hmem), ht.judge d]

/-- A name that no declaration of the layers provides is known as before. -/
theorem registration_eq (h : Checked options errors layers table final) {name : String}
    (hname : name ∉ provided layers.flatten) :
    final.registration name = table.registration name := by
  induction h with
  | nil => rfl
  | cons h _ _ ih =>
    rw [List.flatten_cons, provided, List.flatMap_append, List.mem_append, not_or] at hname
    rw [ih hname.2, h.registration_eq hname.1]

theorem hints_eq (h : Checked options errors layers table final) : final.hints = table.hints := by
  induction h with
  | nil => rfl
  | cons h _ _ ih => rw [ih, h.hints]

end Checked

namespace Batch

variable {statements : List Statement}

theorem mem_declarationsOf {layer : List Nat} {i : Nat} {d : Declaration} :
    (i, d) ∈ declarationsOf statements layer ↔ i ∈ layer ∧ statements[i]? = some (.declare d) := by
  unfold declarationsOf
  rw [List.mem_filterMap]
  constructor
  · rintro ⟨j, hj, hsome⟩
    obtain ⟨e, he, heq⟩ := Option.map_eq_some_iff.1 hsome
    cases heq
    obtain ⟨s, hs, hdecl⟩ := Option.bind_eq_some_iff.1 he
    cases s with
    | declare e =>
      cases hdecl
      exact ⟨hj, hs⟩
    | _ => cases hdecl
  · rintro ⟨hi, hs⟩
    exact ⟨i, hi, by rw [hs]; rfl⟩

theorem value_checkLayers_cons (table : SymbolTable) (depth : Nat) (layer : List Nat)
    (rest : List (List Nat)) :
    (checkLayers options statements table depth (layer :: rest)).value =
      let published := publishLayer table
        ((declarationsOf statements layer).map fun p =>
          (p.1, (p.2.stage options (.ofTable table)).outcome))
      let later := (checkLayers options statements published.1 (depth + 1) rest).value
      (later.1, published.2 ++ later.2) := by
  rw [← value_stageLayer]
  rfl

/-- The declarations at the positions of a layer. -/
def declarationsIn (statements : List Statement) (layer : List Nat) : List Declaration :=
  (declarationsOf statements layer).map Prod.snd

/-- **Checking layers of positions is a run through the declarations there**, and what is reported
for a position is the error of the declaration at it. -/
theorem checked_checkLayers {table : SymbolTable} {depth : Nat} {layers : List (List Nat)}
    (hnodup : (provided (layers.map (declarationsIn statements)).flatten).Nodup)
    (hnew : ∀ name ∈ provided (layers.map (declarationsIn statements)).flatten,
      table.defined name = false) :
    ∃ errors, Checked options errors (layers.map (declarationsIn statements)) table
        (checkLayers options statements table depth layers).value.1 ∧
      (checkLayers options statements table depth layers).value.2 =
        (layers.flatMap (declarationsOf statements)).filterMap fun p =>
          (errors p.2).map (p.1, ·) := by
  induction layers generalizing table depth with
  | nil => exact ⟨fun _ => none, .nil table, rfl⟩
  | cons layer rest ih =>
    rw [List.map_cons, List.flatten_cons, provided, List.flatMap_append, ← provided, ← provided]
      at hnodup hnew
    obtain ⟨hlayer, hrest, hdisjoint⟩ := List.nodup_append.1 hnodup
    rw [List.forall_mem_append] at hnew
    obtain ⟨hpub, hhere⟩ := publishLayer_spec hlayer hnew.1
    have hnew' : ∀ name ∈ provided (rest.map (declarationsIn statements)).flatten,
        (publishLayer table ((declarationsOf statements layer).map fun p =>
          (p.1, (p.2.stage options (.ofTable table)).outcome))).1.defined name = false := by
      intro name hname
      have hold : name ∉ provided (declarationsIn statements layer) := fun hmem =>
        hdisjoint name hmem name hname rfl
      rw [SymbolTable.defined_eq_false_iff, hpub.registration_eq hold,
        ← SymbolTable.defined_eq_false_iff]
      exact hnew.2 name hname
    obtain ⟨errors, hrun, hthere⟩ := @ih _ (depth + 1) hrest hnew'
    -- a declaration of this layer is in no later one, since its name would be provided twice
    have hother : ∀ d ∈ (rest.map (declarationsIn statements)).flatten,
        d ∉ declarationsIn statements layer := by
      intro d hd hmem
      obtain ⟨name, hname⟩ : ∃ name, name ∈ d.provides :=
        Statement.exists_mem_provides (s := .declare d) rfl
      exact hdisjoint name (List.mem_flatMap.2 ⟨d, hmem, hname⟩) name
        (List.mem_flatMap.2 ⟨d, hd, hname⟩) rfl
    refine ⟨fun d => if d ∈ declarationsIn statements layer then
      rejection? (d.judge options table) else errors d, ?_, ?_⟩
    · rw [value_checkLayers_cons]
      refine .cons hpub (fun d hd => if_pos hd) (hrun.congr fun d hd => ?_)
      rw [if_neg (hother d hd)]
    · rw [value_checkLayers_cons]
      dsimp only
      rw [hhere, hthere, List.flatMap_cons, List.filterMap_append]
      congr 1
      · refine List.filterMap_congr fun p hp => ?_
        have hin : p.2 ∈ declarationsIn statements layer := List.mem_map_of_mem hp
        rw [if_pos hin]
      · refine List.filterMap_congr fun p hp => ?_
        obtain ⟨l, hl, hmem⟩ := List.mem_flatMap.1 hp
        rw [if_neg (hother p.2 (List.mem_flatten.2 ⟨_, List.mem_map_of_mem hl,
          List.mem_map_of_mem hmem⟩))]

end Batch
end ProofKernel
