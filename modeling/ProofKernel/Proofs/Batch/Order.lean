import ProofKernel.Proofs.Batch.Report

/-!
# The order of commands does not matter

A package in which no name is provided twice is checked with the same results whatever the order of
its commands, and whatever the order inside the layers of its declarations.

* `ComeToSame` says what it means for two checks to have the same results.
* `Batch.layers_perm`: the layers of the same statements in another order hold the same
  declarations.
* `Package.check_comeToSame` is the statement.
-/

set_option autoImplicit false
namespace ProofKernel

open Batch

variable {options : Options} {withPrelude cancelled : Bool} {table : SymbolTable}

/-! ## Packages that provide no name twice -/

/-- No name is provided by two commands, twice by one command, or by a command and the table that
the check starts from. -/
structure Package.ProvidesOnce (options : Options) (withPrelude : Bool) (p : Package) : Prop where
  once : ProvidedOnce p.statements
  new : ∀ table, (initialTable options withPrelude).outcome = .ok table →
    ∀ s ∈ p.statements, ∀ name ∈ s.provides, table.defined name = false

theorem Package.ProvidesOnce.perm {p p' : Package} (h : p.ProvidesOnce options withPrelude)
    (hp : p.statements.Perm p'.statements) : p'.ProvidesOnce options withPrelude :=
  ⟨h.once.perm hp, fun table ht s hs => h.new table ht s (hp.mem_iff.2 hs)⟩

/-- Two checks have the same results: a cycle is found by both or by neither, there is a report from
both or from neither, every command has an outcome, equal statements have equal outcomes, and
everything that can be looked up is the same. -/
structure ComeToSame (p p' : Package) (r r' : Except Failure Report) : Prop where
  cycle : (∃ names, r = .error (.cycle names)) ↔ ∃ names, r' = .error (.cycle names)
  succeeds : (∃ report, r = .ok report) ↔ ∃ report', r' = .ok report'
  commands : ∀ report, r = .ok report → report.outcomes.map (·.command) = p.commands
  commands' : ∀ report', r' = .ok report' → report'.outcomes.map (·.command) = p'.commands
  outcome : ∀ report report', r = .ok report → r' = .ok report' →
    ∀ o ∈ report.outcomes, ∀ o' ∈ report'.outcomes, o.command.statement = o'.command.statement →
      o.output = o'.output ∧ o.error = o'.error
  lookup : ∀ report report', r = .ok report → r' = .ok report' →
    ∀ name, report.table.registration name = report'.table.registration name

/-- Checks that fail have the same results if a cycle is found by both or by neither. -/
theorem ComeToSame.of_error {p p' : Package} {e e' : Failure}
    (h : (∃ names, e = .cycle names) ↔ ∃ names, e' = .cycle names) :
    ComeToSame p p' (.error e) (.error e') where
  cycle := by simpa using h
  succeeds := ⟨nofun, nofun⟩
  commands := nofun
  commands' := nofun
  outcome := nofun
  lookup := nofun

/-! ## Layers -/

namespace Batch

variable {statements statements' : List Statement}

/-- The graph of the declarations among statements, by position. -/
def graphOf (statements : List Statement) : Graph Nat :=
  dependencyGraph (declarationsAt (statements.map some))

/-- The layers that are checked are those of the graph, unless nodes are left over. -/
theorem declarationLayers_eq_ok {layers : List (List Nat)} :
    declarationLayers (statements.map some) = .ok layers ↔
      (graphOf statements).layers.2 = [] ∧ (graphOf statements).layers.1 = layers := by
  rw [declarationLayers_eq, ← graphOf]
  split
  · next h => simp [h]
  · next h => simp [h]

theorem declarationLayers_eq_error {e : Failure} :
    declarationLayers (statements.map some) = .error e →
      (graphOf statements).layers.2 ≠ [] ∧ ∃ names, e = .cycle names := by
  rw [declarationLayers_eq, ← graphOf]
  split
  · nofun
  · next h =>
    intro heq
    cases heq
    exact ⟨h, _, rfl⟩

theorem flatten_layers_perm (h : (graphOf statements).layers.2 = []) :
    (graphOf statements).layers.1.flatten.Perm (positions statements) := by
  have hperm := (graphOf statements).layers_perm
  rw [h, Graph.keys, List.map_nil, List.append_nil, graphOf, keys_dependencyGraph] at hperm
  exact hperm

/-- Lists that are related place by place to a list between them are related to each other. -/
theorem forall₂_trans {α β γ : Type} {R : α → β → Prop} {S : β → γ → Prop} {T : α → γ → Prop}
    (hT : ∀ a b c, R a b → S b c → T a c) {as : List α} {bs : List β} {cs : List γ}
    (ha : List.Forall₂ R as bs) (hb : List.Forall₂ S bs cs) : List.Forall₂ T as cs := by
  induction ha generalizing cs with
  | nil =>
    cases hb
    exact .nil
  | cons hab _ ih =>
    cases hb with
    | cons hbc hrest => exact .cons (hT _ _ _ hab hbc) (ih hrest)

theorem declarationsIn_perm {layer layer' : List Nat} (h : layer.Perm layer') :
    (declarationsIn statements layer).Perm (declarationsIn statements layer') := by
  rw [declarationsIn_eq, declarationsIn_eq]
  exact (h.map _).filterMap _

/-- **The layers of the same statements in another order hold the same declarations**, and nodes are
left over for both or for neither. -/
theorem layers_perm (honce : ProvidedOnce statements) (hp : statements.Perm statements') :
    List.Forall₂ (fun l l' => (declarationsIn statements l).Perm (declarationsIn statements' l'))
        (graphOf statements).layers.1 (graphOf statements').layers.1 ∧
      ((graphOf statements).layers.2 = [] ↔ (graphOf statements').layers.2 = []) := by
  obtain ⟨hlayers, hrest⟩ := (relabels_needsGraph honce (.refl _)).layers
  obtain ⟨hlayers', hrest'⟩ := (relabels_needsGraph (honce.perm hp) (hp.symm.filter _)).layers
  refine ⟨forall₂_trans (fun l k l' hl hl' => ?_) hlayers hlayers'.flip, hrest.trans hrest'.symm⟩
  rw [declarationsIn_eq, declarationsIn_eq]
  exact (hl.trans hl'.symm).filterMap _

end Batch

/-! ## The results of a check -/

namespace Package

variable {p p' : Package}

/-- A package that provides no name twice is layered as it stands. -/
theorem ProvidesOnce.kept (h : p.ProvidesOnce options withPrelude)
    (ht : (initialTable options withPrelude).outcome = .ok table) :
    (rejectDuplicates table [] p.statements).map Except.toOption = p.statements.map some := by
  rw [rejectDuplicates_eq_map h.once (h.new table ht), List.map_map]
  rfl

theorem isEmpty_statements (p : Package) : p.statements.isEmpty = p.commands.isEmpty :=
  List.isEmpty_map

theorem commands_reportOn (layers : List (List Nat)) :
    (p.reportOn options table layers).outcomes.map (·.command) = p.commands := by
  unfold reportOn
  dsimp only
  rw [List.map_map]
  refine (List.map_congr_left fun ⟨c, i⟩ _ => ?_).trans (List.zipIdx_map_fst 0 p.commands)
  dsimp only [Function.comp_apply]
  split <;> rfl

/-- **Reports on the same statements in layers of the same declarations say the same.** -/
theorem reportOn_same (h : p.ProvidesOnce options withPrelude)
    (ht : (initialTable options withPrelude).outcome = .ok table)
    (hp : p.statements.Perm p'.statements) {layers layers' : List (List Nat)}
    (hflat : layers.flatten.Perm (positions p.statements))
    (hflat' : layers'.flatten.Perm (positions p'.statements))
    (hlayers : List.Forall₂ (fun l l' =>
      (declarationsIn p.statements l).Perm (declarationsIn p'.statements l')) layers layers') :
    (∀ o ∈ (p.reportOn options table layers).outcomes,
      ∀ o' ∈ (p'.reportOn options table layers').outcomes,
        o.command.statement = o'.command.statement → o.output = o'.output ∧ o.error = o'.error) ∧
      (p.reportOn options table layers).table.Alike (p'.reportOn options table layers').table := by
  have h' := h.perm hp
  obtain ⟨errors, hchecked, halike, houtcomes⟩ :=
    @outcomes_reportOn options table p layers h.once (h.new table ht) hflat
  obtain ⟨errors', hchecked', halike', houtcomes'⟩ :=
    @outcomes_reportOn options table p' layers' h'.once (h'.new table ht) hflat'
  obtain ⟨hfinal, herrors⟩ := hchecked.same hchecked'
    (List.forall₂_map_left_iff.2 (List.forall₂_map_right_iff.2 hlayers)) fun _ => rfl
  refine ⟨fun o ho o' ho' heq => ?_, halike.trans (hfinal.trans halike'.symm)⟩
  rw [houtcomes] at ho
  rw [houtcomes'] at ho'
  obtain ⟨⟨c, i⟩, hc, rfl⟩ := List.mem_map.1 ho
  obtain ⟨⟨c', i'⟩, hc', rfl⟩ := List.mem_map.1 ho'
  dsimp only at heq ⊢
  -- the statement is one of the package, so that a declaration among them is in a layer
  have hmem : c.statement ∈ p.statements :=
    List.mem_map_of_mem (List.fst_mem_of_mem_zipIdx hc)
  have hresult : c.statement.result options
      (checkLayers options p.statements table 0 layers).value.1 errors =
    c.statement.result options
      (checkLayers options p'.statements table 0 layers').value.1 errors' := by
    cases hs : c.statement with
    | declare d =>
      have hd : d ∈ declared p.statements := List.mem_filterMap.2 ⟨_, hs ▸ hmem, rfl⟩
      have hd := (flatten_declarationsIn_perm h.once hflat).mem_iff.2 hd
      exact congrArg (Prod.mk "") (herrors d hd)
    | _ =>
      rw [Statement.result_query rfl, Statement.result_query rfl, hfinal.answer rfl]
  rw [← heq, hresult]
  exact ⟨rfl, rfl⟩

/-- There is nothing to do only for a package without commands. -/
theorem isEmpty_work (hrest : (graphOf p.statements).layers.2 = []) :
    ((graphOf p.statements).layers.1.isEmpty && (queriesOf p.statements).isEmpty) =
      p.commands.isEmpty := by
  rw [Bool.eq_iff_iff, Bool.and_eq_true, List.isEmpty_iff, List.isEmpty_iff, List.isEmpty_iff]
  constructor
  · rintro ⟨hlayers, hqueries⟩
    have hpositions := flatten_layers_perm hrest
    rw [hlayers, List.flatten_nil, List.nil_perm] at hpositions
    have hnone : p.statements = [] := by
      refine List.eq_nil_iff_forall_not_mem.2 fun s hs => ?_
      obtain ⟨i, hi⟩ := List.mem_iff_getElem?.1 hs
      cases hdecl : s.isDeclaration with
      | true => exact List.not_mem_nil (hpositions ▸ mem_positions.2 ⟨s, hi, hdecl⟩)
      | false => exact List.not_mem_nil (hqueries ▸ mem_queriesOf.2 ⟨hi, hdecl⟩)
    exact List.map_eq_nil_iff.1 hnone
  · intro hcommands
    have hnone : p.statements = [] := by rw [statements, hcommands, List.map_nil]
    rw [hnone]
    exact ⟨congrArg Prod.fst (Graph.layers_of_ready_eq_nil rfl), rfl⟩

/-- The results of a check of a package that provides no name twice. -/
theorem checkIn_eq (h : p.ProvidesOnce options withPrelude)
    (ht : (initialTable options withPrelude).outcome = .ok table)
    (arrange : List (List Nat) → List (List Nat)) :
    ((graphOf p.statements).layers.2 ≠ [] ∧
        ∃ names, p.checkIn arrange options withPrelude cancelled = .error (.cycle names)) ∨
      (graphOf p.statements).layers.2 = [] ∧
        p.checkIn arrange options withPrelude cancelled =
          if cancelled && !p.commands.isEmpty then .error (.external "context canceled")
          else .ok (p.reportOn options table (arrange (graphOf p.statements).layers.1)) := by
  unfold checkIn
  rw [ht]
  dsimp only
  rw [h.kept ht]
  cases hlayers : declarationLayers (p.statements.map some) with
  | error e =>
    obtain ⟨hrest, names, rfl⟩ := declarationLayers_eq_error hlayers
    exact .inl ⟨hrest, names, rfl⟩
  | ok layers =>
    obtain ⟨hrest, rfl⟩ := declarationLayers_eq_ok.1 hlayers
    refine .inr ⟨hrest, ?_⟩
    dsimp only
    rw [isEmpty_work hrest]

/-- Reports on the same statements in layers of the same declarations have the same results. -/
theorem comeToSame_reportOn (h : p.ProvidesOnce options withPrelude)
    (ht : (initialTable options withPrelude).outcome = .ok table)
    (hp : p.statements.Perm p'.statements) {layers layers' : List (List Nat)}
    (hflat : layers.flatten.Perm (positions p.statements))
    (hflat' : layers'.flatten.Perm (positions p'.statements))
    (hlayers : List.Forall₂ (fun l l' =>
      (declarationsIn p.statements l).Perm (declarationsIn p'.statements l')) layers layers') :
    ComeToSame p p' (.ok (p.reportOn options table layers))
      (.ok (p'.reportOn options table layers')) where
  cycle := ⟨nofun, nofun⟩
  succeeds := ⟨fun _ => ⟨_, rfl⟩, fun _ => ⟨_, rfl⟩⟩
  commands := by
    rintro _ ⟨⟩
    exact commands_reportOn layers
  commands' := by
    rintro _ ⟨⟩
    exact commands_reportOn layers'
  outcome := by
    rintro _ _ ⟨⟩ ⟨⟩
    exact (reportOn_same h ht hp hflat hflat' hlayers).1
  lookup := by
    rintro _ _ ⟨⟩ ⟨⟩
    exact (reportOn_same h ht hp hflat hflat' hlayers).2

/-- Two checks of the same statements that take the declarations of a layer in orders of their own
have the same results. -/
theorem comeToSame_checkIn (h : p.ProvidesOnce options withPrelude)
    (hp : p.statements.Perm p'.statements) {arrange arrange' : List (List Nat) → List (List Nat)}
    (ha : ∀ layers, List.Forall₂ List.Perm (arrange layers) layers)
    (ha' : ∀ layers, List.Forall₂ List.Perm (arrange' layers) layers) :
    ComeToSame p p' (p.checkIn arrange options withPrelude cancelled)
      (p'.checkIn arrange' options withPrelude cancelled) := by
  cases ht : (initialTable options withPrelude).outcome with
  | error e =>
    unfold checkIn
    rw [ht]
    exact .of_error Iff.rfl
  | ok table =>
    obtain ⟨hlayers, hrest⟩ := layers_perm h.once hp
    rcases checkIn_eq h ht arrange with ⟨hleft, names, hcheck⟩ | ⟨hleft, hcheck⟩ <;>
      rcases checkIn_eq (h.perm hp) ht arrange' with ⟨hleft', names', hcheck'⟩ | ⟨hleft', hcheck'⟩
    · rw [hcheck, hcheck']
      exact .of_error ⟨fun _ => ⟨_, rfl⟩, fun _ => ⟨_, rfl⟩⟩
    · exact absurd (hrest.2 hleft') hleft
    · exact absurd (hrest.1 hleft) hleft'
    · have hempty : p.commands.isEmpty = p'.commands.isEmpty := by
        rw [← isEmpty_statements, ← isEmpty_statements, hp.isEmpty_eq]
      rw [hcheck, hcheck', hempty]
      split
      · exact .of_error Iff.rfl
      · refine comeToSame_reportOn h ht hp ?_ ?_ ?_
        · exact (List.Perm.flatten_congr (ha _)).trans (flatten_layers_perm hleft)
        · exact (List.Perm.flatten_congr (ha' _)).trans (flatten_layers_perm hleft')
        · refine forall₂_trans (fun l k l' hl hl' => ?_) (ha _)
            (forall₂_trans (fun k k' l' hk hl' => hk.trans (declarationsIn_perm hl'.symm)) hlayers
              (List.Forall₂.flip (ha' _)))
          exact (declarationsIn_perm hl).trans hl'

/-- **The order of commands does not matter.**  A package that provides no name twice is checked
with the same results however its commands are distributed over files and ordered there, and in
whatever order the declarations of each layer are taken. -/
theorem check_comeToSame (h : p.ProvidesOnce options withPrelude)
    (hp : p.statements.Perm p'.statements) :
    ComeToSame p p' (p.check options withPrelude cancelled).value
        (p'.check options withPrelude cancelled).value ∧
      ∀ arrange : List (List Nat) → List (List Nat),
        (∀ layers, List.Forall₂ List.Perm (arrange layers) layers) →
        ComeToSame p p (p.check options withPrelude cancelled).value
          (p.checkIn arrange options withPrelude cancelled) := by
  have hid : ∀ layers : List (List Nat), List.Forall₂ List.Perm (id layers) layers :=
    fun layers => List.forall₂_same.2 fun _ _ => .refl _
  refine ⟨?_, fun arrange ha => ?_⟩
  · rw [check_value, check_value]
    exact comeToSame_checkIn h hp hid hid
  · rw [check_value]
    exact comeToSame_checkIn h (.refl _) hid ha

/-- A definition and a query that needs it, in either order. -/
theorem check_comeToSame_two :
    let declaring : Command :=
      ⟨⟨0, 1, 1⟩, [], .declare (.definition "T" (some (.sort .prop)) (.global "True"))⟩
    let asking : Command := ⟨⟨0, 1, 1⟩, [], .check (.global "T")⟩
    let apart : Package := ⟨[⟨"a", [asking]⟩, ⟨"b", [declaring]⟩]⟩
    let together : Package := ⟨[⟨"c", [declaring, asking]⟩]⟩
    apart.ProvidesOnce ⟨100, false, false, false⟩ true ∧
      ComeToSame apart together (apart.check ⟨100, false, false, false⟩ true false).value
        (together.check ⟨100, false, false, false⟩ true false).value := by
  intro declaring asking apart together
  obtain ⟨table, htable, hnew⟩ :=
    Verdict.exists_ok_of_any (v := initialTable ⟨100, false, false, false⟩ true)
      (P := fun table => ∀ s ∈ apart.statements, ∀ name ∈ s.provides, table.defined name = false)
      (by decide +kernel)
  have honce : apart.ProvidesOnce ⟨100, false, false, false⟩ true := by
    refine ⟨List.nodup_singleton "T", fun table' htable' => ?_⟩
    rw [htable] at htable'
    cases htable'
    exact hnew
  have hp : apart.statements.Perm together.statements := List.Perm.swap _ _ []
  exact ⟨honce, (check_comeToSame honce hp).1⟩

end Package

end ProofKernel
