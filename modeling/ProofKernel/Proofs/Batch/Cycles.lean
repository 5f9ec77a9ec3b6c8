import ProofKernel.Proofs.Batch.Dependencies
import ProofKernel.Proofs.Graph.Cycles

/-!
# Declarations that need each other

* `NeedsAt` says where a statement finds what it requires, and `depends_dependencyGraph_iff` that
  the graph of declarations holds nothing else.
* `NeedInTurn` is a list of declarations each of which needs the next, and the last the first.
* `needInTurn_of_isCycle`: a cycle of positions is such a list.
* `declarationLayers_of_acyclic` and `declarationLayers_of_not_acyclic`: the layers of declarations
  are those of their graph, or there is a cycle to report.
* `Graph.cycle?_agrees`: a graph has layers or a cycle, and so have declarations.
-/

set_option autoImplicit false
namespace ProofKernel

variable {entries : List (Option Statement)} {i j : Nat} {s s' : Statement}

/-! ## Declarations at positions -/

theorem lookup_declarationsAt :
    (declarationsAt entries).lookup i = some s ↔
      entries[i]? = some (some s) ∧ s.isDeclaration = true := by
  rw [← mem_declarationsAt_iff]
  refine ⟨mem_of_lookup, fun hmem => lookup_eq_some hmem fun s' hmem' => ?_⟩
  have hs := (mem_declarationsAt_iff.1 hmem).1
  rw [(mem_declarationsAt_iff.1 hmem').1] at hs
  cases hs
  rfl

/-- The declaration at one position requires a name that the statement at another one is the first
to provide. -/
def NeedsAt (entries : List (Option Statement)) (i j : Nat) : Prop :=
  ∃ s, entries[i]? = some (some s) ∧ s.isDeclaration = true ∧
    ∃ name ∈ s.requires, FirstProvides entries j name

theorem mem_keys_dependencyGraph : i ∈ (dependencyGraph (declarationsAt entries)).keys ↔
    ∃ s, entries[i]? = some (some s) ∧ s.isDeclaration = true := by
  rw [map_fst_dependencyGraph, List.mem_map]
  constructor
  · rintro ⟨⟨i, s⟩, hmem, rfl⟩
    exact ⟨s, mem_declarationsAt_iff.1 hmem⟩
  · rintro ⟨s, hs⟩
    exact ⟨(i, s), mem_declarationsAt_iff.2 hs, rfl⟩

/-- **A declaration depends on those that are the first to provide what it requires**, and on no
others. -/
theorem depends_dependencyGraph_iff :
    (dependencyGraph (declarationsAt entries)).Depends i j ↔ NeedsAt entries i j := by
  have hprovider : ∀ {s : Statement},
      j ∈ ((s.requires.filterMap (provider? (declarationsAt entries))).mergeSort
        fun a b => a ≤ b).eraseDups ↔ ∃ name ∈ s.requires, FirstProvides entries j name := by
    intro s
    rw [List.mem_eraseDups, List.mem_mergeSort, List.mem_filterMap]
    simp only [provider?_eq_some_iff]
  constructor
  · rintro ⟨_, ds, hmem, hj⟩
    obtain ⟨⟨i', s⟩, hs, heq⟩ := List.mem_map.1 hmem
    cases heq
    obtain ⟨hget, hdecl⟩ := mem_declarationsAt_iff.1 hs
    exact ⟨s, hget, hdecl, hprovider.1 hj⟩
  · rintro ⟨s, hget, hdecl, hneeds⟩
    obtain ⟨name, _, ⟨s', hget', hname⟩, _⟩ := id hneeds
    have hj := mem_keys_dependencyGraph.2
      ⟨s', hget', Statement.isDeclaration_of_mem_provides hname⟩
    exact ⟨hj, _, List.mem_map_of_mem (mem_declarationsAt_iff.2 ⟨hget, hdecl⟩), hprovider.2 hneeds⟩

theorem depends_dependencyGraph (h : (dependencyGraph (declarationsAt entries)).Depends i j) :
    ∃ s s', (declarationsAt entries).lookup i = some s ∧
      (declarationsAt entries).lookup j = some s' ∧ s.needs s' = true := by
  obtain ⟨s, hget, hdecl, name, hname, ⟨s', hget', hprovides⟩, _⟩ :=
    depends_dependencyGraph_iff.1 h
  exact ⟨s, s', lookup_declarationsAt.2 ⟨hget, hdecl⟩,
    lookup_declarationsAt.2 ⟨hget', Statement.isDeclaration_of_mem_provides hprovides⟩,
    Statement.needs_iff.2 ⟨name, hname, hprovides⟩⟩

/-! ## Cycles of declarations -/

/-- Declarations each of which needs the next, and the last the first. -/
structure NeedInTurn (entries : List (Option Statement)) (cycle : List Statement) : Prop where
  nonempty : cycle ≠ []
  declared : ∀ s ∈ cycle, some s ∈ entries ∧ s.isDeclaration = true
  next : cycle.IsChain fun s s' => s.needs s' = true
  closed : ∀ first ∈ cycle.head?, ∀ last ∈ cycle.getLast?, last.needs first = true

/-- The declaration at a position, or a statement that declares nothing where there is none. -/
def declarationAt (entries : List (Option Statement)) (i : Nat) : Statement :=
  ((declarationsAt entries).lookup i).getD (.hint "")

theorem declarationAt_eq (h : (declarationsAt entries).lookup i = some s) :
    declarationAt entries i = s := by
  rw [declarationAt, h, Option.getD_some]

theorem needs_declarationAt (h : (dependencyGraph (declarationsAt entries)).Depends i j) :
    (declarationAt entries i).needs (declarationAt entries j) = true := by
  obtain ⟨s, s', hs, hs', hneeds⟩ := depends_dependencyGraph h
  rwa [declarationAt_eq hs, declarationAt_eq hs']

/-- What depends on something is a declaration. -/
theorem lookup_of_depends (h : (dependencyGraph (declarationsAt entries)).Depends i j) :
    (declarationsAt entries).lookup i = some (declarationAt entries i) := by
  obtain ⟨s, _, hs, _⟩ := depends_dependencyGraph h
  rw [hs, declarationAt_eq hs]

/-- A declaration is called by the first name it provides. -/
theorem head?_provides (h : (declarationsAt entries).lookup i = some s) :
    s.provides.head? = some (s.provides.headD "") := by
  obtain ⟨name, hmem⟩ := Statement.exists_mem_provides (lookup_declarationsAt.1 h).2
  cases hprovides : s.provides with
  | nil =>
    rw [hprovides] at hmem
    cases hmem
  | cons first rest => rfl

/-- **A cycle of positions is one of declarations**, and names one of each. -/
theorem needInTurn_of_isCycle {positions : List Nat}
    (h : (dependencyGraph (declarationsAt entries)).IsCycle positions) :
    ∃ cycle names, positions.map (entries[·]?) = cycle.map (fun s => some (some s)) ∧
      NeedInTurn entries cycle ∧ names.map some = cycle.map (fun s => s.provides.head?) ∧
      (positions.filterMap fun i => (((declarationsAt entries).lookup i).map
        Statement.provides).bind List.head?) = names := by
  have hlookup : ∀ i ∈ positions,
      (declarationsAt entries).lookup i = some (declarationAt entries i) := fun i hi =>
    (h.exists_depends hi).elim fun _ => lookup_of_depends
  refine ⟨positions.map (declarationAt entries),
    positions.map fun i => (declarationAt entries i).provides.headD "", ?_, ⟨?_, ?_, ?_, ?_⟩,
    ?_, ?_⟩
  · rw [List.map_map]
    exact List.map_congr_left fun i hi => (lookup_declarationsAt.1 (hlookup i hi)).1
  · exact mt List.map_eq_nil_iff.1 h.nonempty
  · intro s hs
    obtain ⟨i, hi, rfl⟩ := List.mem_map.1 hs
    obtain ⟨hget, hdecl⟩ := lookup_declarationsAt.1 (hlookup i hi)
    exact ⟨List.mem_of_getElem? hget, hdecl⟩
  · exact (List.isChain_map _).2 (h.next.imp fun _ _ hdep => needs_declarationAt hdep)
  · intro first hfirst last hlast
    rw [List.head?_map] at hfirst
    rw [List.getLast?_map] at hlast
    obtain ⟨i, hi, rfl⟩ := Option.map_eq_some_iff.1 hfirst
    obtain ⟨j, hj, rfl⟩ := Option.map_eq_some_iff.1 hlast
    exact needs_declarationAt (h.closed i hi j hj)
  · rw [List.map_map, List.map_map]
    exact List.map_congr_left fun i hi => (head?_provides (hlookup i hi)).symm
  · rw [← List.filterMap_eq_map]
    refine List.filterMap_congr fun i hi => ?_
    rw [hlookup i hi]
    exact head?_provides (hlookup i hi)

/-! ## Layers or a cycle -/

theorem Graph.countedLayers_eq_true_iff {κ : Type} [LinearOrder κ] {g : Graph κ} (h : g.Ordered) :
    g.countedLayers.2 = true ↔ g.Acyclic := by
  rw [countedLayers_eq h, decide_eq_true_iff]
  exact acyclic_iff h.nodup

/-- **Declarations that do not need each other in turn have the layers of their graph.** -/
theorem declarationLayers_of_acyclic (h : (dependencyGraph (declarationsAt entries)).Acyclic) :
    (dependencyGraph (declarationsAt entries)).countedLayers.2 = true ∧
      declarationLayers entries =
        .ok (dependencyGraph (declarationsAt entries)).countedLayers.1 := by
  have hall := (Graph.countedLayers_eq_true_iff (ordered_dependencyGraph entries)).2 h
  refine ⟨hall, ?_⟩
  unfold declarationLayers
  dsimp only
  rw [if_pos hall]

/-- **Declarations that need each other in turn have no layers**, and the names on a cycle of them
are reported. -/
theorem declarationLayers_of_not_acyclic
    (h : ¬ (dependencyGraph (declarationsAt entries)).Acyclic) :
    (dependencyGraph (declarationsAt entries)).countedLayers.2 = false ∧
      ∃ positions cycle names,
        (dependencyGraph (declarationsAt entries)).cycle? = some positions ∧
        positions.map (entries[·]?) = cycle.map (fun s => some (some s)) ∧
        NeedInTurn entries cycle ∧ names.map some = cycle.map (fun s => s.provides.head?) ∧
        declarationLayers entries = .error (.cycle names) := by
  have hordered := ordered_dependencyGraph entries
  have hall := (Graph.countedLayers_eq_true_iff hordered).not.2 h
  refine ⟨Bool.eq_false_iff.2 hall, ?_⟩
  cases hcycle : (dependencyGraph (declarationsAt entries)).cycle? with
  | none => exact absurd ((Graph.cycle?_eq_none_iff hordered.nodup).1 hcycle) h
  | some positions =>
    obtain ⟨cycle, names, hpositions, hturn, hnames, heq⟩ :=
      needInTurn_of_isCycle (Graph.isCycle_of_cycle? hordered.nodup hcycle)
    refine ⟨positions, cycle, names, rfl, hpositions, hturn, hnames, ?_⟩
    unfold declarationLayers
    dsimp only
    rw [if_neg hall, hcycle, Option.getD_some, heq]

/-- **There are layers or a cycle.**  The search for a cycle finds none iff all nodes of a graph are
placed, and otherwise one in which each node depends on the next and the last on the first.  In the
graph of statements, some of which may be set aside, the nodes are the positions of declarations,
and each depends on those that are the first to provide what it requires.  The layers of statements
are those of this graph if it has no cycle.  If it has one, there are no layers, and the names are
reported of declarations that need each other in turn. -/
theorem Graph.cycle?_agrees :
    (∀ {κ : Type} [LinearOrder κ] (g : Graph κ), g.Ordered →
      (g.cycle? = none ↔ g.countedLayers.2 = true) ∧
        ∀ cycle, g.cycle? = some cycle → g.IsCycle cycle) ∧
      ∀ entries : List (Option Statement),
        let g := dependencyGraph (declarationsAt entries)
        (∀ i, i ∈ g.keys ↔ ∃ s, entries[i]? = some (some s) ∧ s.isDeclaration = true) ∧
          (∀ i j, g.Depends i j ↔ NeedsAt entries i j) ∧
          (g.Acyclic → g.countedLayers.2 = true ∧
            declarationLayers entries = .ok g.countedLayers.1) ∧
          (¬ g.Acyclic → g.countedLayers.2 = false ∧ ∃ positions cycle names,
            g.cycle? = some positions ∧
            positions.map (entries[·]?) = cycle.map (fun s => some (some s)) ∧
            NeedInTurn entries cycle ∧ names.map some = cycle.map (fun s => s.provides.head?) ∧
            declarationLayers entries = .error (.cycle names)) := by
  refine ⟨fun g h => ⟨?_, fun cycle => isCycle_of_cycle? h.nodup⟩, fun entries => ?_⟩
  · rw [countedLayers_eq_true_iff h]
    exact cycle?_eq_none_iff h.nodup
  · exact ⟨fun _ => mem_keys_dependencyGraph, fun _ _ => depends_dependencyGraph_iff,
      declarationLayers_of_acyclic, declarationLayers_of_not_acyclic⟩

/-- Two nodes that depend on each other, with one that depends on both.  And two definitions with a
statement that was set aside between them: each needs the other, or one needs the other and a name
that none provides. -/
theorem Graph.cycle?_agrees_two :
    let g : Graph Nat := [(0, [1, 2]), (1, [2, 9]), (2, [1])]
    let define (name : String) (needed : String) : Option Statement :=
      some (.declare (.definition name none (.global needed)))
    let turning := [define "A" "B", none, define "B" "A"]
    let resting := [define "A" "B", none, define "B" "C"]
    g.Ordered ∧ (g.cycle? = none ↔ g.countedLayers.2 = true) ∧
      (∀ cycle, g.cycle? = some cycle → g.IsCycle cycle) ∧
      declarationLayers turning = .error (.cycle ["A", "B"]) ∧
      declarationLayers resting = .ok [[2], [0]] := by
  intro g define turning resting
  have hordered : g.Ordered := ⟨by decide, by decide⟩
  have hgraph := cycle?_agrees.1 g hordered
  refine ⟨hordered, hgraph.1, hgraph.2, ?_, ?_⟩
  · obtain ⟨-, -, hacyclic, hcyclic⟩ := cycle?_agrees.2 turning
    have hsearch : (dependencyGraph (declarationsAt turning)).cycle? = some [0, 2] := by
      decide +kernel
    have hleft : (dependencyGraph (declarationsAt turning)).countedLayers.2 = false := by
      decide +kernel
    obtain ⟨-, positions, cycle, names, hfound, hcycle, -, hnames, hreport⟩ :=
      hcyclic fun h => Bool.false_ne_true (hleft.symm.trans (hacyclic h).1)
    obtain rfl : positions = [0, 2] := Option.some.inj (hfound.symm.trans hsearch)
    obtain rfl : cycle = [.declare (.definition "A" none (.global "B")),
        .declare (.definition "B" none (.global "A"))] :=
      (List.map_inj_right fun _ _ heq => Option.some.inj (Option.some.inj heq)).1 hcycle.symm
    obtain rfl : names = ["A", "B"] := (List.map_inj_right fun _ _ => Option.some.inj).1 hnames
    exact hreport
  · obtain ⟨-, -, hacyclic, hcyclic⟩ := cycle?_agrees.2 resting
    have hsearch : (dependencyGraph (declarationsAt resting)).cycle? = none := by decide +kernel
    have hplaced : (dependencyGraph (declarationsAt resting)).countedLayers.1 = [[2], [0]] := by
      decide +kernel
    have hgrounded : (dependencyGraph (declarationsAt resting)).Acyclic := by
      by_contra hturn
      obtain ⟨-, positions, _, _, hfound, _⟩ := hcyclic hturn
      cases hsearch.symm.trans hfound
    rw [← hplaced]
    exact (hacyclic hgrounded).2

end ProofKernel
