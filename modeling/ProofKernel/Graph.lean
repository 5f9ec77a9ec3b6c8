/-!
# Dependency graphs

A finite graph as the list of its nodes, in increasing order and each once, with the nodes they
depend on.  A dependency on something that is no node is ignored.

* `Graph.layers` takes away, wave after wave, the nodes that depend on nothing that is left.
* `Graph.cycle?` searches, depth first, for nodes that depend on each other.
-/

set_option autoImplicit false
namespace ProofKernel

/-- Nodes with their dependencies. -/
abbrev Graph (κ : Type) : Type := List (κ × List κ)

namespace Graph

variable {κ : Type} [DecidableEq κ]

/-- The nodes. -/
def keys (g : Graph κ) : List κ :=
  g.map Prod.fst

/-- Whether nothing that a node depends on is a node of the graph. -/
def isReady (g : Graph κ) (node : κ × List κ) : Bool :=
  node.2.all fun d => d ∉ g.keys

/-- The nodes that are ready. -/
def ready (g : Graph κ) : Graph κ :=
  g.filter g.isReady

/-- The nodes that are not. -/
def waiting (g : Graph κ) : Graph κ :=
  g.filter fun node => !g.isReady node

theorem length_waiting {g : Graph κ} (h : g.ready ≠ []) : g.waiting.length < g.length := by
  obtain ⟨node, hnode⟩ := List.exists_mem_of_ne_nil _ h
  obtain ⟨hmem, hready⟩ := List.mem_filter.1 hnode
  exact List.length_filter_lt_length_iff_exists.2 ⟨node, hmem, by simp [hready]⟩

/-- The layers of a graph, and the nodes that lie on a cycle or depend on one. -/
def layers (g : Graph κ) : List (List κ) × Graph κ :=
  if _h : g.ready = [] then ([], g)
  else
    let (later, rest) := layers g.waiting
    (g.ready.keys :: later, rest)
termination_by g.length
decreasing_by exact length_waiting _h

/-- The dependencies of a node that are nodes themselves. -/
def dependencies (g : Graph κ) (k : κ) : List κ :=
  ((g.lookup k).getD []).filter (· ∈ g.keys)

/-- Visits a node at most `n` levels deep.  `path` leads to it from the start of the search,
`visited` are the nodes seen so far.  Fails with the first cycle that is closed. -/
def visit (g : Graph κ) : Nat → List κ → List κ → κ → Except (List κ) (List κ)
  | 0, _, visited, _ => .ok visited
  | n + 1, path, visited, k =>
    if k ∈ path then .error (path.dropWhile (· ≠ k))
    else if k ∈ visited then .ok visited
    else (g.dependencies k).foldlM (g.visit n (path ++ [k])) (k :: visited)

/-- Nodes each of which depends on the next, and the last on the first.  A path has at most as many
nodes as the graph before one repeats. -/
def cycle? (g : Graph κ) : Option (List κ) :=
  match g.keys.foldlM (g.visit (g.length + 1) []) [] with
  | .ok _ => none
  | .error cycle => some cycle

end Graph

/-! ## Graphs from unsorted nodes -/

/-- A graph on names: nodes in increasing order, each with its dependencies in increasing order. -/
def Graph.ofNames (nodes : List (String × List String)) : Graph String :=
  let sorted (names : List String) : List String := (names.mergeSort fun a b => a ≤ b).eraseDups
  (sorted (nodes.map Prod.fst)).map fun k => (k, sorted ((nodes.lookup k).getD []))

end ProofKernel
