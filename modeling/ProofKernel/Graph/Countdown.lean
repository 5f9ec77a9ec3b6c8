import ProofKernel.Graph

/-!
# Layers by counting down

The layers of a graph in one pass over its dependencies.  A node has a counter of the dependencies
that are not placed yet.  Placing a layer counts down the nodes that depend on it, and those whose
counters reach zero are the next layer.

* `Graph.countDown` counts down one node.
* `Graph.placeFrom` places layer after layer.
* `Graph.countedLayers` starts with the nodes that depend on nothing, and says whether every node
  was placed.
-/

set_option autoImplicit false
namespace ProofKernel
namespace Graph

variable {κ : Type} [DecidableEq κ]

/-- The number of dependencies of a node that are nodes themselves. -/
def pending (g : Graph κ) (k : κ) : Int :=
  (g.dependencies k).length

/-- The nodes that depend on a node, in the order of the graph. -/
def dependents (g : Graph κ) (k : κ) : List κ :=
  keys (g.filter fun node => k ∈ node.2)

/-- Counts down a node, which is added to those that can be placed when its counter reaches zero. -/
def countDown (state : (κ → Int) × List κ) (k : κ) : (κ → Int) × List κ :=
  let left := state.1 k - 1
  (fun j => if j = k then left else state.1 j, if left = 0 then state.2 ++ [k] else state.2)

/-- The nodes whose counters have not reached zero. -/
def unplaced (g : Graph κ) (counters : κ → Int) : List κ :=
  g.keys.filter fun k => 0 < counters k

/-! ## The end of the countdown -/

theorem mem_keys_of_dependents {g : Graph κ} {layer : List κ} {k : κ}
    (h : k ∈ layer.flatMap g.dependents) : k ∈ g.keys := by
  obtain ⟨d, _, hd⟩ := List.mem_flatMap.1 h
  obtain ⟨node, hnode, rfl⟩ := List.mem_map.1 hd
  exact List.mem_map_of_mem (List.mem_filter.1 hnode).1

/-- A node whose counter reaches zero is one less that is not placed. -/
theorem length_unplaced_countDown {g : Graph κ} {k : κ} (hk : k ∈ g.keys)
    (state : (κ → Int) × List κ) :
    (g.unplaced (countDown state k).1).length + (countDown state k).2.length ≤
      (g.unplaced state.1).length + state.2.length := by
  have hsub : ∀ j, 0 < (countDown state k).1 j → 0 < state.1 j := by
    intro j hj
    simp only [countDown] at hj
    split at hj
    · next h => subst h; omega
    · exact hj
  have hfilter : g.unplaced (countDown state k).1 =
      (g.unplaced state.1).filter fun j => 0 < (countDown state k).1 j := by
    rw [unplaced, unplaced, List.filter_filter]
    refine List.filter_congr fun j _ => ?_
    by_cases hj : 0 < (countDown state k).1 j
    · simp [hj, hsub j hj]
    · simp [hj]
  rw [hfilter]
  by_cases hzero : state.1 k - 1 = 0
  · have hlt : ((g.unplaced state.1).filter fun j => 0 < (countDown state k).1 j).length <
        (g.unplaced state.1).length := by
      refine List.length_filter_lt_length_iff_exists.2 ⟨k, List.mem_filter.2 ⟨hk, ?_⟩, ?_⟩
      · exact decide_eq_true (by omega)
      · simp [countDown, hzero]
    have hnext : (countDown state k).2.length = state.2.length + 1 := by
      simp [countDown, hzero]
    omega
  · have hnext : (countDown state k).2.length = state.2.length := by simp [countDown, hzero]
    have hle := List.length_filter_le (fun j => decide (0 < (countDown state k).1 j))
      (g.unplaced state.1)
    omega

theorem length_unplaced_foldl {g : Graph κ} {ks : List κ} (hks : ∀ k ∈ ks, k ∈ g.keys)
    (state : (κ → Int) × List κ) :
    (g.unplaced (ks.foldl countDown state).1).length + (ks.foldl countDown state).2.length ≤
      (g.unplaced state.1).length + state.2.length := by
  induction ks generalizing state with
  | nil => exact Nat.le_refl _
  | cons k rest ih =>
    have hrest := ih (fun j hj => hks j (List.mem_cons_of_mem k hj)) (countDown state k)
    exact Nat.le_trans hrest (length_unplaced_countDown (hks k List.mem_cons_self) state)

/-! ## Placing layers -/

variable [LE κ] [DecidableLE κ]

/-- Places a layer and counts down what depends on it, until no node is left to place. -/
def placeFrom (g : Graph κ) (counters : κ → Int) (layer : List κ) : List (List κ) :=
  if _h : layer = [] then []
  else
    let sorted := layer.mergeSort fun a b => a ≤ b
    let next := (sorted.flatMap g.dependents).foldl countDown (counters, [])
    sorted :: g.placeFrom next.1 next.2
termination_by (g.unplaced counters).length + layer.length
decreasing_by
  have hkeys : ∀ k ∈ sorted.flatMap g.dependents, k ∈ g.keys := fun _ hk =>
    mem_keys_of_dependents hk
  have hlength := length_unplaced_foldl hkeys (counters, [])
  have hpos := List.length_pos_iff.2 _h
  exact Nat.lt_of_le_of_lt hlength (Nat.lt_add_of_pos_right hpos)

/-- The layers of a graph, and whether every node is in one of them. -/
def countedLayers (g : Graph κ) : List (List κ) × Bool :=
  let layers := g.placeFrom g.pending (g.keys.filter fun k => g.pending k = 0)
  (layers, layers.flatten.length = g.length)

end Graph
end ProofKernel
