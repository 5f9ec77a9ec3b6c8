import Mathlib.Data.List.Sort
import ProofKernel.Graph.Countdown
import ProofKernel.Proofs.Graph.Chains

/-!
# Counting down finds the layers

* `Graph.Ordered` says that the nodes are in increasing order and dependencies are listed once.
* `Graph.countDown_foldl_fst` says what counting down takes from a counter, and
  `Graph.count_countDown_foldl` that each node whose counter reaches zero is found once.
* `Graph.Stage` is a graph some waves of which are gone, and `Graph.Stage.placeFrom_eq` says that
  its layers are found with counters that count what is left.
* `Graph.countedLayers_eq`: the layers that are counted down are the layers of the graph.
* `Graph.Layered` says what layers are: a node is in the layer of its longest chain of dependencies.
-/

set_option autoImplicit false
namespace ProofKernel
namespace Graph

variable {κ : Type}

/-! ## Ordered graphs -/

/-- Nodes in increasing order, each of which lists a dependency once. -/
structure Ordered [LT κ] (g : Graph κ) : Prop where
  increasing : g.keys.Pairwise (· < ·)
  once : ∀ node ∈ g, node.2.Nodup

theorem Ordered.nodup [Preorder κ] {g : Graph κ} (h : g.Ordered) : g.keys.Nodup :=
  h.increasing.imp fun hlt => hlt.ne

/-! ## Stages -/

/-- A graph some waves of which are gone: what depends on a node that is left is left itself. -/
structure Stage (g r : Graph κ) : Prop where
  sub : r.Sublist g
  closed : ∀ k d, g.Depends k d → d ∈ r.keys → k ∈ r.keys

section

variable {g r : Graph κ} {k d : κ}

theorem Stage.refl : Stage g g :=
  ⟨List.Sublist.refl g, fun _ _ hdep _ => hdep.mem_left⟩

theorem Stage.keys (hs : Stage g r) : r.keys.Sublist g.keys :=
  hs.sub.map _

/-- Dependencies on what is left are those of the whole graph. -/
theorem Stage.depends_iff (hs : Stage g r) (h : g.keys.Nodup) :
    r.Depends k d ↔ g.Depends k d ∧ d ∈ r.keys := by
  constructor
  · rintro ⟨hd, ds, hmem, hds⟩
    exact ⟨⟨hs.keys.subset hd, ds, hs.sub.subset hmem, hds⟩, hd⟩
  · rintro ⟨hdep, hd⟩
    obtain ⟨ds', hds'⟩ := mem_keys.1 (hs.closed k d hdep hd)
    obtain ⟨_, ds, hds, hmem⟩ := hdep
    exact ⟨hd, ds', hds', eq_of_mem h hds (hs.sub.subset hds') ▸ hmem⟩

end

variable [DecidableEq κ] {g r : Graph κ} {k d : κ}

theorem Stage.waiting (hs : Stage g r) (h : g.keys.Nodup) : Stage g r.waiting where
  sub := List.filter_sublist.trans hs.sub
  closed := fun _ d hdep hd =>
    mem_keys_waiting_iff.2 ⟨d, (hs.depends_iff h).2 ⟨hdep, mem_keys_of_waiting hd⟩⟩

/-- What is left is ready or waits. -/
theorem countP_keys (h : g.keys.Nodup) (ds : List κ) :
    ds.countP (· ∈ g.keys) = ds.countP (· ∈ g.waiting.keys) + ds.countP (· ∈ g.ready.keys) := by
  induction ds with
  | nil => rfl
  | cons d rest ih =>
    have hsplit : d ∈ g.keys ↔ d ∈ g.ready.keys ∨ d ∈ g.waiting.keys :=
      ⟨mem_ready_or_waiting, fun h => h.elim mem_keys_of_ready mem_keys_of_waiting⟩
    have hboth := not_mem_waiting h (k := d)
    simp only [List.countP_cons, ih, decide_eq_true_iff]
    grind

/-! ## Dependencies and dependents -/

theorem mem_dependencies (h : g.keys.Nodup) : d ∈ g.dependencies k ↔ g.Depends k d := by
  rw [dependencies, List.mem_filter, decide_eq_true_iff, and_comm]
  refine and_congr_right fun _ => ⟨fun hd => ?_, fun ⟨ds, hmem, hd⟩ => ?_⟩
  · cases hlookup : g.lookup k with
    | none =>
      rw [hlookup] at hd
      cases hd
    | some ds =>
      rw [hlookup] at hd
      exact ⟨ds, mem_of_lookup hlookup, hd⟩
  · rw [lookup_eq_some hmem fun ds' hmem' => eq_of_mem h hmem' hmem]
    exact hd

theorem mem_dependents (hd : d ∈ g.keys) : k ∈ g.dependents d ↔ g.Depends k d := by
  rw [dependents, mem_keys, Depends, and_iff_right hd]
  refine exists_congr fun ds => ?_
  rw [List.mem_filter, decide_eq_true_iff]

theorem nodup_dependents (h : g.keys.Nodup) (d : κ) : (g.dependents d).Nodup :=
  h.sublist (List.filter_sublist.map _)

theorem Ordered.nodup_dependencies [Preorder κ] (h : g.Ordered) (k : κ) :
    (g.dependencies k).Nodup := by
  rw [dependencies]
  refine List.Nodup.filter _ ?_
  cases hlookup : g.lookup k with
  | none => exact .nil
  | some ds => exact h.once (k, ds) (mem_of_lookup hlookup)

/-! ## Counting down -/

theorem countDown_foldl_fst (ks : List κ) (counters : κ → Int) (next : List κ) (j : κ) :
    (ks.foldl countDown (counters, next)).1 j = counters j - ks.count j := by
  induction ks generalizing counters next with
  | nil => simp
  | cons k rest ih =>
    rw [List.foldl_cons, countDown, ih, List.count_cons]
    by_cases h : j = k
    · subst h
      simp
      omega
    · simp [h, Ne.symm h]

/-- **A node whose counter reaches zero is found once**, and no other node is found, if the counter
goes no further down. -/
theorem count_countDown_foldl (ks : List κ) (counters : κ → Int) (next : List κ) {k : κ}
    (h : (ks.count k : Int) ≤ counters k) :
    (ks.foldl countDown (counters, next)).2.count k =
      next.count k + if k ∈ ks ∧ counters k = ks.count k then 1 else 0 := by
  simp only [← List.count_pos_iff]
  induction ks generalizing counters next with
  | nil => simp
  | cons j rest ih =>
    simp only [List.foldl_cons, countDown]
    by_cases hjk : j = k
    · subst hjk
      rw [List.count_cons_self] at h ⊢
      rw [ih _ _ (by rw [if_pos rfl]; omega), if_pos rfl]
      by_cases hzero : counters j - 1 = 0
      · -- the counter reaches zero here, so the node is not counted down again
        have hlast : rest.count j = 0 := by omega
        have hone : counters j = 1 := by omega
        simp [hlast, hone]
      · rw [if_neg hzero]
        refine congrArg _ (if_congr ?_ rfl rfl)
        omega
    · have hother : (if counters j - 1 = 0 then next ++ [j] else next).count k = next.count k := by
        split <;> simp [hjk]
      rw [List.count_cons_of_ne hjk] at h ⊢
      rw [ih _ _ (by rwa [if_neg (Ne.symm hjk)]), if_neg (Ne.symm hjk), hother]

/-- How often a node is counted down for a layer: once for each of its dependencies there. -/
theorem count_flatMap_dependents [Preorder κ] (h : g.Ordered) {layer : List κ}
    (hlayer : layer.Nodup) (hsub : ∀ d ∈ layer, d ∈ g.keys) (k : κ) :
    (layer.flatMap g.dependents).count k = (g.dependencies k).countP (· ∈ layer) := by
  have hone : ∀ d ∈ layer, (g.dependents d).count k = if d ∈ g.dependencies k then 1 else 0 := by
    intro d hd
    rw [(nodup_dependents h.nodup d).count]
    exact if_congr ((mem_dependents (hsub d hd)).trans (mem_dependencies h.nodup).symm) rfl rfl
  have hsum : (layer.flatMap g.dependents).count k = layer.countP (· ∈ g.dependencies k) := by
    clear hlayer hsub
    induction layer with
    | nil => rfl
    | cons d rest ih =>
      rw [List.flatMap_cons, List.count_append, hone d List.mem_cons_self,
        ih fun e he => hone e (List.mem_cons_of_mem d he), List.countP_cons, Nat.add_comm]
      simp
  rw [hsum, List.countP_eq_length_filter, List.countP_eq_length_filter]
  refine List.Perm.length_eq ?_
  refine (List.perm_ext_iff_of_nodup (hlayer.filter _) ((h.nodup_dependencies k).filter _)).2 ?_
  intro d
  simp only [List.mem_filter, decide_eq_true_iff]
  exact and_comm

/-! ## Placing layers -/

/-- A node that waits for ready nodes only is counted down to zero, and no other. -/
theorem Stage.mem_waiting_ready_iff (hs : Stage g r) (h : g.keys.Nodup) :
    k ∈ r.waiting.ready.keys ↔ k ∈ r.ready.keys.flatMap g.dependents ∧
      (g.dependencies k).countP (· ∈ r.waiting.keys) = 0 := by
  have hwaiting := nodup_keys_waiting (h.sublist hs.keys)
  rw [mem_keys_ready_iff hwaiting, mem_keys_waiting_iff, List.mem_flatMap, List.countP_eq_zero]
  simp only [(hs.waiting h).depends_iff h, hs.depends_iff h, mem_dependencies h,
    decide_eq_true_iff, not_and]
  refine and_congr_left fun hnone => exists_congr fun d => ?_
  constructor
  · rintro ⟨hdep, hd⟩
    have hready := (mem_ready_or_waiting hd).resolve_right (hnone d hdep)
    exact ⟨hready, (mem_dependents hdep.mem_right).2 hdep⟩
  · rintro ⟨hd, hk⟩
    have hmem := mem_keys_of_ready hd
    exact ⟨(mem_dependents (hs.keys.subset hmem)).1 hk, hmem⟩

/-- A layer has its nodes in the order of the graph. -/
theorem sublist_of_layer (g : Graph κ) : ∀ layer ∈ g.layers.1, layer.Sublist g.keys := by
  induction hn : g.length using Nat.strongRecOn generalizing g with
  | ind n ih =>
    subst hn
    by_cases hnil : g.ready = []
    · rw [layers_of_ready_eq_nil hnil]
      exact nofun
    · rw [layers_of_ready_ne_nil hnil]
      refine List.forall_mem_cons.2 ⟨List.filter_sublist.map _, fun layer hlayer => ?_⟩
      exact (ih _ (length_waiting hnil) g.waiting rfl layer hlayer).trans
        (List.filter_sublist.map _)

variable [LinearOrder κ]

/-- **What is left is placed layer by layer**, from the counters of the dependencies that are left
and the nodes that are ready, in any order. -/
theorem Stage.placeFrom_eq (hs : Stage g r) (h : g.Ordered)
    {counters : κ → Int} (hcounters : ∀ k, counters k = (g.dependencies k).countP (· ∈ r.keys))
    {layer : List κ} (hlayer : layer.Perm r.ready.keys) :
    g.placeFrom counters layer = r.layers.1 := by
  induction hn : r.length using Nat.strongRecOn generalizing r counters layer with
  | ind n ih =>
    subst hn
    by_cases hnil : r.ready = []
    · rw [hnil] at hlayer
      rw [layers_of_ready_eq_nil hnil, placeFrom, dif_pos hlayer.eq_nil]
    · have hne : layer ≠ [] := by
        rintro rfl
        exact hnil (List.map_eq_nil_iff.1 hlayer.nil_eq.symm)
      have hr : r.keys.Nodup := h.nodup.sublist hs.keys
      have hsorted : layer.mergeSort (fun a b => a ≤ b) = r.ready.keys := by
        have hincreasing : r.ready.keys.Pairwise (· ≤ ·) :=
          (h.increasing.sublist ((List.filter_sublist.map _).trans hs.keys)).imp le_of_lt
        exact ((List.mergeSort_perm _ _).trans hlayer).eq_of_pairwise'
          (List.pairwise_mergeSort' (· ≤ ·) layer) hincreasing
      rw [layers_of_ready_ne_nil hnil, placeFrom, dif_neg hne]
      dsimp only
      rw [hsorted]
      refine congrArg (r.ready.keys :: ·) ?_
      have hcount := count_flatMap_dependents h (nodup_keys_ready hr)
        fun d hd => hs.keys.subset (mem_keys_of_ready hd)
      have hleft : ∀ k, counters k - ((r.ready.keys.flatMap g.dependents).count k : Int) =
          (g.dependencies k).countP (· ∈ r.waiting.keys) := by
        intro k
        rw [hcounters, hcount, countP_keys hr]
        omega
      refine ih _ (length_waiting hnil) (hs.waiting h.nodup) (fun k => ?_)
        (List.perm_iff_count.2 fun k => ?_) rfl
      · rw [countDown_foldl_fst, hleft]
      · have hk := hleft k
        have hready := nodup_keys_ready (nodup_keys_waiting hr)
        rw [count_countDown_foldl _ _ _ (by omega), List.count_nil, Nat.zero_add, hready.count]
        refine if_congr ?_ rfl rfl
        rw [hs.mem_waiting_ready_iff h.nodup]
        refine and_congr_right fun _ => ?_
        omega

/-- **The layers that are counted down are the layers of the graph**, and all nodes are placed iff
none is left over. -/
theorem countedLayers_eq (h : g.Ordered) :
    g.countedLayers = (g.layers.1, decide (g.layers.2 = [])) := by
  have hpending : ∀ k, g.pending k = (g.dependencies k).countP (· ∈ g.keys) := by
    intro k
    have hall : (g.dependencies k).countP (· ∈ g.keys) = (g.dependencies k).length :=
      List.countP_eq_length.2 fun d hd =>
        decide_eq_true ((mem_dependencies h.nodup).1 hd).mem_right
    rw [pending, hall]
  have hfirst : (g.keys.filter fun k => g.pending k = 0).Perm g.ready.keys := by
    refine (List.perm_ext_iff_of_nodup (h.nodup.filter _) (nodup_keys_ready h.nodup)).2 fun k => ?_
    rw [List.mem_filter, mem_keys_ready_iff h.nodup, decide_eq_true_iff, pending]
    simp only [← mem_dependencies h.nodup, Int.natCast_eq_zero, List.length_eq_zero_iff,
      List.eq_nil_iff_forall_not_mem]
  have hplaced : g.layers.1.flatten.length = g.length ↔ g.layers.2 = [] := by
    have hlength := g.layers_perm.length_eq
    rw [List.length_append, keys, keys, List.length_map, List.length_map] at hlength
    rw [← List.length_eq_zero_iff]
    omega
  have hlayers := Stage.refl.placeFrom_eq h hpending hfirst
  rw [countedLayers, hlayers]
  exact congrArg _ (decide_eq_decide.2 hplaced)

/-! ## The layer of a node -/

/-- What it means that layers are those of a graph, and that they are all of it. -/
structure Layered (g : Graph κ) (layers : List (List κ)) (complete : Bool) : Prop where
  complete_iff : complete = true ↔ g.Acyclic
  increasing : ∀ layer ∈ layers, layer.Pairwise (· < ·)
  disjoint : layers.Pairwise List.Disjoint
  mem_iff : ∀ k n, (∃ layer, layers[n]? = some layer ∧ k ∈ layer) ↔ g.Longest k n
  earlier : ∀ (n : Nat) layer k d, layers[n]? = some layer → k ∈ layer → g.Depends k d →
    ∃ (m : Nat) (before : List κ), m < n ∧ layers[m]? = some before ∧ d ∈ before
  placed : complete = true → layers.flatten.Perm g.keys

/-- **Layers are correct and minimal.**  All nodes are placed iff the graph has no cycle.  A layer
is in increasing order, no two layers have a node in common, and a node is in a layer iff its
longest chain of dependencies has that many of them; what a node depends on is in a layer before
it. -/
theorem countedLayers_layered (h : g.Ordered) :
    g.Layered g.countedLayers.1 g.countedLayers.2 := by
  rw [countedLayers_eq h]
  refine ⟨?_, fun layer hlayer => ?_, ?_, fun k n => mem_layers_iff h.nodup, ?_, fun hall => ?_⟩
  · rw [decide_eq_true_iff]
    exact acyclic_iff h.nodup
  · exact h.increasing.sublist (g.sublist_of_layer layer hlayer)
  · refine List.pairwise_iff_getElem.2 fun i j hi hj hij k hk hk' => ?_
    have hlongest := (mem_layers_iff h.nodup).1 ⟨_, List.getElem?_eq_getElem hi, hk⟩
    have hlongest' := (mem_layers_iff h.nodup).1 ⟨_, List.getElem?_eq_getElem hj, hk'⟩
    exact absurd (hlongest.eq hlongest') hij.ne
  · rintro n layer k d hlayer hk ⟨hd, ds, hds, hdep⟩
    obtain ⟨hn, rfl⟩ := List.getElem?_eq_some_iff.1 hlayer
    have hsplit : g.layers.1 =
        g.layers.1.take n ++ g.layers.1[n] :: g.layers.1.drop (n + 1) := by
      rw [List.getElem_cons_drop, List.take_append_drop]
    obtain ⟨before, hbefore, hmem⟩ :=
      List.mem_flatten.1 (mem_layers_before h.nodup hsplit hk hds hdep hd)
    obtain ⟨m, hm⟩ := List.mem_iff_getElem?.1 hbefore
    rw [List.getElem?_take] at hm
    split at hm
    · next hlt => exact ⟨m, before, hlt, hm, hmem⟩
    · cases hm
  · have hperm := g.layers_perm
    rwa [of_decide_eq_true hall, keys, List.map_nil, List.append_nil] at hperm

/-- Two declarations on a cycle, one that depends on them, and two that do not. -/
theorem countedLayers_layered_cycle :
    let g : Graph Nat := [(0, [1, 9]), (1, [0]), (2, [0]), (3, []), (4, [3])]
    g.Ordered ∧ g.Layered g.countedLayers.1 g.countedLayers.2 := by
  have hordered : Ordered [(0, [1, 9]), (1, [0]), (2, [0]), (3, []), (4, [3])] :=
    ⟨by decide, by decide⟩
  exact ⟨hordered, countedLayers_layered hordered⟩

end Graph
end ProofKernel
