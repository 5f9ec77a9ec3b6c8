import Mathlib.Data.Finite.Prod
import Mathlib.Data.Set.Finite.List
import Mathlib.Order.WellFounded
import ProofKernel.Proofs.Graph

/-!
# Chains of dependencies

* `Graph.Depends` is a dependency between two nodes, and `Graph.Acyclic` says that no node depends
  on itself through others.
* `Graph.HasChain` counts the dependencies of a chain, and `Graph.Longest` is the length of the
  longest chain that starts at a node.
* `Graph.hasChain_succ_iff`: a wave takes the last dependency off every chain.
* `Graph.mem_layers_iff`: a node is in the layer that its longest chain says.
* `Graph.acyclic_iff`: no node is left over iff the graph has no cycle.
-/

set_option autoImplicit false
namespace ProofKernel
namespace Graph

variable {κ : Type} {g : Graph κ} {k d : κ} {n : Nat}

/-! ## Dependencies -/

/-- A node depends on another node. -/
def Depends (g : Graph κ) (k d : κ) : Prop :=
  d ∈ g.keys ∧ ∃ ds, (k, ds) ∈ g ∧ d ∈ ds

/-- No node depends on itself, directly or through other nodes. -/
def Acyclic (g : Graph κ) : Prop :=
  ∀ k, ¬ Relation.TransGen g.Depends k k

theorem Depends.mem_left (h : g.Depends k d) : k ∈ g.keys := by
  obtain ⟨_, ds, hmem, _⟩ := h
  exact mem_keys.2 ⟨ds, hmem⟩

theorem Depends.mem_right (h : g.Depends k d) : d ∈ g.keys :=
  h.1

/-- Dependencies lead down on a finite set of nodes, unless there is a cycle. -/
theorem Acyclic.wellFounded (h : g.Acyclic) : WellFounded fun d k => g.Depends k d := by
  have : Finite {k // k ∈ g.keys} := g.keys.finite_toSet
  let below : {k // k ∈ g.keys} → {k // k ∈ g.keys} → Prop :=
    fun d k => Relation.TransGen g.Depends k.1 d.1
  have : Std.Irrefl below := ⟨fun k => h k.1⟩
  have : IsTrans {k // k ∈ g.keys} below := ⟨fun _ _ _ hd hk => hk.trans hd⟩
  have hwf : WellFounded below := Finite.wellFounded_of_trans_of_irrefl below
  have hacc : ∀ k : {k // k ∈ g.keys}, Acc (fun d k => g.Depends k d) k.1 := by
    intro k
    induction k using hwf.induction with
    | h k ih => exact .intro _ fun d hd => ih ⟨d, hd.mem_right⟩ (.single hd)
  exact ⟨fun k => .intro _ fun d hd => hacc ⟨d, hd.mem_right⟩⟩

/-! ## Chains -/

/-- A chain of so many dependencies starts at a node. -/
def HasChain (g : Graph κ) : Nat → κ → Prop
  | 0, k => k ∈ g.keys
  | n + 1, k => ∃ d, g.Depends k d ∧ g.HasChain n d

/-- Every chain that starts at a node ends, and the longest has so many dependencies. -/
structure Longest (g : Graph κ) (k : κ) (n : Nat) : Prop where
  ends : ¬ ∃ chain : Nat → κ, chain 0 = k ∧ ∀ i, g.Depends (chain i) (chain (i + 1))
  attained : g.HasChain n k
  greatest : ∀ m, g.HasChain m k → m ≤ n

theorem HasChain.mem_keys : ∀ {n : Nat} {k : κ}, g.HasChain n k → k ∈ g.keys
  | 0, _, h => h
  | _ + 1, _, ⟨_, h, _⟩ => h.mem_left

/-- A chain that does not end has a beginning of any length. -/
theorem hasChain_of_infinite {chain : Nat → κ} (h : ∀ i, g.Depends (chain i) (chain (i + 1)))
    (n i : Nat) : g.HasChain n (chain i) := by
  induction n generalizing i with
  | zero => exact (h i).mem_left
  | succ n ih => exact ⟨chain (i + 1), h i, ih (i + 1)⟩

/-- Where the lengths of chains are bounded, every chain ends. -/
theorem longest_iff :
    g.Longest k n ↔ g.HasChain n k ∧ ∀ m, g.HasChain m k → m ≤ n := by
  refine ⟨fun h => ⟨h.attained, h.greatest⟩, fun ⟨hn, hm⟩ => ⟨?_, hn, hm⟩⟩
  rintro ⟨chain, rfl, hchain⟩
  exact absurd (hm (n + 1) (hasChain_of_infinite hchain (n + 1) 0)) (Nat.not_succ_le_self n)

theorem Longest.eq {m : Nat} (h : g.Longest k n) (h' : g.Longest k m) : n = m :=
  Nat.le_antisymm (h'.greatest n h.attained) (h.greatest m h'.attained)

/-- A node on a cycle, or one that depends on it, starts chains of any length. -/
theorem hasChain_of_transGen (h : Relation.TransGen g.Depends k k) : ∀ n, g.HasChain n k := by
  have hfrom : ∀ n j, Relation.TransGen g.Depends j k → g.HasChain n j := by
    intro n
    induction n with
    | zero =>
      intro j hj
      obtain ⟨d, hd, _⟩ := Relation.TransGen.head'_iff.1 hj
      exact hd.mem_left
    | succ n ih =>
      intro j hj
      obtain ⟨d, hd, hrest⟩ := Relation.TransGen.head'_iff.1 hj
      refine ⟨d, hd, ih d ?_⟩
      rcases Relation.reflTransGen_iff_eq_or_transGen.1 hrest with heq | hrest
      · exact heq ▸ h
      · exact hrest
  exact fun n => hfrom n k h

/-! ## Waves -/

variable [DecidableEq κ]

/-- What waits depends on what waits as before. -/
theorem depends_waiting_iff :
    g.waiting.Depends k d ↔ g.Depends k d ∧ d ∈ g.waiting.keys := by
  constructor
  · rintro ⟨hd, ds, hmem, hds⟩
    exact ⟨⟨mem_keys_of_waiting hd, ds, (mem_waiting.1 hmem).1, hds⟩, hd⟩
  · rintro ⟨⟨hk, ds, hmem, hds⟩, hd⟩
    exact ⟨hd, ds, mem_waiting.2 ⟨hmem, d, hk, hds⟩, hds⟩

theorem mem_keys_waiting_iff : k ∈ g.waiting.keys ↔ ∃ d, g.Depends k d := by
  rw [mem_keys_waiting]
  constructor
  · rintro ⟨ds, hmem, d, hd, hds⟩
    exact ⟨d, hd, ds, hmem, hds⟩
  · rintro ⟨d, hd, ds, hmem, hds⟩
    exact ⟨ds, hmem, d, hd, hds⟩

/-- A node is ready or waits, but not both. -/
theorem not_mem_waiting (h : g.keys.Nodup) (hk : k ∈ g.ready.keys) : k ∉ g.waiting.keys := by
  intro hwaiting
  obtain ⟨ds, hds, hready⟩ := mem_keys_ready.1 hk
  obtain ⟨ds', hds', d, hd, hdep⟩ := mem_keys_waiting.1 hwaiting
  exact hready d hd (eq_of_mem h hds hds' ▸ hdep)

theorem mem_keys_ready_iff (h : g.keys.Nodup) :
    k ∈ g.ready.keys ↔ k ∈ g.keys ∧ ∀ d, ¬ g.Depends k d := by
  rw [← not_exists, ← mem_keys_waiting_iff]
  refine ⟨fun hk => ⟨mem_keys_of_ready hk, not_mem_waiting h hk⟩, fun ⟨hk, hwaiting⟩ => ?_⟩
  exact (mem_ready_or_waiting hk).resolve_right hwaiting

/-- **A wave takes the last dependency off every chain.** -/
theorem hasChain_succ_iff : g.HasChain (n + 1) k ↔ g.waiting.HasChain n k := by
  induction n generalizing k with
  | zero =>
    rw [HasChain, HasChain, mem_keys_waiting_iff]
    exact exists_congr fun d => and_iff_left_of_imp Depends.mem_right
  | succ n ih =>
    rw [HasChain, HasChain]
    refine exists_congr fun d => ?_
    rw [ih, depends_waiting_iff, and_assoc, and_iff_right_of_imp HasChain.mem_keys]

/-- A longest chain in what waits is one dependency shorter. -/
theorem longest_succ_iff : g.Longest k (n + 1) ↔ g.waiting.Longest k n := by
  rw [longest_iff, longest_iff, hasChain_succ_iff]
  refine and_congr_right fun _ => ⟨fun hm m hchain => ?_, fun hm m hchain => ?_⟩
  · exact Nat.le_of_succ_le_succ (hm (m + 1) (hasChain_succ_iff.2 hchain))
  · cases m with
    | zero => exact Nat.zero_le _
    | succ m => exact Nat.succ_le_succ (hm m (hasChain_succ_iff.1 hchain))

theorem longest_zero_iff (h : g.keys.Nodup) : g.Longest k 0 ↔ k ∈ g.ready.keys := by
  rw [longest_iff]
  constructor
  · rintro ⟨hk, hm⟩
    refine (mem_ready_or_waiting hk).resolve_right fun hwaiting => ?_
    exact absurd (hm 1 (hasChain_succ_iff.2 hwaiting)) (Nat.not_succ_le_zero 0)
  · intro hk
    refine ⟨mem_keys_of_ready hk, fun m hchain => ?_⟩
    cases m with
    | zero => exact Nat.le_refl 0
    | succ m =>
      obtain ⟨d, hd, _⟩ := hchain
      exact absurd hd (((mem_keys_ready_iff h).1 hk).2 d)

/-- Where no node is ready, chains go on for ever. -/
theorem hasChain_of_ready_eq_nil (hnil : g.ready = []) (hk : k ∈ g.keys) :
    ∀ n, g.HasChain n k := by
  have hsame : g.waiting = g := by
    refine List.filter_eq_self.2 fun node hnode => ?_
    have hready := List.filter_eq_nil_iff.1 hnil node hnode
    simpa using hready
  intro n
  induction n with
  | zero => exact hk
  | succ n ih =>
    rw [hasChain_succ_iff, hsame]
    exact ih

/-- **A node is in the layer that its longest chain says.** -/
theorem mem_layers_iff (h : g.keys.Nodup) :
    (∃ layer, g.layers.1[n]? = some layer ∧ k ∈ layer) ↔ g.Longest k n := by
  induction n generalizing g with
  | zero =>
    by_cases hnil : g.ready = []
    · rw [layers_of_ready_eq_nil hnil, longest_zero_iff h, hnil]
      simp [keys]
    · rw [layers_of_ready_ne_nil hnil, longest_zero_iff h]
      simp
  | succ n ih =>
    by_cases hnil : g.ready = []
    · rw [layers_of_ready_eq_nil hnil]
      refine iff_of_false (by simp) fun hlongest => ?_
      have hk := hlongest.attained.mem_keys
      exact absurd (hlongest.greatest _ (hasChain_of_ready_eq_nil hnil hk (n + 2))) (by omega)
    · rw [layers_of_ready_ne_nil hnil, List.getElem?_cons_succ, ih (nodup_keys_waiting h),
        longest_succ_iff]

/-! ## Cycles -/

/-- What is left over is a part of the graph in which no node is ready. -/
theorem rest_stuck (g : Graph κ) : g.layers.2.ready = [] ∧ ∀ node ∈ g.layers.2, node ∈ g := by
  induction hn : g.length using Nat.strongRecOn generalizing g with
  | ind n ih =>
    subst hn
    by_cases hnil : g.ready = []
    · rw [layers_of_ready_eq_nil hnil]
      exact ⟨hnil, fun _ hnode => hnode⟩
    · rw [layers_of_ready_ne_nil hnil]
      obtain ⟨hready, hsub⟩ := ih _ (length_waiting hnil) g.waiting rfl
      exact ⟨hready, fun node hnode => (List.mem_filter.1 (hsub node hnode)).1⟩

/-- A node that is left over depends on another one. -/
theorem exists_depends_of_mem_rest (hk : k ∈ g.layers.2.keys) :
    ∃ d ∈ g.layers.2.keys, g.Depends k d := by
  obtain ⟨hready, hsub⟩ := g.rest_stuck
  have hwaiting : k ∈ g.layers.2.waiting.keys :=
    (mem_ready_or_waiting hk).resolve_left (by rw [hready]; exact List.not_mem_nil)
  obtain ⟨d, hd, ds, hmem, hds⟩ := mem_keys_waiting_iff.1 hwaiting
  obtain ⟨es, hes⟩ := mem_keys.1 hd
  exact ⟨d, hd, mem_keys.2 ⟨es, hsub _ hes⟩, ds, hsub _ hmem, hds⟩

/-- **No node is left over iff the graph has no cycle.** -/
theorem acyclic_iff (h : g.keys.Nodup) : g.layers.2 = [] ↔ g.Acyclic := by
  constructor
  · intro hrest k hcycle
    have hchains := hasChain_of_transGen hcycle
    have hmem := g.layers_perm.mem_iff.2 (hchains 0).mem_keys
    rw [hrest, keys, List.map_nil, List.append_nil] at hmem
    obtain ⟨layer, hlayer, hk⟩ := List.mem_flatten.1 hmem
    obtain ⟨n, hn⟩ := List.mem_iff_getElem?.1 hlayer
    have hlongest := (mem_layers_iff h).1 ⟨layer, hn, hk⟩
    exact absurd (hlongest.greatest (n + 1) (hchains (n + 1))) (Nat.not_succ_le_self n)
  · intro hacyclic
    have hnone : ∀ k, k ∉ g.layers.2.keys := by
      intro k
      induction k using hacyclic.wellFounded.induction with
      | h k ih =>
        intro hk
        obtain ⟨d, hd, hdep⟩ := exists_depends_of_mem_rest hk
        exact ih d hdep hd
    exact List.map_eq_nil_iff.1 (List.eq_nil_iff_forall_not_mem.2 hnone)

end Graph
end ProofKernel
