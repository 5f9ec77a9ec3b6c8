import Mathlib.Data.List.Nodup
import ProofKernel.Graph

/-!
# Layers of dependency graphs

* `Graph.mem_layers_before`: what a node depends on is in a layer before it.
* `Graph.Relabels f g g'` says that `f` takes the nodes of one graph to those of another, one to
  one, and that it keeps dependencies.
* `Graph.Relabels.layers`: the layers of the first graph are then taken to those of the second, up
  to the order inside a layer, and a cycle is found in both or in neither.
* `Graph.rest_eq_nil_of_lt`: where nodes depend on smaller ones only, no node is left over.
-/

set_option autoImplicit false
namespace ProofKernel

/-! ## Lookups -/

section

variable {κ β : Type} [DecidableEq κ] {l : List (κ × β)} {k : κ} {b : β}

theorem mem_of_lookup (h : l.lookup k = some b) : (k, b) ∈ l := by
  obtain ⟨before, after, rfl, _⟩ := List.lookup_eq_some_iff.1 h
  exact List.mem_append_right _ List.mem_cons_self

/-- What is found for a key that is listed with one value only. -/
theorem lookup_eq_some (hmem : (k, b) ∈ l) (hone : ∀ b', (k, b') ∈ l → b' = b) :
    l.lookup k = some b := by
  cases hlookup : l.lookup k with
  | none =>
    have hne := List.lookup_eq_none_iff.1 hlookup (k, b) hmem
    simp at hne
  | some b' => rw [hone b' (mem_of_lookup hlookup)]

theorem lookup_eq_none (hnone : ∀ b, (k, b) ∉ l) : l.lookup k = none := by
  refine List.lookup_eq_none_iff.2 fun p hp => ?_
  rw [bne_iff_ne]
  rintro rfl
  exact hnone p.2 hp

end

namespace Graph

variable {κ κ' : Type}

/-! ## Nodes -/

theorem mem_keys {g : Graph κ} {k : κ} : k ∈ g.keys ↔ ∃ ds, (k, ds) ∈ g := by
  rw [keys, List.mem_map]
  constructor
  · rintro ⟨⟨k, ds⟩, hmem, rfl⟩
    exact ⟨ds, hmem⟩
  · rintro ⟨ds, hmem⟩
    exact ⟨_, hmem, rfl⟩

/-- A node of a graph whose nodes are distinct is listed with its dependencies once. -/
theorem eq_of_mem {g : Graph κ} (h : g.keys.Nodup) {k : κ} {ds ds' : List κ} (hd : (k, ds) ∈ g)
    (hd' : (k, ds') ∈ g) : ds = ds' := by
  induction g with
  | nil => cases hd
  | cons node rest ih =>
    obtain ⟨hnew, hrest⟩ := List.nodup_cons.1 h
    have hold : ∀ {es : List κ}, (k, es) ∈ rest → k ≠ node.1 := by
      rintro es hmem rfl
      exact hnew (mem_keys.2 ⟨es, hmem⟩)
    rcases List.mem_cons.1 hd with rfl | hd
    · rcases List.mem_cons.1 hd' with heq | hd'
      · cases heq
        rfl
      · exact absurd rfl (hold hd')
    · rcases List.mem_cons.1 hd' with heq | hd'
      · exact absurd (congrArg Prod.fst heq) (hold hd)
      · exact ih hrest hd hd'

/-- The nodes of a graph are taken one to one to those of another, and so are dependencies among
them. -/
structure Relabels (f : κ → κ') (g : Graph κ) (g' : Graph κ') : Prop where
  nodup : g.keys.Nodup
  nodup' : g'.keys.Nodup
  injective : ∀ a ∈ g.keys, ∀ b ∈ g.keys, f a = f b → a = b
  onto : ∀ k', k' ∈ g'.keys ↔ ∃ k ∈ g.keys, f k = k'
  edges : ∀ k ds ds', (k, ds) ∈ g → (f k, ds') ∈ g' → ∀ d ∈ g.keys, (d ∈ ds ↔ f d ∈ ds')

theorem Relabels.depends_iff {f : κ → κ'} {g : Graph κ} {g' : Graph κ'} (h : Relabels f g g')
    {k : κ} {ds : List κ} {ds' : List κ'} (hk : (k, ds) ∈ g) (hk' : (f k, ds') ∈ g') :
    (∃ d ∈ g.keys, d ∈ ds) ↔ ∃ d' ∈ g'.keys, d' ∈ ds' := by
  constructor
  · rintro ⟨d, hd, hmem⟩
    exact ⟨f d, (h.onto _).2 ⟨d, hd, rfl⟩, (h.edges k ds ds' hk hk' d hd).1 hmem⟩
  · rintro ⟨d', hd', hmem⟩
    obtain ⟨d, hd, rfl⟩ := (h.onto d').1 hd'
    exact ⟨d, hd, (h.edges k ds ds' hk hk' d hd).2 hmem⟩

/-- The nodes are the same. -/
theorem Relabels.keys_perm {f : κ → κ'} {g : Graph κ} {g' : Graph κ'} (h : Relabels f g g') :
    (g.keys.map f).Perm g'.keys := by
  refine (List.perm_ext_iff_of_nodup (h.nodup.map_on h.injective) h.nodup').2 fun k' => ?_
  rw [List.mem_map, h.onto]

variable [DecidableEq κ] [DecidableEq κ']

/-! ## Waves -/

theorem layers_of_ready_eq_nil {g : Graph κ} (h : g.ready = []) : g.layers = ([], g) := by
  rw [layers, dif_pos h]

theorem layers_of_ready_ne_nil {g : Graph κ} (h : g.ready ≠ []) :
    g.layers = (g.ready.keys :: g.waiting.layers.1, g.waiting.layers.2) := by
  rw [layers, dif_neg h]

/-- A node is ready iff it depends on no node that is left. -/
theorem isReady_iff {g : Graph κ} {node : κ × List κ} :
    g.isReady node = true ↔ ∀ d ∈ g.keys, d ∉ node.2 := by
  rw [isReady, List.all_eq_true]
  simp only [decide_not, Bool.not_eq_eq_eq_not, Bool.not_true, decide_eq_false_iff_not]
  exact ⟨fun h d hd hmem => h d hmem hd, fun h d hmem hd => h d hd hmem⟩

theorem mem_keys_ready {g : Graph κ} {k : κ} :
    k ∈ g.ready.keys ↔ ∃ ds, (k, ds) ∈ g ∧ ∀ d ∈ g.keys, d ∉ ds := by
  rw [mem_keys]
  refine exists_congr fun ds => ?_
  rw [ready, List.mem_filter, isReady_iff]

theorem mem_waiting {g : Graph κ} {k : κ} {ds : List κ} :
    (k, ds) ∈ g.waiting ↔ (k, ds) ∈ g ∧ ∃ d ∈ g.keys, d ∈ ds := by
  rw [waiting, List.mem_filter, Bool.not_eq_true', ← Bool.not_eq_true, isReady_iff]
  simp only [Classical.not_forall, Classical.not_not, exists_prop]

theorem mem_keys_waiting {g : Graph κ} {k : κ} :
    k ∈ g.waiting.keys ↔ ∃ ds, (k, ds) ∈ g ∧ ∃ d ∈ g.keys, d ∈ ds := by
  rw [mem_keys]
  exact exists_congr fun ds => mem_waiting

theorem mem_keys_of_waiting {g : Graph κ} {k : κ} (hk : k ∈ g.waiting.keys) : k ∈ g.keys := by
  obtain ⟨ds, hmem, _⟩ := mem_keys_waiting.1 hk
  exact mem_keys.2 ⟨ds, hmem⟩

theorem mem_keys_of_ready {g : Graph κ} {k : κ} (hk : k ∈ g.ready.keys) : k ∈ g.keys := by
  obtain ⟨ds, hmem, _⟩ := mem_keys_ready.1 hk
  exact mem_keys.2 ⟨ds, hmem⟩

theorem nodup_keys_ready {g : Graph κ} (h : g.keys.Nodup) : g.ready.keys.Nodup :=
  h.sublist (List.filter_sublist.map _)

theorem nodup_keys_waiting {g : Graph κ} (h : g.keys.Nodup) : g.waiting.keys.Nodup :=
  h.sublist (List.filter_sublist.map _)

/-- Every node is in the first layer, or waits. -/
theorem mem_ready_or_waiting {g : Graph κ} {k : κ} (h : k ∈ g.keys) :
    k ∈ g.ready.keys ∨ k ∈ g.waiting.keys := by
  obtain ⟨ds, hmem⟩ := mem_keys.1 h
  by_cases hready : ∀ d ∈ g.keys, d ∉ ds
  · exact .inl (mem_keys_ready.2 ⟨ds, hmem, hready⟩)
  · simp only [Classical.not_forall, Classical.not_not, exists_prop] at hready
    exact .inr (mem_keys_waiting.2 ⟨ds, hmem, hready⟩)

/-- **Every node is in one of the layers, or left over.** -/
theorem layers_perm (g : Graph κ) : (g.layers.1.flatten ++ g.layers.2.keys).Perm g.keys := by
  induction hn : g.length using Nat.strongRecOn generalizing g with
  | ind n ih =>
    subst hn
    by_cases hnil : g.ready = []
    · rw [layers_of_ready_eq_nil hnil]
      exact .refl _
    · rw [layers_of_ready_ne_nil hnil, List.flatten_cons, List.append_assoc]
      have hlater := ih g.waiting.length (length_waiting hnil) g.waiting rfl
      refine (hlater.append_left g.ready.keys).trans ?_
      rw [keys, keys, ← List.map_append]
      exact (List.filter_append_perm g.isReady g).map Prod.fst

theorem mem_keys_of_layer {g : Graph κ} {layer : List κ} {k : κ} (hlayer : layer ∈ g.layers.1)
    (hk : k ∈ layer) : k ∈ g.keys :=
  g.layers_perm.mem_iff.1 (List.mem_append_left _ (List.mem_flatten.2 ⟨layer, hlayer, hk⟩))

/-- **What a node depends on is in a layer before it.** -/
theorem mem_layers_before {g : Graph κ} (h : g.keys.Nodup) {before after : List (List κ)}
    {layer : List κ} (hsplit : g.layers.1 = before ++ layer :: after) {k d : κ} {ds : List κ}
    (hk : k ∈ layer) (hds : (k, ds) ∈ g) (hd : d ∈ ds) (hdk : d ∈ g.keys) :
    d ∈ before.flatten := by
  induction before generalizing g with
  | nil =>
    by_cases hnil : g.ready = []
    · rw [layers_of_ready_eq_nil hnil] at hsplit
      cases hsplit
    · rw [layers_of_ready_ne_nil hnil] at hsplit
      obtain ⟨rfl, _⟩ := List.cons.inj hsplit
      obtain ⟨ds', hds', hready⟩ := mem_keys_ready.1 hk
      rw [← eq_of_mem h hds hds'] at hready
      exact absurd hd (hready d hdk)
  | cons first before ih =>
    by_cases hnil : g.ready = []
    · rw [layers_of_ready_eq_nil hnil] at hsplit
      cases hsplit
    · rw [layers_of_ready_ne_nil hnil] at hsplit
      obtain ⟨rfl, hlater⟩ := List.cons.inj hsplit
      rw [List.flatten_cons, List.mem_append]
      refine (mem_ready_or_waiting hdk).imp_right fun hwaiting => ?_
      have hkw : k ∈ g.waiting.keys :=
        mem_keys_of_layer (hlater ▸ List.mem_append_right _ List.mem_cons_self) hk
      obtain ⟨ds', hds'⟩ := mem_keys.1 hkw
      rw [← eq_of_mem h hds (mem_waiting.1 hds').1] at hds'
      exact ih (nodup_keys_waiting h) hlater hds' hwaiting

/-! ## The same graph with other nodes -/

namespace Relabels

variable {f : κ → κ'} {g : Graph κ} {g' : Graph κ'}

/-- A node that waits is taken to one that waits. -/
theorem mem_waiting_iff (h : Relabels f g g') {k : κ} (hk : k ∈ g.keys) :
    k ∈ g.waiting.keys ↔ f k ∈ g'.waiting.keys := by
  obtain ⟨ds, hds⟩ := mem_keys.1 hk
  obtain ⟨ds', hds'⟩ := mem_keys.1 ((h.onto (f k)).2 ⟨k, hk, rfl⟩)
  rw [mem_keys_waiting, mem_keys_waiting]
  constructor
  · rintro ⟨es, hes, hdep⟩
    exact ⟨ds', hds', (h.depends_iff hes hds').1 hdep⟩
  · rintro ⟨es', hes', hdep⟩
    exact ⟨ds, hds, (h.depends_iff hds hes').2 hdep⟩

theorem mem_ready_iff (h : Relabels f g g') {k : κ} (hk : k ∈ g.keys) :
    k ∈ g.ready.keys ↔ f k ∈ g'.ready.keys := by
  obtain ⟨ds, hds⟩ := mem_keys.1 hk
  obtain ⟨ds', hds'⟩ := mem_keys.1 ((h.onto (f k)).2 ⟨k, hk, rfl⟩)
  have hiff := not_congr (h.depends_iff hds hds')
  simp only [not_exists, not_and] at hiff
  rw [mem_keys_ready, mem_keys_ready]
  constructor
  · rintro ⟨es, hes, hnone⟩
    exact ⟨ds', hds', hiff.1 (eq_of_mem h.nodup hes hds ▸ hnone)⟩
  · rintro ⟨es', hes', hnone⟩
    exact ⟨ds, hds, hiff.2 (eq_of_mem h.nodup' hes' hds' ▸ hnone)⟩

/-- What waits is the same graph again. -/
theorem waiting (h : Relabels f g g') : Relabels f g.waiting g'.waiting where
  nodup := nodup_keys_waiting h.nodup
  nodup' := nodup_keys_waiting h.nodup'
  injective := fun a ha b hb => h.injective a (mem_keys_of_waiting ha) b (mem_keys_of_waiting hb)
  onto := by
    intro k'
    constructor
    · intro hk'
      obtain ⟨k, hk, rfl⟩ := (h.onto k').1 (mem_keys_of_waiting hk')
      exact ⟨k, (h.mem_waiting_iff hk).2 hk', rfl⟩
    · rintro ⟨k, hk, rfl⟩
      exact (h.mem_waiting_iff (mem_keys_of_waiting hk)).1 hk
  edges := fun k ds ds' hk hk' d hd =>
    h.edges k ds ds' (mem_waiting.1 hk).1 (mem_waiting.1 hk').1 d (mem_keys_of_waiting hd)

/-- The first layers are the same. -/
theorem ready (h : Relabels f g g') : (g.ready.keys.map f).Perm g'.ready.keys := by
  have hnodup : (g.ready.keys.map f).Nodup := by
    refine (nodup_keys_ready h.nodup).map_on fun a ha b hb => ?_
    exact h.injective a (mem_keys_of_ready ha) b (mem_keys_of_ready hb)
  refine (List.perm_ext_iff_of_nodup hnodup (nodup_keys_ready h.nodup')).2 fun k' => ?_
  rw [List.mem_map]
  constructor
  · rintro ⟨k, hk, rfl⟩
    exact (h.mem_ready_iff (mem_keys_of_ready hk)).1 hk
  · intro hk'
    obtain ⟨k, hk, rfl⟩ := (h.onto k').1 (mem_keys_of_ready hk')
    exact ⟨k, (h.mem_ready_iff hk).2 hk', rfl⟩

/-- **The layers of the same graph are the same**, up to the order inside a layer, and nodes are
left over in both or in neither. -/
theorem layers (h : Relabels f g g') :
    List.Forall₂ (fun l l' => (l.map f).Perm l') g.layers.1 g'.layers.1 ∧
      (g.layers.2 = [] ↔ g'.layers.2 = []) := by
  have hkeys : ∀ {κ : Type} {g : Graph κ}, g = [] ↔ g.keys = [] := List.map_eq_nil_iff.symm
  have hready := h.ready
  induction hn : g.length using Nat.strongRecOn generalizing g g' with
  | ind n ih =>
    subst hn
    by_cases hnil : g.ready = []
    · have hnil' : g'.ready = [] := by
        rw [hkeys] at hnil ⊢
        rw [hnil, List.map_nil] at hready
        exact hready.nil_eq.symm
      rw [layers_of_ready_eq_nil hnil, layers_of_ready_eq_nil hnil']
      refine ⟨.nil, ?_⟩
      have hmem : ∀ {κ : Type} {g : Graph κ}, g = [] ↔ ∀ k, k ∉ g.keys := fun {κ g} =>
        hkeys.trans List.eq_nil_iff_forall_not_mem
      rw [hmem, hmem]
      constructor
      · intro hnone k' hk'
        obtain ⟨k, hk, _⟩ := (h.onto k').1 hk'
        exact hnone k hk
      · intro hnone k hk
        exact hnone (f k) ((h.onto _).2 ⟨k, hk, rfl⟩)
    · have hnil' : g'.ready ≠ [] := by
        rw [hkeys] at hnil
        rw [ne_eq, hkeys]
        intro hempty
        rw [hempty] at hready
        exact hnil (List.map_eq_nil_iff.1 hready.eq_nil)
      rw [layers_of_ready_ne_nil hnil, layers_of_ready_ne_nil hnil']
      obtain ⟨hlater, hrest⟩ := ih g.waiting.length (length_waiting hnil) h.waiting
        h.waiting.ready rfl
      exact ⟨.cons hready hlater, hrest⟩

end Relabels

/-! ## Graphs without cycles -/

/-- A graph that is not empty and whose nodes depend on smaller ones has a node that is ready. -/
theorem ready_ne_nil {g : Graph Nat} (hne : g ≠ [])
    (h : ∀ k ds, (k, ds) ∈ g → ∀ d ∈ ds, d ∈ g.keys → d < k) : g.ready ≠ [] := by
  have hleast : ∀ n k, k ≤ n → k ∈ g.keys → ∃ k, k ∈ g.ready.keys := by
    intro n
    induction n with
    | zero =>
      intro k hk hmem
      obtain ⟨ds, hds⟩ := mem_keys.1 hmem
      refine ⟨k, mem_keys_ready.2 ⟨ds, hds, fun d hd hdep => ?_⟩⟩
      have := h k ds hds d hdep hd
      omega
    | succ n ih =>
      intro k hk hmem
      by_cases hready : k ∈ g.ready.keys
      · exact ⟨k, hready⟩
      · obtain ⟨ds, hds, d, hd, hdep⟩ :=
          mem_keys_waiting.1 ((mem_ready_or_waiting hmem).resolve_left hready)
        have := h k ds hds d hdep hd
        exact ih d (by omega) hd
  obtain ⟨node, hnode⟩ := List.exists_mem_of_ne_nil g hne
  obtain ⟨k, hk⟩ := hleast node.1 node.1 (Nat.le_refl _) (List.mem_map_of_mem hnode)
  intro hnil
  rw [hnil] at hk
  cases hk

/-- **Where nodes depend on smaller ones only, no node is left over.** -/
theorem rest_eq_nil_of_lt {g : Graph Nat}
    (h : ∀ k ds, (k, ds) ∈ g → ∀ d ∈ ds, d ∈ g.keys → d < k) : g.layers.2 = [] := by
  induction hn : g.length using Nat.strongRecOn generalizing g with
  | ind n ih =>
    subst hn
    by_cases hnil : g.ready = []
    · rw [layers_of_ready_eq_nil hnil]
      exact Classical.not_not.1 fun hne => ready_ne_nil hne h hnil
    · rw [layers_of_ready_ne_nil hnil]
      refine ih g.waiting.length (length_waiting hnil) (fun k ds hmem d hd hk => ?_) rfl
      exact h k ds (mem_waiting.1 hmem).1 d hd (mem_keys_of_waiting hk)

end Graph
end ProofKernel
