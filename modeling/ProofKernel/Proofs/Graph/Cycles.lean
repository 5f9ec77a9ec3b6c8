import ProofKernel.Proofs.Graph.Countdown

/-!
# Searching for cycles

* `Graph.IsCycle` is a list of distinct nodes each of which depends on the next, and the last on the
  first.
* `Graph.Trail` is the path of a search, and `Graph.Trail.isCycle`: a path that comes back to one of
  its nodes has closed a cycle.
* `Graph.visit_error` and `Graph.visit_ok`: a visit that fails reports a cycle, and one that does
  not has seen that no chain of dependencies from its node goes on for ever.
* `Graph.cycle?_eq_none_iff` and `Graph.isCycle_of_cycle?` say the same of the whole search.
-/

set_option autoImplicit false
namespace ProofKernel
namespace Graph

variable {κ : Type} {g : Graph κ} {k : κ}

/-- Distinct nodes, each of which depends on the next, and the last on the first. -/
structure IsCycle (g : Graph κ) (cycle : List κ) : Prop where
  nonempty : cycle ≠ []
  nodup : cycle.Nodup
  next : cycle.IsChain g.Depends
  closed : ∀ first ∈ cycle.head?, ∀ last ∈ cycle.getLast?, g.Depends last first

/-- Every node of a cycle depends on one of its nodes. -/
theorem IsCycle.exists_depends {cycle : List κ} (h : g.IsCycle cycle) (hk : k ∈ cycle) :
    ∃ d, g.Depends k d := by
  obtain ⟨before, after, rfl⟩ := List.append_of_mem hk
  cases after with
  | nil =>
    obtain ⟨first, hfirst⟩ : ∃ first, first ∈ (before ++ [k]).head? := by
      cases before <;> exact ⟨_, rfl⟩
    exact ⟨first, h.closed first hfirst k (by simp)⟩
  | cons d after =>
    exact ⟨d, (List.isChain_cons_cons.1 (List.isChain_append.1 h.next).2.1).1⟩

/-- Nodes that go round in a cycle depend on themselves. -/
theorem IsCycle.not_acyclic {cycle : List κ} (h : g.IsCycle cycle) : ¬ g.Acyclic := by
  intro hacyclic
  cases hcycle : cycle with
  | nil => exact h.nonempty hcycle
  | cons first rest =>
    subst hcycle
    have hround := List.relationReflTransGen_of_exists_isChain_cons rest h.next rfl
    exact hacyclic first (.tail' hround (h.closed _ rfl _ (List.getLast?_eq_some_getLast _)))

/-- No chain of dependencies from a node goes on for ever. -/
abbrev Grounded (g : Graph κ) (k : κ) : Prop :=
  Acc (fun d k => g.Depends k d) k

theorem Grounded.not_transGen (h : g.Grounded k) : ¬ Relation.TransGen g.Depends k k := by
  induction h with
  | intro k _ ih =>
    intro hcycle
    obtain ⟨d, hd, hrest⟩ := Relation.TransGen.head'_iff.1 hcycle
    exact ih d hd (Relation.TransGen.tail' hrest hd)

/-! ## Paths of a search -/

/-- A path of distinct nodes leads to a node. -/
structure Trail (g : Graph κ) (path : List κ) (k : κ) : Prop where
  nodup : path.Nodup
  chain : (path ++ [k]).IsChain g.Depends
  node : k ∈ g.keys

theorem Trail.nil (hk : k ∈ g.keys) : Trail g [] k :=
  ⟨.nil, .singleton k, hk⟩

/-- A path leads on to what its last node depends on. -/
theorem Trail.snoc {path : List κ} {d : κ} (h : Trail g path k) (hk : k ∉ path)
    (hd : g.Depends k d) : Trail g (path ++ [k]) d where
  nodup := by
    rw [← List.concat_eq_append]
    exact h.nodup.concat hk
  chain := by
    refine List.isChain_append.2 ⟨h.chain, .singleton d, fun last hlast next hnext => ?_⟩
    rw [List.getLast?_concat] at hlast
    cases hlast
    cases hnext
    exact hd
  node := hd.mem_right

/-- A path stays within the graph. -/
theorem Trail.length_le {path : List κ} (h : Trail g path k) : path.length ≤ g.keys.length := by
  refine (h.nodup.subperm fun j hj => ?_).length_le
  obtain ⟨before, after, rfl⟩ := List.append_of_mem hj
  have hchain := h.chain
  rw [List.append_assoc] at hchain
  -- the node is followed by another one, the last of all by the node that the path leads to
  obtain ⟨next, hnext⟩ : ∃ next, next ∈ (after ++ [k]).head? := by
    cases after <;> exact ⟨_, rfl⟩
  exact ((List.isChain_cons.1 (List.isChain_append.1 hchain).2.1).1 next hnext).mem_left

variable [DecidableEq κ]

/-- **A path that comes back to one of its nodes has closed a cycle.** -/
theorem Trail.isCycle {path : List κ} (h : Trail g path k) (hk : k ∈ path) :
    g.IsCycle (path.dropWhile (· ≠ k)) := by
  obtain ⟨before, after, rfl, hbefore⟩ := List.eq_append_cons_of_mem hk
  have hother : ∀ j ∈ before, decide (j ≠ k) = true := by
    rintro j hj
    exact decide_eq_true fun hjk => hbefore (hjk ▸ hj)
  have hdrop : (before ++ k :: after).dropWhile (· ≠ k) = k :: after := by
    rw [List.dropWhile_append_of_pos hother]
    exact List.dropWhile_cons_of_neg (by simp)
  have hchain := h.chain
  rw [List.append_assoc] at hchain
  obtain ⟨hnext, _, hlast⟩ := List.isChain_append.1 (List.isChain_append.1 hchain).2.1
  rw [hdrop]
  refine ⟨List.cons_ne_nil k after, (List.nodup_append.1 h.nodup).2.1, hnext, ?_⟩
  rintro first ⟨⟩ last hmem
  exact hlast last hmem k rfl

/-! ## Visits -/

/-- A loop that fails has failed at one of its steps. -/
theorem exists_of_foldlM_error {α σ ε : Type} {f : σ → α → Except ε σ} {l : List α} {s : σ} {e : ε}
    (h : l.foldlM f s = .error e) : ∃ a ∈ l, ∃ s', f s' a = .error e := by
  induction l generalizing s with
  | nil => cases h
  | cons a rest ih =>
    rw [List.foldlM_cons] at h
    cases hstep : f s a with
    | error e' =>
      rw [hstep] at h
      cases h
      exact ⟨a, List.mem_cons_self, s, hstep⟩
    | ok s' =>
      rw [hstep] at h
      obtain ⟨b, hb, hfail⟩ := ih h
      exact ⟨b, List.mem_cons_of_mem a hb, hfail⟩

/-- **A visit that fails reports a cycle.** -/
theorem visit_error (h : g.keys.Nodup) {n : Nat} {path visited cycle : List κ}
    (htrail : Trail g path k) (hvisit : g.visit n path visited k = .error cycle) :
    g.IsCycle cycle := by
  induction n generalizing path visited k with
  | zero => cases hvisit
  | succ n ih =>
    rw [visit] at hvisit
    split at hvisit
    · next hk =>
      cases hvisit
      exact htrail.isCycle hk
    · next hk =>
      split at hvisit
      · cases hvisit
      · obtain ⟨d, hd, visited', hfail⟩ := exists_of_foldlM_error hvisit
        exact ih (htrail.snoc hk ((mem_dependencies h).1 hd)) hfail

/-- What was visited, but for the path that the search is on, is grounded. -/
def Searched (g : Graph κ) (path visited : List κ) : Prop :=
  ∀ k ∈ visited, k ∉ path → g.Grounded k

/-- Nodes that are visited one after the other are grounded, if each visit sees that of its own. -/
theorem foldlM_visit_ok {n : Nat} {path ds visited visited' : List κ}
    (hstep : ∀ d ∈ ds, ∀ seen seen', g.Searched path seen → g.visit n path seen d = .ok seen' →
      g.Searched path seen' ∧ g.Grounded d)
    (hsearched : g.Searched path visited)
    (hvisit : ds.foldlM (g.visit n path) visited = .ok visited') :
    g.Searched path visited' ∧ ∀ d ∈ ds, g.Grounded d := by
  induction ds generalizing visited with
  | nil =>
    cases hvisit
    exact ⟨hsearched, List.forall_mem_nil _⟩
  | cons d rest ih =>
    rw [List.forall_mem_cons] at hstep
    rw [List.foldlM_cons] at hvisit
    cases hfirst : g.visit n path visited d with
    | error e =>
      rw [hfirst] at hvisit
      cases hvisit
    | ok seen =>
      rw [hfirst] at hvisit
      obtain ⟨hseen, hground⟩ := hstep.1 visited seen hsearched hfirst
      obtain ⟨hall, hrest⟩ := ih hstep.2 hseen hvisit
      exact ⟨hall, List.forall_mem_cons.2 ⟨hground, hrest⟩⟩

/-- **A visit that does not fail has seen that its node is grounded.**  A path is no longer than the
graph, so that the depth of the search is enough. -/
theorem visit_ok (h : g.keys.Nodup) {n : Nat} {path visited visited' : List κ}
    (htrail : Trail g path k) (hn : g.keys.length < n + path.length)
    (hsearched : g.Searched path visited) (hvisit : g.visit n path visited k = .ok visited') :
    g.Searched path visited' ∧ g.Grounded k := by
  induction n generalizing path visited visited' k with
  | zero => exact absurd htrail.length_le (by omega)
  | succ n ih =>
    rw [visit] at hvisit
    split at hvisit
    · cases hvisit
    · next hpath =>
      split at hvisit
      · next hk =>
        cases hvisit
        exact ⟨hsearched, hsearched k hk hpath⟩
      · -- all that the node depends on is visited with the node on the path
        have hstep : ∀ d ∈ g.dependencies k, ∀ seen seen', g.Searched (path ++ [k]) seen →
            g.visit n (path ++ [k]) seen d = .ok seen' →
            g.Searched (path ++ [k]) seen' ∧ g.Grounded d := by
          intro d hd seen seen' hseen hdone
          refine ih (htrail.snoc hpath ((mem_dependencies h).1 hd)) ?_ hseen hdone
          rw [List.length_append, List.length_singleton]
          omega
        have hstart : g.Searched (path ++ [k]) (k :: visited) := by
          intro j hj hjpath
          rcases List.mem_cons.1 hj with rfl | hj
          · exact absurd (List.mem_append_right path List.mem_cons_self) hjpath
          · exact hsearched j hj fun hmem => hjpath (List.mem_append_left _ hmem)
        obtain ⟨hall, hdeps⟩ := foldlM_visit_ok hstep hstart hvisit
        have hground : g.Grounded k :=
          .intro k fun d hd => hdeps d ((mem_dependencies h).2 hd)
        refine ⟨fun j hj hjpath => ?_, hground⟩
        by_cases hjk : j = k
        · exact hjk ▸ hground
        · exact hall j hj (by simp [hjpath, hjk])

/-! ## The whole search -/

/-- **What the search finds is a cycle.** -/
theorem isCycle_of_cycle? (h : g.keys.Nodup) {cycle : List κ} (hcycle : g.cycle? = some cycle) :
    g.IsCycle cycle := by
  unfold cycle? at hcycle
  split at hcycle
  · cases hcycle
  · next hfail =>
    cases hcycle
    obtain ⟨k, hk, visited, hvisit⟩ := exists_of_foldlM_error hfail
    exact visit_error h (.nil hk) hvisit

/-- **The search finds nothing iff the graph has no cycle.** -/
theorem cycle?_eq_none_iff (h : g.keys.Nodup) : g.cycle? = none ↔ g.Acyclic := by
  constructor
  · intro hnone k hcycle
    unfold cycle? at hnone
    split at hnone
    · next hdone =>
      have hstep : ∀ k ∈ g.keys, ∀ seen seen', g.Searched [] seen →
          g.visit (g.length + 1) [] seen k = .ok seen' → g.Searched [] seen' ∧ g.Grounded k := by
        intro k hk seen seen' hseen hvisit
        refine visit_ok h (.nil hk) ?_ hseen hvisit
        rw [keys, List.length_map, List.length_nil]
        omega
      obtain ⟨d, hd, _⟩ := Relation.TransGen.head'_iff.1 hcycle
      have hfirst : g.Searched [] [] := List.forall_mem_nil _
      exact ((foldlM_visit_ok hstep hfirst hdone).2 k hd.mem_left).not_transGen hcycle
    · cases hnone
  · intro hacyclic
    cases hcycle : g.cycle? with
    | none => rfl
    | some cycle => exact absurd hacyclic (isCycle_of_cycle? h hcycle).not_acyclic

end Graph
end ProofKernel
