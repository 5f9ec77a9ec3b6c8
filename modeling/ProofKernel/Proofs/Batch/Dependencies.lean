import Mathlib.Data.List.Perm.Basic
import ProofKernel.Batch
import ProofKernel.Proofs.Graph.Countdown

/-!
# Which declarations need which

The layers of a list of statements are computed on positions.  Where no name is provided twice they
depend on the declarations alone.

* `ProvidedOnce` says that no name is provided twice; then no statement is set aside
  (`Batch.rejectDuplicates_eq_map`).
* `FirstProvides` says which statement a name is looked for at (`provider?_eq_some_iff`).
* `Statement.needs` is dependency between statements; `needsGraph` is the graph of it.
* `relabels_needsGraph`: the graph on positions is this graph, for any order of the declarations.
-/

set_option autoImplicit false
namespace ProofKernel

/-! ## Positions of declarations -/

/-- No name is provided twice. -/
def ProvidedOnce (statements : List Statement) : Prop :=
  (statements.flatMap (·.provides)).Nodup

theorem Statement.exists_mem_provides {s : Statement} (h : s.isDeclaration = true) :
    ∃ name, name ∈ s.provides := by
  cases s with
  | declare d => cases d <;> exact ⟨_, List.mem_cons_self⟩
  | _ => cases h

theorem Statement.isDeclaration_of_mem_provides {s : Statement} {name : String}
    (h : name ∈ s.provides) : s.isDeclaration = true := by
  cases s with
  | declare d => rfl
  | _ => cases h

variable {statements : List Statement} {s s' : Statement} {i j : Nat}

/-- A name is provided at one position only. -/
theorem ProvidedOnce.position_eq (h : ProvidedOnce statements) {name : String}
    (hi : statements[i]? = some s) (hj : statements[j]? = some s') (hs : name ∈ s.provides)
    (hs' : name ∈ s'.provides) : i = j := by
  obtain ⟨hlt, rfl⟩ := List.getElem?_eq_some_iff.1 hi
  obtain ⟨hlt', rfl⟩ := List.getElem?_eq_some_iff.1 hj
  have hdisjoint := List.pairwise_iff_getElem.1 (List.nodup_flatMap.1 h).2
  rcases Nat.lt_trichotomy i j with hij | heq | hji
  · exact absurd hs' (hdisjoint i j hlt hlt' hij hs)
  · exact heq
  · exact absurd hs (hdisjoint j i hlt' hlt hji hs')

theorem ProvidedOnce.perm {statements' : List Statement} (h : ProvidedOnce statements)
    (hp : statements.Perm statements') : ProvidedOnce statements' :=
  (hp.flatMap fun _ _ => .refl _).nodup_iff.1 h

/-- A statement is set aside only for a name that was seen or is taken. -/
theorem Batch.rejectDuplicates_of_nodup {table : SymbolTable} {seen : List String}
    (h : (seen ++ statements.flatMap (·.provides)).Nodup)
    (hnew : ∀ s ∈ statements, ∀ name ∈ s.provides, table.defined name = false) :
    rejectDuplicates table seen statements = statements.map .ok := by
  induction statements generalizing seen with
  | nil => rfl
  | cons s rest ih =>
    rw [List.forall_mem_cons] at hnew
    rw [List.flatMap_cons, ← List.append_assoc] at h
    rw [rejectDuplicates, List.map_cons]
    split
    · have hfind :
          s.provides.find? (fun name => seen.contains name || table.defined name) = none := by
        refine List.find?_eq_none.2 fun name hname => ?_
        have hseen : name ∉ seen := fun hmem =>
          (List.nodup_append.1 (List.nodup_append.1 h).1).2.2 name hmem name hname rfl
        simp [hseen, hnew.1 name hname]
      rw [hfind]
      dsimp only [Option.filter_none]
      rw [ih h hnew.2]
    · next hs =>
      have hnone : s.provides = [] := by
        cases s with
        | declare d => exact absurd rfl hs
        | _ => rfl
      rw [hnone, List.append_nil] at h
      rw [ih h hnew.2]

/-- Where no name is provided twice and none is taken, no statement is set aside. -/
theorem Batch.rejectDuplicates_eq_map {table : SymbolTable} (h : ProvidedOnce statements)
    (hnew : ∀ s ∈ statements, ∀ name ∈ s.provides, table.defined name = false) :
    rejectDuplicates table [] statements = statements.map .ok :=
  rejectDuplicates_of_nodup (List.nil_append _ ▸ h) hnew

theorem mem_declarationsAt_iff {entries : List (Option Statement)} :
    (i, s) ∈ declarationsAt entries ↔ entries[i]? = some (some s) ∧ s.isDeclaration = true := by
  unfold declarationsAt
  rw [List.mem_filterMap]
  constructor
  · rintro ⟨⟨o, k⟩, hmem, hsome⟩
    have hget := List.mem_zipIdx_iff_getElem?.1 hmem
    dsimp only at hsome hget
    split at hsome
    · split at hsome
      · next hdecl =>
        cases hsome
        exact ⟨hget, hdecl⟩
      · cases hsome
    · cases hsome
  · rintro ⟨hget, hdecl⟩
    refine ⟨(some s, i), List.mem_zipIdx_iff_getElem?.2 hget, ?_⟩
    dsimp only
    rw [if_pos hdecl]

/-- Declarations are listed in the order of their positions. -/
theorem increasing_declarationsAt (entries : List (Option Statement)) :
    ((declarationsAt entries).map Prod.fst).Pairwise (· < ·) := by
  have hzip : (entries.zipIdx.map Prod.snd).Pairwise (· < ·) := by
    rw [List.zipIdx_map_snd]
    exact List.pairwise_lt_range'
  unfold declarationsAt
  rw [List.pairwise_map, List.pairwise_filterMap]
  refine (List.pairwise_map.1 hzip).imp ?_
  -- the position of a declaration is the one it was taken from
  rintro ⟨_ | s, i⟩ ⟨_ | s', j⟩ hlt p hp q hq
  · cases hp
  · cases hp
  · cases hq
  · dsimp only at hp hq
    rw [Option.ite_none_right_eq_some] at hp hq
    cases hp.2
    cases hq.2
    exact hlt

/-- The statement at a position provides a name that no statement before it provides. -/
structure FirstProvides (entries : List (Option Statement)) (i : Nat) (name : String) : Prop where
  provides : ∃ s, entries[i]? = some (some s) ∧ name ∈ s.provides
  first : ∀ k < i, ∀ s, entries[k]? = some (some s) → name ∉ s.provides

/-- **A name is looked for at the first declaration that provides it.** -/
theorem provider?_eq_some_iff {entries : List (Option Statement)} {name : String} :
    provider? (declarationsAt entries) name = some i ↔ FirstProvides entries i name := by
  have hmem : ∀ {k : Nat} {s : Statement}, entries[k]? = some (some s) → name ∈ s.provides →
      (k, s) ∈ declarationsAt entries := fun hget hname =>
    mem_declarationsAt_iff.2 ⟨hget, Statement.isDeclaration_of_mem_provides hname⟩
  -- what is found stands before every other declaration that provides the name
  have hfirst : ∀ {k : Nat} {s : Statement},
      (declarationsAt entries).find? (fun p => p.2.provides.contains name) = some (k, s) →
      name ∈ s.provides ∧
        ∀ j s', (j, s') ∈ declarationsAt entries → name ∈ s'.provides → k ≤ j := by
    intro k s hfind
    obtain ⟨hname, before, after, hsplit, hbefore⟩ := List.find?_eq_some_iff_append.1 hfind
    refine ⟨List.contains_iff_mem.1 hname, fun j s' hj hname' => ?_⟩
    have hincreasing := increasing_declarationsAt entries
    rw [hsplit, List.map_append, List.map_cons] at hincreasing
    rw [hsplit, List.mem_append, List.mem_cons] at hj
    rcases hj with hj | heq | hj
    · simpa [hname'] using hbefore _ hj
    · exact (congrArg Prod.fst heq).ge
    · have hafter := (List.pairwise_cons.1 (List.pairwise_append.1 hincreasing).2.1).1
      exact (hafter j (List.mem_map_of_mem hj)).le
  rw [provider?, Option.map_eq_some_iff]
  constructor
  · rintro ⟨⟨k, s⟩, hfind, rfl⟩
    obtain ⟨hname, hle⟩ := hfirst hfind
    have hget := (mem_declarationsAt_iff.1 (List.mem_of_find?_eq_some hfind)).1
    refine ⟨⟨s, hget, hname⟩, fun j hj s' hget' hname' => ?_⟩
    exact absurd (hle j s' (hmem hget' hname') hname') (Nat.not_le.2 hj)
  · rintro ⟨⟨s, hget, hname⟩, hnone⟩
    cases hfind : (declarationsAt entries).find? (fun p => p.2.provides.contains name) with
    | none =>
      have := List.find?_eq_none.1 hfind (i, s) (hmem hget hname)
      exact absurd (List.contains_iff_mem.2 hname) this
    | some p =>
      obtain ⟨k, s'⟩ := p
      obtain ⟨hname', hle⟩ := hfirst hfind
      have hget' := (mem_declarationsAt_iff.1 (List.mem_of_find?_eq_some hfind)).1
      refine ⟨_, rfl, Nat.le_antisymm (hle i s (hmem hget hname) hname) (Nat.not_lt.1 fun hk => ?_)⟩
      exact hnone k hk s' hget' hname'

theorem mem_declarationsAt :
    (i, s) ∈ declarationsAt (statements.map some) ↔
      statements[i]? = some s ∧ s.isDeclaration = true := by
  rw [mem_declarationsAt_iff, List.getElem?_map, Option.map_eq_some_iff]
  simp only [Option.some.injEq, exists_eq_right]

/-- The positions of the declarations among statements. -/
def positions (statements : List Statement) : List Nat :=
  (declarationsAt (statements.map some)).map Prod.fst

theorem mem_positions :
    i ∈ positions statements ↔ ∃ s, statements[i]? = some s ∧ s.isDeclaration = true := by
  rw [positions, List.mem_map]
  constructor
  · rintro ⟨⟨k, s⟩, hmem, rfl⟩
    exact ⟨s, mem_declarationsAt.1 hmem⟩
  · rintro ⟨s, hs⟩
    exact ⟨(i, s), mem_declarationsAt.2 hs, rfl⟩

theorem nodup_positions (statements : List Statement) : (positions statements).Nodup :=
  (increasing_declarationsAt _).imp Nat.ne_of_lt

/-! ## Dependencies -/

/-- Whether a statement needs a name that another one provides. -/
def Statement.needs (s other : Statement) : Bool :=
  s.requires.any other.provides.contains

theorem Statement.needs_iff :
    s.needs s' = true ↔ ∃ name ∈ s.requires, name ∈ s'.provides := by
  simp [needs]

/-- The graph of which statements need which. -/
def needsGraph (declared : List Statement) : Graph Statement :=
  declared.map fun s => (s, declared.filter s.needs)

theorem keys_needsGraph (declared : List Statement) : (needsGraph declared).keys = declared := by
  rw [Graph.keys, needsGraph, List.map_map]
  exact List.map_id'' (fun _ => rfl) _

/-- Where no name is provided twice, it is looked for where it is provided. -/
theorem ProvidedOnce.provider?_eq_some_iff (h : ProvidedOnce statements) {name : String} :
    provider? (declarationsAt (statements.map some)) name = some j ↔
      ∃ s, statements[j]? = some s ∧ name ∈ s.provides := by
  have hget : ∀ {k : Nat} {s : Statement},
      (statements.map some)[k]? = some (some s) ↔ statements[k]? = some s := by
    intro k s
    rw [List.getElem?_map, Option.map_eq_some_iff]
    simp only [Option.some.injEq, exists_eq_right]
  rw [ProofKernel.provider?_eq_some_iff]
  constructor
  · rintro ⟨⟨s, hs, hname⟩, -⟩
    exact ⟨s, hget.1 hs, hname⟩
  · rintro ⟨s, hs, hname⟩
    refine ⟨⟨s, hget.2 hs, hname⟩, fun k hk s' hs' hname' => hk.ne ?_⟩
    exact h.position_eq (hget.1 hs') hs hname' hname

/-- A node of the graph on positions. -/
theorem mem_dependencyGraph (h : ProvidedOnce statements) {ds : List Nat} :
    (i, ds) ∈ dependencyGraph (declarationsAt (statements.map some)) →
      ∃ s, statements[i]? = some s ∧ s.isDeclaration = true ∧
        ∀ j s', statements[j]? = some s' → (j ∈ ds ↔ s.needs s' = true) := by
  intro hmem
  obtain ⟨⟨k, s⟩, hk, heq⟩ := List.mem_map.1 hmem
  cases heq
  obtain ⟨hs, hdecl⟩ := mem_declarationsAt.1 hk
  refine ⟨s, hs, hdecl, fun j s' hs' => ?_⟩
  rw [List.mem_eraseDups, List.mem_mergeSort, List.mem_filterMap, Statement.needs_iff]
  refine exists_congr fun name => and_congr_right fun _ => ?_
  rw [h.provider?_eq_some_iff]
  constructor
  · rintro ⟨r, hr, hname⟩
    rw [hs'] at hr
    cases hr
    exact hname
  · intro hname
    exact ⟨s', hs', hname⟩

theorem map_fst_dependencyGraph (declarations : List (Nat × Statement)) :
    (dependencyGraph declarations).keys = declarations.map Prod.fst := by
  rw [Graph.keys, dependencyGraph, List.map_map]
  rfl

theorem keys_dependencyGraph (statements : List Statement) :
    (dependencyGraph (declarationsAt (statements.map some))).keys = positions statements :=
  map_fst_dependencyGraph _

theorem nodup_eraseDups (l : List Nat) : l.eraseDups.Nodup := by
  induction hn : l.length using Nat.strongRecOn generalizing l with
  | ind n ih =>
    subst hn
    cases l with
    | nil => exact .nil
    | cons a rest =>
      have hlt : (rest.filter fun b => !b == a).length < (a :: rest).length :=
        Nat.lt_succ_of_le (List.length_filter_le _ rest)
      rw [List.eraseDups_cons]
      refine List.nodup_cons.2 ⟨fun ha => ?_, ih _ hlt _ rfl⟩
      simpa using (List.mem_filter.1 (List.mem_eraseDups.1 ha)).2

/-- The graph of declarations lists its nodes in order and each dependency once. -/
theorem ordered_dependencyGraph (entries : List (Option Statement)) :
    (dependencyGraph (declarationsAt entries)).Ordered where
  increasing := by
    rw [map_fst_dependencyGraph]
    exact increasing_declarationsAt entries
  once := by
    intro node hnode
    obtain ⟨⟨i, s⟩, _, rfl⟩ := List.mem_map.1 hnode
    exact nodup_eraseDups _

/-- The layers of declarations are those of their graph, unless there is a cycle. -/
theorem declarationLayers_eq (entries : List (Option Statement)) :
    let declarations := declarationsAt entries
    let graph := dependencyGraph declarations
    declarationLayers entries =
      if graph.layers.2 = [] then .ok graph.layers.1
      else .error (.cycle ((graph.cycle?.getD []).filterMap fun i =>
        ((declarations.lookup i).map Statement.provides).bind List.head?)) := by
  unfold declarationLayers
  dsimp only
  rw [Graph.countedLayers_eq (ordered_dependencyGraph entries)]
  simp only [decide_eq_true_iff]

/-- The statement at a position, or one that declares nothing where there is none. -/
def statementAt (statements : List Statement) (i : Nat) : Statement :=
  statements[i]?.getD (.hint "")

theorem statementAt_eq (h : statements[i]? = some s) : statementAt statements i = s := by
  rw [statementAt, h, Option.getD_some]

/-- **The graph on positions is that of the declarations**, in whatever order these are listed. -/
theorem relabels_needsGraph (h : ProvidedOnce statements) {declared : List Statement}
    (hp : (statements.filter (·.isDeclaration)).Perm declared) :
    Graph.Relabels (statementAt statements)
      (dependencyGraph (declarationsAt (statements.map some))) (needsGraph declared) where
  nodup := by
    rw [keys_dependencyGraph]
    exact nodup_positions statements
  nodup' := by
    rw [keys_needsGraph]
    refine hp.nodup_iff.1 ?_
    -- a declaration that stands twice would provide its name twice
    refine List.pairwise_filter.2
      ((List.nodup_flatMap.1 h).2.imp fun {a b} hdisjoint ha _ heq => ?_)
    obtain ⟨name, hname⟩ := Statement.exists_mem_provides ha
    exact hdisjoint hname (heq ▸ hname)
  injective := by
    intro a ha b hb heq
    rw [keys_dependencyGraph] at ha hb
    obtain ⟨s, hs, hdecl⟩ := mem_positions.1 ha
    obtain ⟨s', hs', _⟩ := mem_positions.1 hb
    rw [statementAt_eq hs, statementAt_eq hs'] at heq
    obtain ⟨name, hname⟩ := Statement.exists_mem_provides hdecl
    exact h.position_eq hs hs' hname (heq ▸ hname)
  onto := by
    intro s
    rw [keys_needsGraph, keys_dependencyGraph, ← hp.mem_iff, List.mem_filter]
    constructor
    · rintro ⟨hmem, hdecl⟩
      obtain ⟨i, hi⟩ := List.mem_iff_getElem?.1 hmem
      exact ⟨i, mem_positions.2 ⟨s, hi, hdecl⟩, statementAt_eq hi⟩
    · rintro ⟨i, hi, rfl⟩
      obtain ⟨r, hr, hdecl⟩ := mem_positions.1 hi
      rw [statementAt_eq hr]
      exact ⟨List.mem_of_getElem? hr, hdecl⟩
  edges := by
    intro k ds ds' hk hk' d hd
    rw [keys_dependencyGraph] at hd
    obtain ⟨s, hs, _, hneeds⟩ := mem_dependencyGraph h hk
    obtain ⟨r, hr, hdecl⟩ := mem_positions.1 hd
    obtain ⟨q, hq, heq⟩ := List.mem_map.1 hk'
    cases heq
    have hmem : r ∈ declared :=
      hp.mem_iff.1 (List.mem_filter.2 ⟨List.mem_of_getElem? hr, hdecl⟩)
    rw [hneeds d r hr, statementAt_eq hs, statementAt_eq hr, List.mem_filter]
    exact ⟨fun hn => ⟨hmem, hn⟩, fun hn => hn.2⟩

end ProofKernel
