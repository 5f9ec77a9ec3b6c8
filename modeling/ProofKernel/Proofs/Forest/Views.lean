import ProofKernel.SymbolTable.Forest
import ProofKernel.Proofs.Declaration.Publication

/-!
# The tables of a forest

A table is seen through the layers it was forked from, so that a change to one layer is seen from
every table above it.

* `Forest.WellFormed` says that tables were forked from older ones.
* `Forest.below_of_parentOf`: what lies below a table are the layers of the one it was forked from.
* `Forest.view_fork` and `Forest.below_setLayer` say what becomes of the other tables when a table
  is forked, and when a layer is replaced.
-/

set_option autoImplicit false
namespace ProofKernel
namespace Forest

variable {f : Forest} {i j p : Nat} {layer : Layer}

/-! ## Layers by place -/

/-- Every table was forked from an older one. -/
def WellFormed (f : Forest) : Prop :=
  ∀ i p, f.parentOf i = some p → p < i

theorem parentOf_lt_size (h : f.parentOf i = some p) : i < f.size := by
  rcases Nat.lt_or_ge i f.size with hlt | hge
  · exact hlt
  · rw [parentOf, List.getElem?_eq_none (by simpa [size] using hge)] at h
    cases h

/-- The node at a place. -/
theorem exists_node (h : i < f.size) : ∃ node, f.nodes.reverse[i]? = some node :=
  ⟨_, List.getElem?_eq_getElem (by simpa [size] using h)⟩

theorem getElem?_reverse_cons {newest : Node} {older : List Node} (h : i < older.length) :
    (newest :: older).reverse[i]? = older.reverse[i]? := by
  rw [List.reverse_cons, List.getElem?_append_left (by simpa using h)]

theorem WellFormed.of_cons {newest : Node} {older : List Node}
    (h : WellFormed ⟨newest :: older⟩) : WellFormed ⟨older⟩ := by
  intro i p hp
  have hlt : i < older.length := parentOf_lt_size hp
  refine h i p ?_
  rw [parentOf, getElem?_reverse_cons hlt]
  exact hp

theorem layersAt_cons_of_lt {newest : Node} {older : List Node} (h : i < older.length) :
    layersAt (newest :: older) i = layersAt older i :=
  if_neg (Nat.ne_of_lt h)

/-- The layers seen from a place are its own and those seen from the place it was forked from. -/
theorem layersAt_eq {nodes : List Node} {node : Node} (h : WellFormed ⟨nodes⟩)
    (hi : nodes.reverse[i]? = some node) :
    layersAt nodes i = node.layer :: (node.parent.map (layersAt nodes)).getD [] := by
  induction nodes with
  | nil => simp at hi
  | cons newest older ih =>
    have hparent : ∀ p, node.parent = some p → p < i := fun p hp =>
      h i p (by rw [parentOf, hi]; exact hp)
    rcases Nat.lt_or_ge i older.length with hlt | hge
    · rw [getElem?_reverse_cons hlt] at hi
      rw [layersAt_cons_of_lt hlt, ih h.of_cons hi]
      cases hp : node.parent with
      | none => rfl
      | some p =>
        have hlt' : p < older.length := Nat.lt_trans (hparent p hp) hlt
        simp only [Option.map_some, layersAt_cons_of_lt hlt']
    · have hlen : i = older.length := by
        have := (List.getElem?_eq_some_iff.1 hi).1
        simp only [List.length_reverse, List.length_cons] at this
        omega
      subst hlen
      obtain rfl : newest = node := by simpa using hi
      rw [layersAt, if_pos rfl]
      cases hp : newest.parent with
      | none => rfl
      | some p => simp only [Option.map_some, Option.getD_some, layersAt_cons_of_lt (hparent p hp)]

/-- A table is its own layer over the layers of the one it was forked from. -/
theorem view_eq {node : Node} (h : f.WellFormed) (hi : f.nodes.reverse[i]? = some node) :
    f.view i = ⟨node.layer, (node.parent.map fun p => (f.view p).layers).getD []⟩ := by
  have hlayers : ∀ q node, f.nodes.reverse[q]? = some node →
      (f.view q).layers = layersAt f.nodes q := by
    intro q node hq
    rw [view, layersAt_eq h hq]
    rfl
  rw [view, layersAt_eq h hi]
  cases hq : node.parent with
  | none => rfl
  | some q =>
    have hparent : f.parentOf i = some q := by rw [parentOf, hi]; exact hq
    have hlt : q < f.size := Nat.lt_trans (h i q hparent) (parentOf_lt_size hparent)
    obtain ⟨parent, hparent⟩ := exists_node hlt
    simp only [Option.map_some, Option.getD_some, hlayers q parent hparent]

theorem below_of_parentOf (h : f.WellFormed) (hi : f.parentOf i = some p) :
    (f.view i).below = (f.view p).layers := by
  obtain ⟨node, hnode⟩ := exists_node (parentOf_lt_size hi)
  have hparent : node.parent = some p := by
    rw [parentOf, hnode] at hi
    exact hi
  rw [view_eq h hnode, hparent]
  rfl

theorem below_of_parentOf_eq_none (h : f.WellFormed) (hi : f.parentOf i = none)
    (hlt : i < f.size) : (f.view i).below = [] := by
  obtain ⟨node, hnode⟩ := exists_node hlt
  have hparent : node.parent = none := by
    rw [parentOf, hnode] at hi
    exact hi
  rw [view_eq h hnode, hparent]
  rfl

/-- There is no table below the oldest one. -/
theorem below_zero (h : f.WellFormed) (hlt : 0 < f.size) : (f.view 0).below = [] := by
  refine below_of_parentOf_eq_none h ?_ hlt
  cases hp : f.parentOf 0 with
  | none => rfl
  | some p => exact absurd (h 0 p hp) (Nat.not_lt_zero p)

/-! ## Forking -/

theorem size_fork : (f.fork p layer).size = f.size + 1 := rfl

theorem parentOf_fork : (f.fork p layer).parentOf i =
    if i = f.size then some p else f.parentOf i := by
  rw [parentOf, fork, List.reverse_cons, parentOf]
  split
  · next heq =>
    subst heq
    simp [size]
  · next hne =>
    rcases Nat.lt_or_ge i f.nodes.reverse.length with hlt | hge
    · rw [List.getElem?_append_left hlt]
    · have hlen : f.nodes.reverse.length = f.size := List.length_reverse
      rw [List.getElem?_eq_none hge, List.getElem?_eq_none ?_]
      simp only [List.length_append, List.length_singleton]
      omega

theorem WellFormed.fork (h : f.WellFormed) (hp : p < f.size) : (f.fork p layer).WellFormed := by
  intro i q hq
  rw [parentOf_fork] at hq
  split at hq
  · next heq =>
    cases hq
    omega
  · exact h i q hq

theorem view_fork (hi : i < f.size) : (f.fork p layer).view i = f.view i := by
  rw [view, Forest.fork, layersAt_cons_of_lt hi, ← view]

theorem view_fork_size (hp : p < f.size) (h : f.WellFormed) :
    (f.fork p layer).view f.size = ⟨layer, (f.view p).layers⟩ := by
  have hnode : (f.fork p layer).nodes.reverse[f.size]? = some ⟨layer, some p⟩ := by
    rw [Forest.fork, List.reverse_cons]
    simp [size]
  rw [view_eq (h.fork hp) hnode]
  simp only [Option.map_some, Option.getD_some, view_fork hp]

/-! ## Replacing a layer -/

theorem getElem?_setLayer : (f.setLayer j layer).nodes.reverse[i]? =
    (f.nodes.reverse[i]?).map fun node => if i = j then { node with layer := layer } else node := by
  rw [setLayer, List.reverse_reverse, List.getElem?_modify]
  split
  · next heq =>
    simp only [heq, if_true]
    rfl
  · next hne => simp [Ne.symm hne]

theorem size_setLayer : (f.setLayer j layer).size = f.size := by
  simp [size, setLayer]

theorem parentOf_setLayer : (f.setLayer j layer).parentOf i = f.parentOf i := by
  rw [parentOf, getElem?_setLayer, Option.bind_map, parentOf]
  refine Option.bind_congr fun node _ => ?_
  simp only [Function.comp]
  split <;> rfl

theorem WellFormed.setLayer (h : f.WellFormed) : (f.setLayer j layer).WellFormed := by
  intro i p hp
  rw [parentOf_setLayer] at hp
  exact h i p hp

theorem own_setLayer (h : f.WellFormed) (hi : i < f.size) (j : Nat) (layer : Layer) :
    ((f.setLayer j layer).view i).own = if i = j then layer else (f.view i).own := by
  obtain ⟨node, hnode⟩ := exists_node hi
  have hset := @getElem?_setLayer f i j layer
  rw [hnode, Option.map_some] at hset
  rw [view_eq h.setLayer hset, view_eq h hnode]
  split <;> rfl

/-- What lies below a table stays if the table it was forked from does. -/
theorem below_setLayer_of_parent (h : f.WellFormed) (hi : i < f.size)
    (hparent : ∀ p, f.parentOf i = some p → (f.setLayer j layer).view p = f.view p) :
    ((f.setLayer j layer).view i).below = (f.view i).below := by
  cases hp : f.parentOf i with
  | none =>
    rw [below_of_parentOf_eq_none h hp hi, below_of_parentOf_eq_none h.setLayer
      (parentOf_setLayer.trans hp) (by rwa [size_setLayer])]
  | some p =>
    rw [below_of_parentOf h hp, below_of_parentOf h.setLayer (parentOf_setLayer.trans hp),
      hparent p hp]

/-- Older tables do not see a change. -/
theorem view_setLayer_of_lt (h : f.WellFormed) (hij : i < j) (hi : i < f.size) :
    (f.setLayer j layer).view i = f.view i := by
  induction i using Nat.strongRecOn with
  | ind i ih =>
    have hown := own_setLayer h hi j layer
    rw [if_neg (Nat.ne_of_lt hij)] at hown
    have hbelow : ((f.setLayer j layer).view i).below = (f.view i).below :=
      below_setLayer_of_parent h hi fun p hp =>
        ih p (h i p hp) (Nat.lt_trans (h i p hp) hij) (Nat.lt_trans (h i p hp) hi)
    exact SymbolTable.mk.injEq .. ▸ ⟨hown, hbelow⟩

theorem view_setLayer_self (h : f.WellFormed) (hj : j < f.size) :
    (f.setLayer j layer).view j = ⟨layer, (f.view j).below⟩ := by
  have hown := own_setLayer h hj j layer
  rw [if_pos rfl] at hown
  have hbelow : ((f.setLayer j layer).view j).below = (f.view j).below :=
    below_setLayer_of_parent h hj fun p hp =>
      view_setLayer_of_lt h (h j p hp) (Nat.lt_trans (h j p hp) hj)
  exact SymbolTable.mk.injEq .. ▸ ⟨hown, hbelow⟩

/-- **What a replaced layer changes.**  Below the tables above it the new layer stands in place of
the old one, and the others are as they were. -/
theorem below_setLayer (h : f.WellFormed) (hj : j < f.size) (hi : i < f.size) (hij : i ≠ j)
    (layer : Layer) :
    ((f.setLayer j layer).view i).below = (f.view i).below ∨
      ∃ above, (f.view i).below = above ++ (f.view j).layers ∧
        ((f.setLayer j layer).view i).below = above ++ layer :: (f.view j).below := by
  induction i using Nat.strongRecOn with
  | ind i ih =>
    cases hp : f.parentOf i with
    | none => exact .inl (below_setLayer_of_parent h hi fun p hp' => by rw [hp] at hp'; cases hp')
    | some p =>
      have hlt := h i p hp
      rw [below_of_parentOf h hp, below_of_parentOf h.setLayer (parentOf_setLayer.trans hp)]
      by_cases hpj : p = j
      · subst hpj
        rw [view_setLayer_self h hj]
        exact .inr ⟨[], rfl, rfl⟩
      · have hown := own_setLayer h (Nat.lt_trans hlt hi) j layer
        rw [if_neg hpj] at hown
        unfold SymbolTable.layers
        rw [hown]
        rcases ih p hlt (Nat.lt_trans hlt hi) hpj with hsame | ⟨above, hold, hnew⟩
        · exact .inl (by rw [hsame])
        · exact .inr ⟨(f.view p).own :: above, by rw [hold]; rfl, by rw [hnew]; rfl⟩

end Forest
end ProofKernel
