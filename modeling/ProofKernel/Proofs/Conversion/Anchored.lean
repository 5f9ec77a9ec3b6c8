import ProofKernel.Proofs.Conversion.Parallel
import ProofKernel.Proofs.Session.Closed

/-!
# Fixpoints whose structural position never moves

A structural position moves when a binder type in front of it comes to be headed by an inductive
type.  Universes, products, literals, constants without a body and what earlier binders of the same
body bind never do.

* `Nameless.firm` recognizes the types that an inductive type never heads, `Nameless.anchored` the
  bodies that have only such types in front of the structural position, and `Nameless.rooted` the
  terms whose fixpoints all have such bodies.
* `Nameless.calm_of_rooted`: no contraction moves a position in such a term, nor in what it reduces
  to.
-/

set_option autoImplicit false
namespace ProofKernel
namespace Nameless

/-! ## Types in front of the structural position -/

/-- Whether a type is of a kind that an inductive type never heads, so many binders into the body
of a fixpoint. -/
def firm (table : SymbolTable) (k : Nat) : Nameless → Bool
  | sort _ | pi _ _ | lit _ => true
  | atom (.bound i) => decide (i < k)
  | global name => (table.definition? name).isNone && !table.isFamily name
  | app f _ => f.firm table k
  | atom (.free _) | lam _ _ | elim _ _ _ | fix _ | hole => false

/-- Whether all leading binders of a body are of firm types up to one that an inductive type
heads. -/
def anchored (table : SymbolTable) (k : Nat) : Nameless → Bool
  | lam a b => decide (HeadedByFamily table a) || (a.firm table k && b.anchored table (k + 1))
  | _ => false

mutual

/-- Whether the bodies of all fixpoints of a term are anchored. -/
def rooted (table : SymbolTable) : Nameless → Bool
  | sort _ | atom _ | global _ | lit _ | hole => true
  | pi a b | lam a b | app a b => a.rooted table && b.rooted table
  | elim s m cases => s.rooted table && m.rooted table && rootedAll table cases
  | fix b => b.anchored table 0 && b.rooted table

/-- Whether the bodies of all fixpoints of a list of terms are anchored. -/
def rootedAll (table : SymbolTable) : List Nameless → Bool
  | [] => true
  | u :: rest => u.rooted table && rootedAll table rest

end

variable {table : SymbolTable} {u v : Nameless} {τ : Atom → Nameless} {k : Nat}

section

attribute [local simp] rooted rootedAll

theorem rootedAll_iff {us : List Nameless} :
    rootedAll table us = true ↔ ∀ u ∈ us, u.rooted table = true := by
  induction us with
  | nil => simp
  | cons u us ih => simp [ih]

end

theorem not_headedByFamily_of_firm (h : u.firm table k = true) : ¬HeadedByFamily table u := by
  induction u with
  | app f a ihf _ => rw [headedByFamily_app]; exact ihf h
  | global name => simp_all [firm, headedByFamily_iff_head, head]
  | _ => simp [headedByFamily_iff_head, head]

/-- A body is anchored if another one is whose leading binders it follows, and the structural
position is where it is in the other one. -/
theorem anchored_lam {a a' b b' : Nameless} (h : (lam a b).anchored table k = true)
    (hheaded : HeadedByFamily table a → HeadedByFamily table a')
    (hfirm : a.firm table k = true → a'.firm table k = true)
    (hbody : b.anchored table (k + 1) = true → b'.anchored table (k + 1) = true ∧
      ∀ i, StructuralArgument table b i → StructuralArgument table b' i) :
    (lam a' b').anchored table k = true ∧
      ∀ i, StructuralArgument table (lam a b) i → StructuralArgument table (lam a' b') i := by
  simp only [anchored, Bool.or_eq_true, decide_eq_true_eq, Bool.and_eq_true] at h ⊢
  by_cases ha : HeadedByFamily table a
  · refine ⟨.inl (hheaded ha), fun i hi => ?_⟩
    obtain rfl := hi.unique (.here ha)
    exact .here (hheaded ha)
  · obtain ⟨ha', hb⟩ := h.resolve_left ha
    obtain ⟨hb', hplace⟩ := hbody hb
    refine ⟨.inr ⟨hfirm ha', hb'⟩, fun i hi => ?_⟩
    cases hi with
    | here hheaded' => exact absurd hheaded' ha
    | there _ hi => exact .there (not_headedByFamily_of_firm (hfirm ha')) (hplace _ hi)

/-! ## Substitution -/

theorem firm_subst (h : u.firm table k = true)
    (hτ : ∀ i < k, τ (.bound i) = atom (.bound i)) : (u.subst τ).firm table k = true := by
  induction u with
  | app f a ihf _ => exact ihf h
  | atom a =>
    cases a with
    | bound i =>
      rw [subst, hτ i (of_decide_eq_true h)]
      exact h
    | free x => cases h
  | sort | pi | lit | global => exact h
  | _ => cases h

/-- A substitution from outside leaves an anchored body and its structural position alone. -/
theorem anchored_subst (h : u.anchored table k = true)
    (hτ : ∀ i < k, τ (.bound i) = atom (.bound i)) :
    (u.subst τ).anchored table k = true ∧
      ∀ i, StructuralArgument table u i → StructuralArgument table (u.subst τ) i := by
  induction u generalizing k τ with
  | lam a b _ ihb =>
    refine anchored_lam h (·.subst τ) (firm_subst · hτ) fun hb => ihb hb fun i hi => ?_
    match i with
    | 0 => rfl
    | i + 1 => rw [lift, hτ i (Nat.lt_of_succ_lt_succ hi), shift_atom]; rfl
  | _ => cases h

/-- A substitution of a kind leaves the fixpoints of a term anchored, if those of its own terms are,
inside binders as well. -/
theorem rooted_subst_of {P : (Atom → Nameless) → Prop}
    (hrooted : ∀ {τ}, P τ → ∀ a, (τ a).rooted table = true) (hlift : ∀ {τ}, P τ → P (lift τ))
    (hτ : P τ) (h : u.rooted table = true) : (u.subst τ).rooted table = true := by
  induction u generalizing τ with
  | sort | global | lit | hole => rfl
  | atom a => exact hrooted hτ a
  | pi a b iha ihb | lam a b iha ihb =>
    simp only [subst, rooted, Bool.and_eq_true] at h ⊢
    exact ⟨iha hτ h.1, ihb (hlift hτ) h.2⟩
  | app f a ihf iha =>
    simp only [subst, rooted, Bool.and_eq_true] at h ⊢
    exact ⟨ihf hτ h.1, iha hτ h.2⟩
  | fix b ihb =>
    simp only [subst, rooted, Bool.and_eq_true] at h ⊢
    exact ⟨(anchored_subst h.1 fun i hi => absurd hi i.not_lt_zero).1, ihb (hlift hτ) h.2⟩
  | elim s m cases ihs ihm ihc =>
    simp only [subst, substAll_eq_map, rooted, Bool.and_eq_true, rootedAll_iff,
      List.forall_mem_map] at h ⊢
    exact ⟨⟨ihs hτ h.1.1, ihm hτ h.1.2⟩, fun c hc => ihc c hc hτ (h.2 c hc)⟩

theorem rooted_shift (h : u.rooted table = true) : u.shift.rooted table = true := by
  rw [shift, rename_eq_subst]
  refine rooted_subst_of (P := fun τ => ∃ f, τ = atom ∘ f) ?_ ?_ ⟨Atom.succ, rfl⟩ h
  · rintro _ ⟨f, rfl⟩ a
    rfl
  · rintro _ ⟨f, rfl⟩
    exact ⟨Atom.lift f, lift_atom_comp f⟩

theorem rooted_instantiate (hu : u.rooted table = true) (hv : v.rooted table = true) :
    (u.instantiate v).rooted table = true := by
  refine rooted_subst_of (P := fun τ => ∀ a, (τ a).rooted table = true) (fun h => h) ?_ ?_ hu
  · intro τ hτ a
    match a with
    | .bound 0 => rfl
    | .bound (i + 1) => exact rooted_shift (hτ (.bound i))
    | .free x => exact rooted_shift (hτ (.free x))
  · intro a
    match a with
    | .bound 0 => exact hv
    | .bound (i + 1) | .free x => rfl

/-! ## Contraction -/

theorem head_ne_fix_of_firm (h : u.firm table k = true) (b : Nameless) : u.head ≠ fix b := by
  induction u with
  | app f a ihf _ => exact ihf h
  | fix => cases h
  | _ => simp [head]

theorem Par.firm (hp : Par table u v) (h : u.firm table k = true) : v.firm table k = true := by
  induction u generalizing v with
  | sort | atom | lit | pi => cases hp; exact h
  | global name =>
    cases hp with
    | global => exact h
    | definition hd => simp [Nameless.firm, hd] at h
  | app f a ihf _ =>
    cases hp with
    | app hf _ =>
      have hfirm := ihf hf h
      exact hfirm
    | beta => cases h
    | unfold _ _ hwait _ =>
      obtain ⟨b, hb⟩ := hwait.head
      exact absurd hb (head_ne_fix_of_firm h b)
    | arithmetic => rfl
  | _ => cases h

theorem Par.headedByFamily (hroles : table.Unambiguous) (hp : Par table u v)
    (h : HeadedByFamily table u) : HeadedByFamily table v := by
  obtain ⟨name, hhead, hfamily⟩ := headedByFamily_iff_head.1 h
  obtain ⟨hdefinition, hpostulate⟩ := hroles.of_isFamily hfamily
  exact headedByFamily_iff_head.2 ⟨name, (hp.spine hhead hdefinition hpostulate).1, hfamily⟩

/-- Contraction leaves an anchored body and its structural position alone. -/
theorem Par.anchored (hroles : table.Unambiguous) (hp : Par table u v)
    (h : u.anchored table k = true) : v.anchored table k = true ∧
      ∀ i, StructuralArgument table u i → StructuralArgument table v i := by
  induction u generalizing k v with
  | lam a b _ ihb =>
    cases hp with
    | lam ha hb => exact anchored_lam h (ha.headedByFamily hroles) ha.firm (ihb hb)
  | _ => cases h

/-! ### Terms -/

theorem rooted_apps {us : List Nameless} : (u.apps us).rooted table = true ↔
    u.rooted table = true ∧ ∀ a ∈ us, a.rooted table = true := by
  induction us generalizing u with
  | nil => simp
  | cons a us ih => rw [apps_cons, ih, rooted, Bool.and_eq_true, List.forall_mem_cons, and_assoc]

theorem rooted_unfoldHead (h : u.rooted table = true) : u.unfoldHead.rooted table = true := by
  induction u with
  | fix b _ =>
    have hb := h
    rw [rooted, Bool.and_eq_true] at hb
    exact rooted_instantiate hb.2 h
  | app f a ihf _ =>
    rw [rooted, Bool.and_eq_true] at h
    rw [unfoldHead, rooted, Bool.and_eq_true]
    exact ⟨ihf h.1, h.2⟩
  | _ => exact h

theorem rooted_fields {i : Nat} {fields : List Nameless} (h : u.rooted table = true)
    (hform : ConstructorForm table u i fields) : ∀ a ∈ fields, a.rooted table = true := by
  obtain ⟨name, args, c, family, rfl, -, -, -, rfl⟩ := hform
  exact fun a ha => (rooted_apps.1 h).2 a (List.mem_of_mem_drop ha)

/-- **Contraction leaves all fixpoints anchored**, where those of the definitions are. -/
theorem Par.rooted (hroles : table.Unambiguous)
    (htable : ∀ name d, table.definition? name = some d → d.body.nameless.rooted table = true)
    (hp : Par table u v) (h : u.rooted table = true) : v.rooted table = true := by
  induction hp with
  | sort | atom | global | lit | hole => rfl
  | pi _ _ iha ihb | lam _ _ iha ihb | app _ _ iha ihb =>
    simp only [Nameless.rooted, Bool.and_eq_true] at h ⊢
    exact ⟨iha h.1, ihb h.2⟩
  | fix hb ihb =>
    simp only [Nameless.rooted, Bool.and_eq_true] at h ⊢
    exact ⟨(hb.anchored hroles h.1).1, ihb h.2⟩
  | @elim _ _ _ _ cases cases' _ _ hlen _ ihs ihm ihc =>
    simp only [Nameless.rooted, Bool.and_eq_true, rootedAll_iff] at h ⊢
    refine ⟨⟨ihs h.1.1, ihm h.1.2⟩, fun c' hc' => ?_⟩
    obtain ⟨i, hi, rfl⟩ := List.mem_iff_getElem.1 hc'
    have hzip : (cases[i], cases'[i]) ∈ cases.zip cases' :=
      List.mem_of_getElem? (List.getElem?_zip_eq_some.2
        ⟨List.getElem?_eq_getElem _, List.getElem?_eq_getElem _⟩)
    exact ihc hzip (h.2 _ (List.getElem_mem _))
  | beta a _ _ ihb ihc =>
    simp only [Nameless.rooted, Bool.and_eq_true] at h
    exact rooted_instantiate (ihb h.1.2) (ihc h.2)
  | definition hd => exact htable _ _ hd
  | resolve m _ _ hform' hc _ ihs ihc =>
    simp only [Nameless.rooted, Bool.and_eq_true, rootedAll_iff] at h
    exact rooted_apps.2 ⟨ihc (h.2 _ (List.mem_of_getElem? hc)), rooted_fields (ihs h.1.1) hform'⟩
  | unfold _ _ _ _ ihf iha =>
    simp only [Nameless.rooted, Bool.and_eq_true] at h ⊢
    exact ⟨rooted_unfoldHead (ihf h.1), iha h.2⟩
  | arithmetic => rfl

/-! ## Calm terms -/

theorem rooted_of_mem_parts {p : Nameless} (hp : p ∈ u.parts) (h : u.rooted table = true) :
    p.rooted table = true := by
  cases u with
  | pi a b | lam a b | app a b =>
    simp only [rooted, Bool.and_eq_true] at h
    rcases List.mem_pair.1 hp with rfl | rfl
    · exact h.1
    · exact h.2
  | fix b =>
    simp only [rooted, Bool.and_eq_true] at h
    exact List.mem_singleton.1 hp ▸ h.2
  | elim s m cases =>
    simp only [rooted, Bool.and_eq_true, rootedAll_iff] at h
    rcases List.mem_cons.1 hp with rfl | hp
    · exact h.1.1
    · rcases List.mem_cons.1 hp with rfl | hp
      · exact h.1.2
      · exact h.2 p hp
  | _ => cases hp

theorem rooted_part {p : Nameless} (hp : Part k p u) (h : u.rooted table = true) :
    p.rooted table = true := by
  induction hp with
  | whole => exact h
  | inside slot _ ih => exact ih (rooted_of_mem_parts (slot.mem_parts _) h)

/-- The bodies of the fixpoints of such a term are anchored. -/
theorem anchored_part {b : Nameless} (hp : Part k (fix b) u) (h : u.rooted table = true) :
    b.anchored table 0 = true := by
  have hfix := rooted_part hp h
  rw [rooted, Bool.and_eq_true] at hfix
  exact hfix.1

theorem steady_of_rooted (hroles : table.Unambiguous) (h : u.rooted table = true) :
    Steady table u where
  step hp hstep hb := (hstep.par.anchored hroles (anchored_part hp h)).2 _ hb
  beta hp := by
    have happ := rooted_part hp h
    simp only [rooted, Bool.and_eq_true] at happ
    intro k b i hpart hb
    have hanchored := anchored_part hpart happ.1.2
    exact (anchored_subst hanchored fun i hi => absurd hi i.not_lt_zero).2 i hb

end Nameless

/-- Whether the fixpoints of all definitions of a table are anchored. -/
def SymbolTable.rooted (table : SymbolTable) : Bool :=
  table.layers.all fun layer => layer.definitions.all fun (_, d) => d.body.nameless.rooted table

theorem SymbolTable.rooted_definition {table : SymbolTable} (h : table.rooted = true)
    {name : String} {d : Definition} (hd : table.definition? name = some d) :
    d.body.nameless.rooted table = true := by
  obtain ⟨layer, hlayer, hmem⟩ := LayersClosed.mem_of_findSome? hd
  simp only [rooted, List.all_eq_true] at h
  exact h layer hlayer _ hmem

/-- **Where all fixpoints are anchored, no contraction moves a structural position.** -/
theorem Nameless.calm_of_rooted {table : SymbolTable} {u : Nameless} (hroles : table.Unambiguous)
    (htable : table.rooted = true) (h : u.rooted table = true) : Calm table u := by
  intro v hv
  refine steady_of_rooted hroles ?_
  induction hv with
  | refl => exact h
  | tail _ hstep ih =>
    exact hstep.par.rooted hroles (fun _ _ => table.rooted_definition htable) ih

end ProofKernel
