import ProofKernel.Proofs.Nameless.Contraction
import ProofKernel.Proofs.Nameless.Interpretation

/-!
# Heads and arguments of nameless terms

What heads an application decides whether it is a constructor, an inductive type or a fixpoint.

* `Nameless.head` and `Nameless.args` take an application apart, `Nameless.apps_spine` puts it
  together again.
* `Nameless.headedByFamily_iff_head` and `Nameless.ConstructorForm.unique` read the recognizers of
  redexes off the head.
* `Nameless.Awaits` is a fixpoint that has some of the arguments before its structural one.
-/

set_option autoImplicit false
namespace ProofKernel
namespace Nameless

variable {table : SymbolTable} {u v : Nameless}

/-! ## Applications -/

/-- The head of an application. -/
def head : Nameless → Nameless
  | app f _ => f.head
  | u => u

/-- The arguments of an application, first to last. -/
def args : Nameless → List Nameless
  | app f a => f.args ++ [a]
  | _ => []

@[simp] theorem apps_nil (f : Nameless) : f.apps [] = f := rfl

theorem apps_cons (f a : Nameless) (rest : List Nameless) :
    f.apps (a :: rest) = (app f a).apps rest := rfl

@[simp] theorem apps_concat (f a : Nameless) (front : List Nameless) :
    f.apps (front ++ [a]) = app (f.apps front) a := by
  rw [apps, List.foldl_append]
  rfl

theorem apps_append (f : Nameless) (as bs : List Nameless) :
    f.apps (as ++ bs) = (f.apps as).apps bs := by
  rw [apps, List.foldl_append]
  rfl

/-- A term is the application of its head to its arguments. -/
theorem apps_spine (u : Nameless) : u.head.apps u.args = u := by
  induction u with
  | app f a ihf _ => rw [head, args, apps_concat, ihf]
  | _ => rfl

@[simp] theorem head_apps (f : Nameless) (as : List Nameless) : (f.apps as).head = f.head := by
  induction as generalizing f with
  | nil => rfl
  | cons a rest ih => exact ih (app f a)

@[simp] theorem args_apps (f : Nameless) (as : List Nameless) :
    (f.apps as).args = f.args ++ as := by
  induction as generalizing f with
  | nil => rw [apps_nil, List.append_nil]
  | cons a rest ih => rw [apps_cons, ih, args, List.append_assoc, List.singleton_append]

theorem eq_apps_global_iff {name : String} {as : List Nameless} :
    u = (global name).apps as ↔ u.head = global name ∧ u.args = as := by
  constructor
  · rintro rfl
    exact ⟨head_apps _ _, args_apps _ _⟩
  · rintro ⟨hhead, rfl⟩
    rw [← hhead, apps_spine]

theorem subst_apps (τ : Atom → Nameless) (u : Nameless) (as : List Nameless) :
    (u.apps as).subst τ = (u.subst τ).apps (as.map (subst τ)) := by
  induction as generalizing u with
  | nil => rfl
  | cons a rest ih => exact ih (app u a)

/-! ## Inductive types -/

theorem headedByFamily_iff_head :
    HeadedByFamily table u ↔ ∃ name, u.head = global name ∧ table.isFamily name = true := by
  simp only [HeadedByFamily, eq_apps_global_iff]
  constructor
  · rintro ⟨name, _, ⟨hhead, -⟩, hfamily⟩
    exact ⟨name, hhead, hfamily⟩
  · rintro ⟨name, hhead, hfamily⟩
    exact ⟨name, _, ⟨hhead, rfl⟩, hfamily⟩

instance : Decidable (HeadedByFamily table u) :=
  decidable_of_iff ((match u.head with
    | global name => table.isFamily name
    | _ => false) = true) <| by
    rw [headedByFamily_iff_head]
    cases u.head <;> simp

@[simp] theorem headedByFamily_app {f a : Nameless} :
    HeadedByFamily table (app f a) ↔ HeadedByFamily table f := by
  simp only [headedByFamily_iff_head, head]

/-- Renaming does not change which inductive type heads a term. -/
theorem headedByFamily_rename (f : Atom → Atom) (u : Nameless) :
    HeadedByFamily table (u.rename f) ↔ HeadedByFamily table u := by
  induction u with
  | app g a ihg _ => rw [rename, headedByFamily_app, headedByFamily_app, ihg]
  | _ => simp [headedByFamily_iff_head, rename, head]

/-- Neither does a substitution of terms that no inductive type heads. -/
theorem headedByFamily_subst {τ : Atom → Nameless} (hτ : ∀ a, ¬HeadedByFamily table (τ a))
    (u : Nameless) : HeadedByFamily table (u.subst τ) ↔ HeadedByFamily table u := by
  induction u with
  | app g a ihg _ => rw [subst, headedByFamily_app, headedByFamily_app, ihg]
  | atom a => simp [subst, hτ a, headedByFamily_iff_head, head]
  | _ => simp [headedByFamily_iff_head, subst, head]

theorem HeadedByFamily.subst (h : HeadedByFamily table u) (τ : Atom → Nameless) :
    HeadedByFamily table (u.subst τ) := by
  obtain ⟨name, as, rfl, hfamily⟩ := h
  exact ⟨name, _, subst_apps τ _ as, hfamily⟩

/-- Seen from inside another binder, no inductive type heads the terms of a substitution either. -/
theorem not_headedByFamily_lift {τ : Atom → Nameless} (hτ : ∀ a, ¬HeadedByFamily table (τ a))
    (a : Atom) : ¬HeadedByFamily table (lift τ a) := by
  match a with
  | .bound 0 => simp [lift, headedByFamily_iff_head, head]
  | .bound (i + 1) => exact mt (headedByFamily_rename _ _).1 (hτ (.bound i))
  | .free x => exact mt (headedByFamily_rename _ _).1 (hτ (.free x))

/-! ## Constructors -/

/-- A term is a constructor applied to arguments in one way only. -/
theorem ConstructorForm.unique {i j : Nat} {as bs : List Nameless}
    (h : ConstructorForm table u i as) (h' : ConstructorForm table u j bs) : i = j ∧ as = bs := by
  obtain ⟨name, args, c, family, hu, hc, hfamily, hindex, rfl⟩ := h
  obtain ⟨name', args', c', family', hu', hc', hfamily', hindex', rfl⟩ := h'
  rw [eq_apps_global_iff] at hu hu'
  obtain rfl : name = name' := Nameless.global.inj (hu.1.symm.trans hu'.1)
  obtain rfl : c = c' := Option.some.inj (hc.symm.trans hc')
  obtain rfl : family = family' := Option.some.inj (hfamily.symm.trans hfamily')
  exact ⟨Option.some.inj (hindex.symm.trans hindex'), by rw [← hu.2, ← hu'.2]⟩

theorem ConstructorForm.subst {i : Nat} {as : List Nameless} (h : ConstructorForm table u i as)
    (τ : Atom → Nameless) : ConstructorForm table (u.subst τ) i (as.map (subst τ)) := by
  obtain ⟨name, args, c, family, rfl, hc, hfamily, hindex, rfl⟩ := h
  exact ⟨name, _, c, family, subst_apps τ _ args, hc, hfamily, hindex, List.map_drop⟩

/-! ## Structural positions -/

theorem StructuralArgument.unique {i j : Nat} (h : StructuralArgument table u i)
    (h' : StructuralArgument table u j) : i = j := by
  induction h generalizing j with
  | here h =>
    cases h' with
    | here _ => rfl
    | there h'' _ => exact absurd h h''
  | there h _ ih =>
    cases h' with
    | here h'' => exact absurd h'' h
    | there _ hb => rw [ih hb]

/-- A substitution of terms that no inductive type heads leaves the structural position alone. -/
theorem StructuralArgument.subst {i : Nat} (h : StructuralArgument table u i) {τ : Atom → Nameless}
    (hτ : ∀ a, ¬HeadedByFamily table (τ a)) : StructuralArgument table (u.subst τ) i := by
  induction h generalizing τ with
  | here h => exact .here (h.subst τ)
  | there h _ ih =>
    exact .there (mt (headedByFamily_subst hτ _).1 h) (ih (not_headedByFamily_lift hτ))

/-! ## Fixpoints -/

/-- A fixpoint applied to arguments that waits for some more before its structural one. -/
inductive Awaits (table : SymbolTable) : Nameless → Nat → Prop
  | fix {b : Nameless} {i : Nat} (h : StructuralArgument table b i) : Awaits table (fix b) i
  | app {f a : Nameless} {i : Nat} (h : Awaits table f (i + 1)) : Awaits table (app f a) i

/-- The fixpoint at the head of an application, unfolded. -/
def unfoldHead : Nameless → Nameless
  | fix b => b.instantiate (fix b)
  | app f a => app f.unfoldHead a
  | u => u

theorem Awaits.unique {i j : Nat} (h : Awaits table u i) (h' : Awaits table u j) : i = j := by
  induction h generalizing j with
  | fix h =>
    cases h' with
    | fix h' => exact h.unique h'
  | app _ ih =>
    cases h' with
    | app h' => exact Nat.succ.inj (ih h')

theorem Awaits.head {i : Nat} (h : Awaits table u i) : ∃ b, u.head = Nameless.fix b := by
  induction h with
  | fix _ => exact ⟨_, rfl⟩
  | app _ ih => exact ih

theorem unfoldHead_apps (u : Nameless) (as : List Nameless) :
    (u.apps as).unfoldHead = u.unfoldHead.apps as := by
  induction as generalizing u with
  | nil => rfl
  | cons a rest ih => exact ih (app u a)

theorem unfoldHead_subst {b : Nameless} (h : u.head = fix b) (τ : Atom → Nameless) :
    (u.subst τ).unfoldHead = u.unfoldHead.subst τ := by
  induction u with
  | fix b _ => exact (subst_instantiate b (fix b) τ).symm
  | app f a ihf _ => exact congrArg (app · _) (ihf h)
  | _ => cases h

/-- A fixpoint that waits for more arguments may be given them. -/
theorem Awaits.apps {i : Nat} {as : List Nameless} (h : Awaits table u (as.length + i)) :
    Awaits table (u.apps as) i := by
  induction as generalizing u with
  | nil => exact Nat.zero_add i ▸ h
  | cons a rest ih => exact ih (.app (by rwa [List.length_cons, Nat.add_right_comm] at h))

theorem Awaits.eq_apps {i : Nat} (h : Awaits table u i) :
    ∃ b as, u = (Nameless.fix b).apps as ∧ StructuralArgument table b (as.length + i) := by
  induction h with
  | @fix b i h => exact ⟨b, [], rfl, (Nat.zero_add i).symm ▸ h⟩
  | @app f a i _ ih =>
    obtain ⟨b, as, rfl, hb⟩ := ih
    exact ⟨b, as ++ [a], (apps_concat _ _ _).symm, by
      rwa [List.length_append, List.length_singleton, Nat.add_assoc, Nat.add_comm 1]⟩

/-- A fixpoint that has all arguments before the structural one is unfolded at a constructor. -/
theorem Awaits.contraction (h : Awaits table u 0) {i : Nat} {fields : List Nameless}
    (hv : ConstructorForm table v i fields) :
    Contraction table (Nameless.app u v) (Nameless.app u.unfoldHead v) := by
  obtain ⟨b, as, rfl, hb⟩ := h.eq_apps
  rw [← apps_concat, unfoldHead_apps, ← apps_concat]
  refine .fix hb ?_ hv
  rw [Nat.add_zero, List.getElem?_concat_length]

end Nameless
end ProofKernel
