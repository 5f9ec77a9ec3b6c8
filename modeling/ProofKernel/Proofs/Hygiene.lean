import ProofKernel.Term.Variables

/-!
# Hygienic terms

A term is hygienic when its names cannot be mistaken for one another by an algorithm that works with
names.

* `Term.hygienic` asks that no binder has the name of a binder around it, or one of a list of names
  in use, and that a fixpoint does not refer to itself where its type is read off: in the scrutinee
  and in the motive of the match under its leading functions (`Term.matchVars`).
* `Term.hygienic_pi` and its siblings say so node by node.
-/

set_option autoImplicit false
namespace ProofKernel
namespace Term

/-- The variables of the scrutinee and the motive of the match under leading functions. -/
def matchVars : Term → List String
  | lam x _ b => b.matchVars.filter (· != x)
  | elim s m _ => s.freeVars ++ m.freeVars
  | _ => []

theorem mem_freeVars_of_mem_matchVars {t : Term} {z : String} (h : z ∈ t.matchVars) :
    z ∈ t.freeVars := by
  induction t with
  | lam x a b _ ihb =>
    obtain ⟨hz, hne⟩ := List.mem_filter.1 h
    exact List.mem_append_right _ (List.mem_filter.2 ⟨ihb hz, hne⟩)
  | elim s m cases => exact List.mem_append_left _ h
  | _ => cases h

mutual

/-- Whether no binder of a term has a name that is in use around it, and no fixpoint refers to
itself in what its type is read off. -/
def hygienic (used : List String) : Term → Bool
  | sort _ | var _ | global _ | lit _ | hole => true
  | pi x a b | lam x a b => a.hygienic used && !used.contains x && b.hygienic (x :: used)
  | app f a => f.hygienic used && a.hygienic used
  | elim s m cases => s.hygienic used && m.hygienic used && hygienicAll used cases
  | fix x b => !used.contains x && !b.matchVars.contains x && b.hygienic (x :: used)

/-- Whether all terms of a list are hygienic. -/
def hygienicAll (used : List String) : List Term → Bool
  | [] => true
  | t :: rest => t.hygienic used && hygienicAll used rest

end

variable {used : List String}

section

attribute [local simp] hygienic hygienicAll

theorem hygienicAll_iff {ts : List Term} :
    hygienicAll used ts = true ↔ ∀ t ∈ ts, t.hygienic used = true := by
  induction ts with
  | nil => simp
  | cons t ts ih => simp [ih]

theorem hygienic_pi {x : String} {a b : Term} :
    (pi x a b).hygienic used = true ↔
      a.hygienic used = true ∧ x ∉ used ∧ b.hygienic (x :: used) = true := by
  simp [and_assoc]

theorem hygienic_lam {x : String} {a b : Term} :
    (lam x a b).hygienic used = true ↔
      a.hygienic used = true ∧ x ∉ used ∧ b.hygienic (x :: used) = true := by
  simp [and_assoc]

theorem hygienic_app {f a : Term} :
    (app f a).hygienic used = true ↔ f.hygienic used = true ∧ a.hygienic used = true := by
  simp

theorem hygienic_elim {s m : Term} {cases : List Term} :
    (elim s m cases).hygienic used = true ↔ s.hygienic used = true ∧ m.hygienic used = true ∧
      ∀ c ∈ cases, c.hygienic used = true := by
  simp [hygienicAll_iff, and_assoc]

theorem hygienic_fix {x : String} {b : Term} :
    (fix x b).hygienic used = true ↔
      x ∉ used ∧ x ∉ b.matchVars ∧ b.hygienic (x :: used) = true := by
  simp [and_assoc]

end

end Term
end ProofKernel
