import ProofKernel.Proofs.Support.Tables
import ProofKernel.Proofs.Typing.Scope

/-!
# Accepted terms rest on what is registered

Every part of a term is visited before the term is accepted, so that all its globals are registered,
but for the name that stands for a binder type left out.

* `SymbolTable.Knows` is what a table accounts for: its names, holes, and types left out.
* `infer_known`, `check_known` and `inferSort_known`: an accepted term rests on it.
-/

set_option autoImplicit false
namespace ProofKernel

variable {options : Options} {Γ : Context}

/-! ## Renaming keeps the leaves -/

namespace Term

variable {t : Term} {l : Leaf}

theorem mem_leaves_substituteBody {y x : String} {b r : Term}
    (ih : ∀ (t : Term) (x : String) (r : Term), t.size = b.size → l ∈ t.leaves →
      l ∈ (t.substitute x r).leaves) (hl : l ∈ b.leaves) :
    l ∈ (Term.substituteBody y b x r).2.leaves := by
  unfold Term.substituteBody
  split
  · exact hl
  split
  · refine ih _ x r ?_ (ih b y _ rfl hl)
    exact size_substituteWithin_var ..
  · exact ih b x r rfl hl

/-- A substitution replaces variables only, so that no leaf is lost. -/
theorem mem_leaves_substitute (x : String) (r : Term) (hl : l ∈ t.leaves) :
    l ∈ (t.substitute x r).leaves := by
  induction hn : t.size using Nat.strongRecOn generalizing t x r with
  | ind n ih =>
    subst hn
    have hbody : ∀ (y : String) (b : Term), b.size < t.size → l ∈ b.leaves →
        l ∈ (Term.substituteBody y b x r).2.leaves := by
      intro y b hlt hb
      exact mem_leaves_substituteBody (fun u z v hu hmem => ih u.size (by omega) z v hmem rfl) hb
    cases t with
    | sort | global | lit | hole => exact hl
    | var y => cases hl
    | pi y a b =>
      rw [substitute_pi, leaves, List.mem_append]
      refine (List.mem_append.1 hl).imp (fun ha => ?_) (hbody y b (by simp only [size]; omega))
      exact ih a.size (by simp only [size]; omega) x r ha rfl
    | lam y a b =>
      rw [substitute_lam, leaves, List.mem_append]
      refine (List.mem_append.1 hl).imp (fun ha => ?_) (hbody y b (by simp only [size]; omega))
      exact ih a.size (by simp only [size]; omega) x r ha rfl
    | fix y b =>
      rw [substitute_fix]
      exact hbody y b (by simp only [size]; omega) hl
    | app f a =>
      rw [substitute_app, leaves, List.mem_append]
      refine (List.mem_append.1 hl).imp (fun hf => ?_) (fun ha => ?_)
      · exact ih f.size (by simp only [size]; omega) x r hf rfl
      · exact ih a.size (by simp only [size]; omega) x r ha rfl
    | elim s m cases =>
      rw [substitute_elim, leaves, List.mem_append, List.mem_append]
      rw [leaves, List.mem_append, List.mem_append] at hl
      refine hl.imp (Or.imp (fun hs => ?_) (fun hm => ?_)) (fun hc => ?_)
      · exact ih s.size (by simp only [size]; omega) x r hs rfl
      · exact ih m.size (by simp only [size]; omega) x r hm rfl
      · obtain ⟨c, hmem, hc⟩ := mem_leavesAll.1 hc
        have := size_le_sizes hmem
        refine mem_leavesAll.2 ⟨_, List.mem_map_of_mem hmem, ?_⟩
        exact ih c.size (by simp only [size]; omega) x r hc rfl

variable {S : Leaf → Prop}

theorem Over.of_rename {x y : String} (h : (t.rename x y).Over S) : t.Over S := by
  intro l hl
  refine h l ?_
  unfold Term.rename
  split
  · exact hl
  · exact mem_leaves_substitute x _ hl

theorem Over.of_openLambda {x y : String} {b codomain : Term}
    (h : (ProofKernel.openLambda Γ x b y codomain).2.1.Over S) : b.Over S := by
  unfold ProofKernel.openLambda at h
  split at h
  · exact h
  split at h
  · exact h.of_rename
  · exact h

end Term

/-! ## What a table accounts for -/

/-- A hole, a binder type left out, or a registered name. -/
def SymbolTable.Knows (table : SymbolTable) : Leaf → Prop
  | .hole => True
  | .global name => name = Term.placeholder ∨ table.defined name = true

theorem SymbolTable.knows_of_type? {table : SymbolTable} {name : String} {A : Term}
    (h : table.type? name = some A) : table.Knows (.global name) :=
  .inr (by rw [defined, h]; rfl)

/-- Only what the table accounts for is in an accepted term. -/
structure KnownIfAccepted (options : Options) (t : Term) : Prop where
  infer : ∀ {Γ : Context} {type : Term}, (infer options Γ t).outcome = .ok type →
    t.Over Γ.table.Knows
  check : ∀ {Γ : Context} {expected : Term}, (check options Γ t expected).outcome = .ok () →
    t.Over Γ.table.Knows

theorem Term.over_knows_of_isPlaceholder {table : SymbolTable} {a : Term}
    (h : a.isPlaceholder = true) : a.Over table.Knows := by
  cases a with
  | global x => exact over_global.2 (.inl (beq_iff_eq.1 h))
  | hole => exact over_hole.2 trivial
  | _ => cases h

section

variable {t : Term} (ih : ∀ u : Term, u.size < t.size → KnownIfAccepted options u)
include ih

theorem infer_known_of_parts {type : Term} (haccepted : (infer options Γ t).outcome = .ok type) :
    t.Over Γ.table.Knows := by
  have h := haccepted
  rw [infer_outcome, synthesize.eq_def] at h
  cases t with
  | sort | var | lit => exact nofun
  | hole => exact Term.over_hole.2 trivial
  | global x =>
    dsimp only at h
    split at h
    · next htype => exact Term.over_global.2 (SymbolTable.knows_of_type? htype)
    · cases h
  | pi x a b =>
    obtain ⟨_, _, ha, hb, _⟩ := infer_pi_eq_ok_iff.1 haccepted
    obtain ⟨_, ha, _⟩ := inferSort_eq_ok_iff.1 ha
    obtain ⟨_, hb, _⟩ := inferSort_eq_ok_iff.1 hb
    have hb := (ih b (by simp only [Term.size]; omega)).infer hb
    exact Term.over_pi.2 ⟨(ih a (by simp only [Term.size]; omega)).infer ha, hb⟩
  | lam x a b =>
    obtain ⟨_, _, ha, hb, _⟩ := infer_lam_eq_ok_iff.1 haccepted
    obtain ⟨_, ha, _⟩ := inferSort_eq_ok_iff.1 ha
    have hb := (ih b (by simp only [Term.size]; omega)).infer hb
    exact Term.over_lam.2 ⟨(ih a (by simp only [Term.size]; omega)).infer ha, hb⟩
  | app f a =>
    obtain ⟨_, _, _, _, hf, _, ha, _⟩ := infer_app_eq_ok_iff.1 haccepted
    exact Term.over_app.2 ⟨(ih f (by simp only [Term.size]; omega)).infer hf,
      (ih a (by simp only [Term.size]; omega)).check ha⟩
  | elim s m cases =>
    obtain ⟨_, _, _, _, _, hs, _, hm, _, hlen, hcases, _⟩ := infer_elim_eq_ok_iff.1 haccepted
    refine Term.over_elim.2 ⟨(ih s (by simp only [Term.size]; omega)).infer hs,
      (ih m (by simp only [Term.size]; omega)).infer hm, fun c hc => ?_⟩
    obtain ⟨expected, hexpected⟩ := checkCases_eq_ok hlen hcases c hc
    have := Term.size_le_sizes hc
    exact (ih c (by simp only [Term.size]; omega)).check hexpected
  | fix x b =>
    simp only [Verdict.bind_eq_ok_iff] at h
    obtain ⟨_, _, _, _, _, _, _, hb, _⟩ := h
    have hb := (ih b (by simp only [Term.size]; omega)).check hb
    exact Term.over_fix.2 hb

theorem check_known_of_parts {expected : Term}
    (h : (check options Γ t expected).outcome = .ok ()) : t.Over Γ.table.Knows := by
  rcases check_eq_ok h with rfl | ⟨type, htype⟩ | ⟨x, a, b, y, domain, codomain, rfl, ha, hb⟩
  · exact Term.over_hole.2 trivial
  · exact infer_known_of_parts ih htype
  · have hsize : (openLambda Γ x b y codomain).2.1.size < (Term.lam x a b).size := by
      rw [size_openLambda, Term.size]
      omega
    exact Term.over_lam.2 ⟨Term.over_knows_of_isPlaceholder ha,
      ((ih _ hsize).check hb).of_openLambda⟩

end

/-- **An accepted term rests on what the table accounts for.** -/
theorem knownIfAccepted (t : Term) : KnownIfAccepted options t := by
  induction hn : t.size using Nat.strongRecOn generalizing t with
  | ind n ih =>
    subst hn
    have hparts : ∀ u : Term, u.size < t.size → KnownIfAccepted options u := fun u hu =>
      ih u.size hu u rfl
    exact ⟨infer_known_of_parts hparts, check_known_of_parts hparts⟩

theorem infer_known {t type : Term} (h : (infer options Γ t).outcome = .ok type) :
    t.Over Γ.table.Knows :=
  (knownIfAccepted t).infer h

theorem check_known {t expected : Term} (h : (check options Γ t expected).outcome = .ok ()) :
    t.Over Γ.table.Knows :=
  (knownIfAccepted t).check h

theorem inferSort_known {t : Term} {u : Universe} (h : (inferSort options Γ t).outcome = .ok u) :
    t.Over Γ.table.Knows := by
  obtain ⟨type, htype, _⟩ := inferSort_eq_ok_iff.1 h
  exact infer_known htype

end ProofKernel
