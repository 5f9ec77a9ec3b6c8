import ProofKernel.Proofs.Guard.Substitution
import ProofKernel.Proofs.Nameless.Contraction
import ProofKernel.Proofs.Session.Closed
import ProofKernel.Proofs.Session.Roles
import ProofKernel.Proofs.Typing.Rules

/-!
# The guard and reduction

A fixpoint is guarded for the position of its structural parameter, and steps in its body leave it
guarded for that position.

* `Guard.Target.Accepts.step` is the visit of a term after a step, `Guard.Target.AcceptsBody.step`
  that of a body.
* `Session.Reachable.guarded_of_steps` is a fixpoint that a session accepts, after any number of
  steps in its body: the reducer reads the position off the body anew, and may find an earlier one,
  but only if a type that comes before the structural parameter reduces to one that an inductive
  type heads.
-/

set_option autoImplicit false
namespace ProofKernel

/-! ## Steps at the root -/

namespace SymbolTable

variable {table : SymbolTable} {t' : Term}

/-- A step of an application contracts it, or is one of its parts. -/
theorem step?_app_cases {f a : Term} (h : table.step? (.app f a) = some t') :
    (∃ x d b, f = .lam x d b ∧ t' = b.substitute x a) ∨
    table.arithmetic? (.app f a) = some t' ∨ table.deltaStep? (.app f a) = some t' ∨
    (∃ f', table.step? f = some f' ∧ t' = .app f' a) ∨
    ∃ a', table.step? a = some a' ∧ t' = .app f a' := by
  by_cases hlam : ∃ x d b, f = .lam x d b
  · obtain ⟨x, d, b, rfl⟩ := hlam
    rw [step?_app_lam, Option.some.injEq] at h
    exact .inl ⟨x, d, b, rfl, h.symm⟩
  · rw [step?_app fun x d b hf => hlam ⟨x, d, b, hf⟩] at h
    simp only [Option.or_eq_some_iff, Option.map_eq_some_iff] at h
    rcases h with h | ⟨_, h | ⟨_, ⟨f', hf, rfl⟩ | ⟨_, a', ha, rfl⟩⟩⟩
    · exact .inr (.inl h)
    · exact .inr (.inr (.inl h))
    · exact .inr (.inr (.inr (.inl ⟨f', hf, rfl⟩)))
    · exact .inr (.inr (.inr (.inr ⟨a', ha, rfl⟩)))

/-- A step of a match resolves it, or is one of the scrutinee. -/
theorem step?_elim_cases {scrutinee m : Term} {cases : List Term}
    (h : table.step? (.elim scrutinee m cases) = some t') :
    (∃ index fields chosen, table.constructorForm? scrutinee = some (index, fields) ∧
      cases[index]? = some chosen ∧ t' = chosen.apps fields) ∨
    ∃ scrutinee', table.step? scrutinee = some scrutinee' ∧ t' = .elim scrutinee' m cases := by
  rw [step?, Option.or_eq_some_iff] at h
  rcases h with h | ⟨_, h⟩
  · simp only [Option.bind_eq_bind, Option.bind_eq_some_iff, Option.pure_def,
      Option.some.injEq] at h
    obtain ⟨⟨index, fields⟩, hform, chosen, hchosen, rfl⟩ := h
    exact .inl ⟨index, fields, chosen, hform, hchosen, rfl⟩
  · obtain ⟨scrutinee', hs, rfl⟩ := Option.map_eq_some_iff.1 h
    exact .inr ⟨scrutinee', hs, rfl⟩

/-- A step of a call of a variable is one of its arguments, and no variable takes a step. -/
theorem step?_of_head_var {t : Term} {x : String} (hhead : t.head = .var x)
    (h : table.step? t = some t') : t'.head = .var x ∧ t'.args.length = t.args.length ∧
      ∀ (i : Nat) y, t.args[i]? = some (.var y) → t'.args[i]? = some (.var y) := by
  induction t generalizing t' with
  | app f a ihf _ =>
    rcases step?_app_cases h with ⟨_, _, _, rfl, _⟩ | h | h | ⟨f', hf, rfl⟩ | ⟨a', ha, rfl⟩
    · cases hhead
    · obtain ⟨_, _, _, _, happ, _⟩ := arithmetic?_eq_some_iff.1 h
      rw [happ] at hhead
      cases hhead
    · obtain ⟨_, _, _, _, _, hfix, _⟩ := deltaStep?_eq_some_iff.1 h
      rw [hhead] at hfix
      cases hfix
    · obtain ⟨hhead', hlen, hargs⟩ := ihf hhead hf
      refine ⟨hhead', by simp [Term.args, hlen], fun i y hy => ?_⟩
      rw [Term.args, List.getElem?_append] at hy ⊢
      rw [hlen]
      split
      · next hi => exact hargs i y (by rwa [if_pos hi] at hy)
      · next hi => rwa [if_neg hi] at hy
    · refine ⟨hhead, by simp [Term.args], fun i y hy => ?_⟩
      rw [Term.args, List.getElem?_append] at hy ⊢
      split
      · next hi => rwa [if_pos hi] at hy
      · next hi =>
        rw [if_neg hi, List.getElem?_singleton] at hy
        split at hy
        · cases Option.some.inj hy
          cases ha
        · cases hy
  | var y => simp [step?] at h
  | _ => cases hhead

/-- A term headed by an inductive type takes steps in its arguments only. -/
theorem Unambiguous.headGlobal?_step (hroles : table.Unambiguous) {t : Term} {family : String}
    (hhead : t.headGlobal? = some family) (hfamily : table.isFamily family = true)
    (h : table.step? t = some t') : t'.headGlobal? = some family := by
  obtain ⟨hdefinition, hpostulate⟩ := hroles.of_isFamily hfamily
  induction t generalizing t' with
  | app f a ihf _ =>
    have hf : f.headGlobal? = some family := hhead
    rcases step?_app_cases h with ⟨_, _, _, rfl, _⟩ | h | h | ⟨f', hstep, rfl⟩ | ⟨a', _, rfl⟩
    · cases hf
    · obtain ⟨operation, x, y, z, happ, hop, _⟩ := arithmetic?_eq_some_iff.1 h
      rw [happ] at hhead
      obtain rfl : operation = family := Option.some.inj hhead
      rw [hpostulate] at hop
      cases hop
    · obtain ⟨_, _, _, _, _, hfix, _⟩ := deltaStep?_eq_some_iff.1 h
      rw [Term.headGlobal?_eq_some_iff.1 hhead] at hfix
      cases hfix
    · have hf' := ihf hf hstep
      exact hf'
    · exact hf
  | global name =>
    obtain rfl : name = family := Option.some.inj hhead
    simp [step?, hdefinition] at h
  | _ => cases hhead

end SymbolTable

open SymbolTable

namespace Guard
namespace Target

variable {g : Target} {s : Scope} {site : Site} {t t' : Term}

/-! ## Accepted terms -/

/-- A term that does not refer to the fixpoint is accepted. -/
theorem accepts_of_not_mem (h : s.active = true → g.self ∉ t.freeVars) : g.Accepts s site t := by
  have hinside : ∀ {s : Scope} {n : String} {site : Site} {b : Term},
      (s.active = true → g.self ∉ b.freeVars.filter (· != n)) →
      (g.inside s n site).active = true → g.self ∉ b.freeVars := by
    intro s n site b h hactive hmem
    obtain ⟨hne, hactive, -⟩ := refers_inside.1 ⟨hactive, rfl⟩
    exact h hactive (Term.mem_filter_ne.2 ⟨hmem, hne⟩)
  induction t generalizing s site with
  | sort | global | lit | hole => rfl
  | var x =>
    refine accepts_var.2 (.inr ?_)
    rintro ⟨hactive, rfl⟩
    exact h hactive List.mem_cons_self
  | pi x a b iha ihb =>
    simp only [Term.freeVars, List.mem_append, not_or] at h
    exact accepts_pi.2 ⟨iha fun ha => (h ha).1, ihb (hinside fun ha => (h ha).2)⟩
  | lam x a b iha ihb =>
    simp only [Term.freeVars, List.mem_append, not_or] at h
    exact accepts_lam.2 ⟨iha fun ha => (h ha).1, ihb (hinside fun ha => (h ha).2)⟩
  | fix x b ihb => exact accepts_fix.2 (ihb (hinside h))
  | app f a ihf iha =>
    have hguards : g.Guards s f.head (f.args ++ [a]) := by
      intro hactive hself
      exact absurd (mem_freeVars_of_head (f := .app f a) (hself ▸ List.mem_singleton_self _))
        (h hactive)
    simp only [Term.freeVars, List.mem_append, not_or] at h
    have hf : g.Accepts s .head f := ihf fun ha => (h ha).1
    have ha : g.Accepts s .operand a := iha fun ha => (h ha).2
    by_cases hsite : site = .head
    · exact hsite ▸ accepts_head_app.2 ⟨hf, ha⟩
    · exact (accepts_app hsite).2 ⟨hguards, hf, ha⟩
  | elim scrutinee m cases ihs ihm ihc =>
    simp only [Term.freeVars, List.mem_append, not_or] at h
    refine accepts_elim.2 ⟨ihs fun ha => (h ha).1.1, ihm fun ha => (h ha).1.2, fun i c hc => ?_⟩
    have hmem := List.mem_of_getElem? hc
    exact ihc c hmem fun ha hself => (h ha).2 (Term.mem_freeVarsAll.2 ⟨c, hmem, hself⟩)

/-- Accepted terms may be applied to one another. -/
theorem Accepts.apps {args : List Term} (h : g.Accepts s .operand t)
    (hargs : ∀ a ∈ args, g.Accepts s .operand a) : g.Accepts s .operand (t.apps args) := by
  induction args generalizing t with
  | nil => exact h
  | cons a rest ih =>
    rw [List.forall_mem_cons] at hargs
    exact ih ((accepts_app (by simp)).2 ⟨h.guards.append [a], h.head, hargs.1⟩) hargs.2

/-- The parts of an accepted application. -/
theorem Accepts.spine (h : g.Accepts s .head t) :
    g.Accepts s .head t.head ∧ ∀ a ∈ t.args, g.Accepts s .operand a := by
  induction t with
  | app f a ihf _ =>
    obtain ⟨hf, ha⟩ := accepts_head_app.1 h
    refine ⟨(ihf hf).1, fun b hb => ?_⟩
    rcases List.mem_append.1 hb with hb | hb
    · exact (ihf hf).2 b hb
    · exact List.mem_singleton.1 hb ▸ ha
  | _ => exact ⟨h, nofun⟩

/-- At the head of an application only the call itself is left to be checked. -/
theorem Accepts.operand (h : g.Accepts s .head t) (hguards : g.Guards s t.head t.args) :
    g.Accepts s .operand t := by
  cases t with
  | app f a => exact (accepts_app (by simp)).2 ⟨hguards, accepts_head_app.1 h⟩
  | var x =>
    refine accepts_var.2 (.inr ?_)
    rintro ⟨hactive, rfl⟩
    obtain ⟨_, hnone, _⟩ := hguards hactive rfl
    cases hnone
  | _ => exact h

/-! ## Contractions -/

/-- The body of a binder is accepted with an accepted term put in. -/
theorem Accepts.instantiate {x : String} {b c : Term}
    (h : g.Accepts (g.inside s x .operand) .operand b) (hc : g.Accepts s .operand c) :
    g.Accepts s .operand (b.substitute x c) := by
  refine h.substitute (.term ?_ ?_ hc) fun y _ hyx => .inside_left hyx g s .operand
  · rw [mem_smaller_inside, if_pos rfl]
    exact fun hfield => nomatch hfield.1
  · rw [matchers_inside, if_pos rfl]
    split <;> rfl

/-- A call that is guarded stays guarded after a step: the head stays where it is, and the argument
in structural position is a variable. -/
theorem Guards.step {x : String} (h : g.Guards s t.head t.args) (hhead : t.head = .var x)
    (hstep : g.table.step? t = some t') : g.Guards s t'.head t'.args := by
  obtain ⟨hhead', -, hargs⟩ := step?_of_head_var hhead hstep
  rw [hhead', ← hhead]
  intro hactive hself
  obtain ⟨y, hy, hsmaller⟩ := h hactive hself
  exact ⟨y, hargs _ y hy, hsmaller⟩

/-- A match on a constructor is resolved to accepted terms. -/
theorem Accepts.elim_step {scrutinee m chosen : Term} {cases fields : List Term} {index : Nat}
    (h : g.Accepts s site (.elim scrutinee m cases))
    (hform : g.table.constructorForm? scrutinee = some (index, fields))
    (hchosen : cases[index]? = some chosen) : g.Accepts s .operand (chosen.apps fields) := by
  obtain ⟨hscrutinee, -, hcases⟩ := accepts_elim.1 h
  simp only [constructorForm?, Option.bind_eq_bind, Option.bind_eq_some_iff, Option.pure_def,
    Option.some.injEq, Prod.mk.injEq] at hform
  obtain ⟨name, hname, _, _, family, _, _, _, _, rfl⟩ := hform
  -- the scrutinee is no variable, so that nothing is smaller in the cases
  have hoperand : g.constructorsOf s scrutinee = [] := by
    cases scrutinee with
    | var x => cases hname
    | _ => rfl
  have hcase := hcases index chosen hchosen
  rw [hoperand] at hcase
  exact Accepts.apps hcase fun a ha => hscrutinee.head.spine.2 a (List.mem_of_mem_drop ha)

/-- A fixpoint is unfolded to accepted terms. -/
theorem Accepts.deltaStep (h : g.Accepts s .head t) (hstep : g.table.deltaStep? t = some t') :
    g.Accepts s .operand t' := by
  obtain ⟨self, body, _, _, _, hhead, -, -, -, rfl⟩ := deltaStep?_eq_some_iff.1 hstep
  obtain ⟨hfix, hargs⟩ := h.spine
  rw [hhead] at hfix
  exact (Accepts.instantiate (accepts_fix.1 hfix) (accepts_fix.2 (accepts_fix.1 hfix))).apps hargs

/-- **A visit meets no violation after a step.** -/
theorem Accepts.step (hbodies : g.table.BodiesClosed) (h : g.Accepts s site t)
    (hstep : g.table.step? t = some t') : g.Accepts s site t' := by
  induction t generalizing s site t' with
  | sort | var | lit | hole => cases hstep
  | global name =>
    obtain ⟨d, hd, rfl⟩ := Option.map_eq_some_iff.1 hstep
    exact accepts_of_not_mem fun _ => by simp [hbodies name d hd]
  | pi x a b iha ihb =>
    rw [accepts_pi] at h
    rw [SymbolTable.step?, Option.or_eq_some_iff] at hstep
    rcases hstep with hstep | ⟨_, hstep⟩
    · obtain ⟨a', ha, rfl⟩ := Option.map_eq_some_iff.1 hstep
      exact accepts_pi.2 ⟨iha h.1 ha, h.2⟩
    · obtain ⟨b', hb, rfl⟩ := Option.map_eq_some_iff.1 hstep
      exact accepts_pi.2 ⟨h.1, ihb h.2 hb⟩
  | lam x a b iha ihb =>
    rw [accepts_lam] at h
    rw [SymbolTable.step?, Option.or_eq_some_iff] at hstep
    rcases hstep with hstep | ⟨_, hstep⟩
    · obtain ⟨a', ha, rfl⟩ := Option.map_eq_some_iff.1 hstep
      exact accepts_lam.2 ⟨iha h.1 ha, h.2⟩
    · obtain ⟨b', hb, rfl⟩ := Option.map_eq_some_iff.1 hstep
      exact accepts_lam.2 ⟨h.1, ihb h.2 hb⟩
  | fix x b ihb =>
    obtain ⟨b', hb, rfl⟩ := Option.map_eq_some_iff.1 hstep
    exact accepts_fix.2 (ihb (accepts_fix.1 h) hb)
  | elim scrutinee m cases ihs _ _ =>
    rcases step?_elim_cases hstep with
      ⟨index, fields, chosen, hform, hchosen, rfl⟩ | ⟨scrutinee', hs, rfl⟩
    · exact (h.elim_step hform hchosen).anywhere site
    · obtain ⟨hscrutinee, hm, hcases⟩ := accepts_elim.1 h
      refine accepts_elim.2 ⟨ihs hscrutinee hs, hm, fun i c hc => ?_⟩
      refine (hcases i c hc).mono (caseSite_le ?_ i) fun x _ => .refl g s x
      rintro x family rfl
      cases hs
  | app f a ihf iha =>
    -- at the head of an application the call itself is not checked
    have happ : g.Accepts s .head (.app f a) := by
      by_cases hsite : site = .head
      · exact hsite ▸ h
      · exact accepts_head_app.2 ((accepts_app hsite).1 h).2
    obtain ⟨hf, ha⟩ := accepts_head_app.1 happ
    have hresult : g.Accepts s .operand t' ∨ (∃ f', g.table.step? f = some f' ∧ t' = .app f' a) ∨
        ∃ a', g.table.step? a = some a' ∧ t' = .app f a' := by
      rcases step?_app_cases hstep with ⟨x, d, b, rfl, rfl⟩ | hstep | hstep | hstep
      · exact .inl (Accepts.instantiate (accepts_lam.1 hf).2 ha)
      · obtain ⟨_, _, _, _, _, _, _, rfl⟩ := arithmetic?_eq_some_iff.1 hstep
        exact .inl rfl
      · exact .inl (happ.deltaStep hstep)
      · exact .inr hstep
    have happ' : g.Accepts s .head t' := by
      rcases hresult with hresult | ⟨f', hf', rfl⟩ | ⟨a', ha', rfl⟩
      · exact hresult.head
      · exact accepts_head_app.2 ⟨ihf hf hf', ha⟩
      · exact accepts_head_app.2 ⟨hf, iha ha ha'⟩
    by_cases hsite : site = .head
    · exact hsite ▸ happ'
    have hguards := ((accepts_app hsite).1 h).1
    have hguards' : g.Guards s t'.head t'.args := by
      by_cases hvar : ∃ x, f.head = .var x
      · obtain ⟨x, hx⟩ := hvar
        exact Guards.step (t := .app f a) hguards hx hstep
      rcases hresult with hresult | ⟨f', hf', rfl⟩ | ⟨a', ha', rfl⟩
      · exact hresult.guards
      · -- what is at the head may become a call, but then it is guarded already
        have hoperand := hf.operand fun _ hself => absurd ⟨_, hself⟩ hvar
        exact (ihf hoperand hf').guards.append [a]
      · exact fun _ hself => absurd ⟨_, hself⟩ hvar
    exact (happ'.operand hguards').anywhere site

/-! ## Bodies -/

/-- After the structural parameter, a body is visited like any other term. -/
theorem acceptsBody_none : g.AcceptsBody s none t ↔ g.Accepts s .operand t := by
  induction t generalizing s with
  | lam x a b _ ihb =>
    rw [acceptsBody_lam, accepts_lam]
    exact and_congr_right' ihb
  | _ => exact acceptsBody_of_not_lam (by simp)

end Target
end Guard

/-! ## Leading binders -/

namespace SymbolTable

variable {table : SymbolTable} {t t' : Term}

/-- Whether an inductive type heads a type. -/
def headedByFamily (table : SymbolTable) (type : Term) : Bool :=
  (type.headGlobal?.map table.isFamily).getD false

theorem headedByFamily_eq_true {type : Term} : table.headedByFamily type = true ↔
    ∃ family, type.headGlobal? = some family ∧ table.isFamily family = true := by
  unfold headedByFamily
  cases type.headGlobal? <;> simp

theorem structuralIndex?_eq_some_iff {i : Nat} : table.structuralIndex? t = some i ↔
    (∃ p, t.lambdaChain.1[i]? = some p ∧ table.headedByFamily p.2 = true) ∧
      ∀ j < i, ∀ p, t.lambdaChain.1[j]? = some p → table.headedByFamily p.2 = false := by
  rw [structuralIndex?, structuralIndexOf, List.findIdx?_eq_some_iff_getElem]
  constructor
  · rintro ⟨hi, hp, hbefore⟩
    refine ⟨⟨_, List.getElem?_eq_getElem hi, hp⟩, fun j hj p hget => ?_⟩
    obtain ⟨_, rfl⟩ := List.getElem?_eq_some_iff.1 hget
    exact Bool.not_eq_true _ ▸ hbefore j hj
  · rintro ⟨⟨p, hget, hp⟩, hbefore⟩
    obtain ⟨hi, rfl⟩ := List.getElem?_eq_some_iff.1 hget
    refine ⟨hi, hp, fun j hj hq => ?_⟩
    have hfalse := hbefore j hj _ (List.getElem?_eq_getElem (Nat.lt_trans hj hi))
    exact absurd hq (Bool.not_eq_true _ ▸ hfalse)

/-- The structural parameter does not come after a binder whose type an inductive type heads. -/
theorem exists_structuralIndex?_le {i : Nat}
    (h : ∃ p, t.lambdaChain.1[i]? = some p ∧ table.headedByFamily p.2 = true) :
    ∃ j ≤ i, table.structuralIndex? t = some j := by
  obtain ⟨p, hget, hp⟩ := h
  cases hindex : table.structuralIndex? t with
  | none =>
    rw [structuralIndex?, structuralIndexOf, List.findIdx?_eq_none_iff] at hindex
    have hfalse := hindex p (List.mem_of_getElem? hget)
    exact absurd hp (Bool.not_eq_true _ ▸ hfalse)
  | some j =>
    refine ⟨j, Nat.not_lt.1 fun hlt => ?_, rfl⟩
    have hfalse := (structuralIndex?_eq_some_iff.1 hindex).2 i hlt p hget
    rw [hp] at hfalse
    cases hfalse

/-- Leading binders stay through a step, and at most one of their types takes it. -/
theorem lambdaChain_step (h : table.step? t = some t') {m : Nat} {p : String × Term}
    (hp : t.lambdaChain.1[m]? = some p) :
    ∃ p', t'.lambdaChain.1[m]? = some p' ∧ (p'.2 = p.2 ∨ table.step? p.2 = some p'.2) := by
  induction t generalizing m t' with
  | lam x a b _ ihb =>
    rw [step?, Option.or_eq_some_iff] at h
    rcases h with h | ⟨_, h⟩
    · obtain ⟨a', ha, rfl⟩ := Option.map_eq_some_iff.1 h
      cases m with
      | zero =>
        cases hp
        exact ⟨(x, a'), rfl, .inr ha⟩
      | succ m => exact ⟨p, hp, .inl rfl⟩
    · obtain ⟨b', hb, rfl⟩ := Option.map_eq_some_iff.1 h
      cases m with
      | zero => exact ⟨p, hp, .inl rfl⟩
      | succ m =>
        obtain ⟨p', hp', hstep⟩ := ihb hb (m := m) hp
        exact ⟨p', hp', hstep⟩
  | _ => cases hp

/-- The types of leading binders take steps of their own. -/
theorem lambdaChain_steps {k : Nat} (h : table.steps? k t = some t') {m : Nat} {p : String × Term}
    (hp : t.lambdaChain.1[m]? = some p) :
    ∃ p' n, t'.lambdaChain.1[m]? = some p' ∧ table.steps? n p.2 = some p'.2 := by
  induction k generalizing t p with
  | zero =>
    cases h
    exact ⟨p, 0, hp, rfl⟩
  | succ k ih =>
    obtain ⟨u, hu, h⟩ := Option.bind_eq_some_iff.1 h
    obtain ⟨q, hq, hstep⟩ := lambdaChain_step hu hp
    obtain ⟨p', n, hp', hn⟩ := ih h hq
    rcases hstep with heq | hstep
    · exact ⟨p', n, hp', heq ▸ hn⟩
    · exact ⟨p', n + 1, hp', Option.bind_eq_some_iff.2 ⟨q.2, hstep, hn⟩⟩

end SymbolTable

namespace Guard
namespace Target

variable {g : Target} {s : Scope} {t t' : Term}

/-- **A step of a body leaves it guarded** for the position of the structural parameter, where there
is still one. -/
theorem AcceptsBody.step (hbodies : g.table.BodiesClosed) (hroles : g.table.Unambiguous) {i : Nat}
    (h : g.AcceptsBody s (some i) t)
    (hi : ∃ p, t.lambdaChain.1[i]? = some p ∧ g.table.headedByFamily p.2 = true)
    (hstep : g.table.step? t = some t') :
    g.AcceptsBody s (some i) t' ∧
      ∃ p, t'.lambdaChain.1[i]? = some p ∧ g.table.headedByFamily p.2 = true := by
  induction t generalizing s i t' with
  | lam x a b _ ihb =>
    rw [acceptsBody_lam] at h
    obtain ⟨ha, hb⟩ := h
    obtain ⟨p, hp, hfamily⟩ := hi
    rw [step?, Option.or_eq_some_iff] at hstep
    cases i with
    | zero =>
      obtain rfl : (x, a) = p := Option.some.inj hp
      rcases hstep with hstep | ⟨_, hstep⟩
      · obtain ⟨a', ha', rfl⟩ := Option.map_eq_some_iff.1 hstep
        obtain ⟨family, hhead, hname⟩ := headedByFamily_eq_true.1 hfamily
        have hhead' := hroles.headGlobal?_step hhead hname ha'
        refine ⟨acceptsBody_lam.2 ⟨ha.step hbodies ha', ?_⟩, (x, a'), rfl,
          headedByFamily_eq_true.2 ⟨family, hhead', hname⟩⟩
        rw [enterParam, hhead, ← hhead'] at hb
        exact hb
      · obtain ⟨b', hb', rfl⟩ := Option.map_eq_some_iff.1 hstep
        refine ⟨acceptsBody_lam.2 ⟨ha, ?_⟩, (x, a), rfl, hfamily⟩
        exact acceptsBody_none.2 ((acceptsBody_none.1 hb).step hbodies hb')
    | succ i =>
      rcases hstep with hstep | ⟨_, hstep⟩
      · obtain ⟨a', ha', rfl⟩ := Option.map_eq_some_iff.1 hstep
        exact ⟨acceptsBody_lam.2 ⟨ha.step hbodies ha', hb⟩, p, hp, hfamily⟩
      · obtain ⟨b', hb', rfl⟩ := Option.map_eq_some_iff.1 hstep
        obtain ⟨hb, p', hp', hfamily'⟩ := ihb (i := i) hb ⟨p, hp, hfamily⟩ hb'
        exact ⟨acceptsBody_lam.2 ⟨ha, hb⟩, p', hp', hfamily'⟩
  | _ =>
    obtain ⟨p, hp, -⟩ := hi
    cases hp

/-- Steps of a body leave it guarded. -/
theorem AcceptsBody.steps (hbodies : g.table.BodiesClosed) (hroles : g.table.Unambiguous) {i : Nat}
    (h : g.AcceptsBody s (some i) t)
    (hi : ∃ p, t.lambdaChain.1[i]? = some p ∧ g.table.headedByFamily p.2 = true) {k : Nat}
    (hsteps : g.table.steps? k t = some t') :
    g.AcceptsBody s (some i) t' ∧
      ∃ p, t'.lambdaChain.1[i]? = some p ∧ g.table.headedByFamily p.2 = true := by
  induction k generalizing t with
  | zero =>
    cases hsteps
    exact ⟨h, hi⟩
  | succ k ih =>
    obtain ⟨u, hu, hsteps⟩ := Option.bind_eq_some_iff.1 hsteps
    obtain ⟨h, hi⟩ := h.step hbodies hroles hi hu
    exact ih h hi hsteps

end Target
end Guard

/-! ## Fixpoints that are accepted -/

/-- An accepted fixpoint is guarded. -/
theorem checkTermination_of_infer {options : Options} {Γ : Context} {self : String}
    {body type : Term} (h : (infer options Γ (.fix self body)).outcome = .ok type) :
    (checkTermination options Γ.table self body).outcome = .ok () := by
  rw [infer_outcome, synthesize, Verdict.seq_eq_ok_iff] at h
  exact h.1

open Guard in
/-- **Steps in the body of an accepted fixpoint leave it guarded** for the position of its
structural parameter.  The position that is read off the new body is the same one or an earlier one.
It is the same one, and the new body is accepted, unless some type before the structural parameter
reduces to one that an inductive type heads. -/
theorem Session.Reachable.guarded_of_steps {options : Options} {withPrelude : Bool}
    {allowed : Statement → Prop} {s : Session} (h : Reachable options withPrelude allowed s)
    {Γ : Context} (hΓ : Γ.table = s.table) {self : String} {body type : Term}
    (hinfer : (infer options Γ (.fix self body)).outcome = .ok type) {k : Nat} {body' : Term}
    (hsteps : s.table.steps? k body = some body') :
    ∃ i, s.table.structuralIndex? body = some i ∧
      Target.AcceptsBody ⟨options, s.table, self, i⟩ .initial (some i) body' ∧
      (∃ j ≤ i, s.table.structuralIndex? body' = some j) ∧
      ((∀ j < i, ∀ p, body.lambdaChain.1[j]? = some p →
          ∀ n type', s.table.steps? n p.2 = some type' → s.table.headedByFamily type' = false) →
        s.table.structuralIndex? body' = some i ∧
          (checkTermination options s.table self body').outcome = .ok ()) := by
  have hchecked := checkTermination_of_infer hinfer
  rw [hΓ, checkTermination_eq_ok_iff] at hchecked
  obtain ⟨i, hindex, haccepts⟩ := hchecked
  obtain ⟨hparam, -⟩ := structuralIndex?_eq_some_iff.1 hindex
  have hroles : (Target.mk options s.table self i).table.Unambiguous := h.unambiguous
  obtain ⟨haccepts', hparam'⟩ := haccepts.steps h.bodiesClosed hroles hparam hsteps
  refine ⟨i, hindex, haccepts', exists_structuralIndex?_le hparam', fun hnone => ?_⟩
  have hindex' : s.table.structuralIndex? body' = some i := by
    refine structuralIndex?_eq_some_iff.2 ⟨hparam', fun j hj p' hp' => ?_⟩
    -- the binder was there before, and its type took steps
    obtain ⟨q, hq, -⟩ := hparam
    have hlt := Nat.lt_trans hj (List.getElem?_eq_some_iff.1 hq).1
    obtain ⟨p'', n, hp'', hn⟩ := lambdaChain_steps hsteps (List.getElem?_eq_getElem hlt)
    obtain rfl : p'' = p' := Option.some.inj (hp''.symm.trans hp')
    exact hnone j hj _ (List.getElem?_eq_getElem hlt) n _ hn
  exact ⟨hindex', checkTermination_eq_ok_iff.2 ⟨i, hindex', haccepts'⟩⟩

/-- A fixpoint with a parameter before the structural one takes a step in its scrutinee and stays
accepted. -/
theorem Session.guarded_of_steps_scrutinee :
    let options : Options := ⟨100, false, false, false⟩
    let type := Term.global "True"
    let body := fun scrutinee : Term => Term.lam "p" (.sort .prop) (.lam "x" type
      (.elim scrutinee (.lam "y" type type) [.global "I"]))
    let redex := Term.app (.lam "z" type (.var "z")) (.var "x")
    ∃ s : Session, Reachable options true (fun _ => True) s ∧
      (∃ T, (infer options (.ofTable s.table) (.fix "f" (body redex))).outcome = .ok T) ∧
      s.table.structuralIndex? (body redex) = some 1 ∧
      s.table.steps? 1 (body redex) = some (body (.var "x")) ∧
      s.table.structuralIndex? (body (.var "x")) = some 1 ∧
      (checkTermination options s.table "f" (body (.var "x"))).outcome = .ok () := by
  intro options type body redex
  obtain ⟨table, htable, hinfer, hindex, hsteps⟩ :=
    Verdict.exists_ok_of_any (v := initialTable options true)
      (P := fun table =>
        (infer options (.ofTable table) (.fix "f" (body redex))).outcome =
          .ok (.pi "p" (.sort .prop) (.pi "x" type type)) ∧
        table.structuralIndex? (body redex) = some 1 ∧
        table.steps? 1 (body redex) = some (body (.var "x"))) (by decide +kernel)
  have hs : Reachable options true (fun _ => True) ⟨options, true, table⟩ :=
    @Reachable.start _ _ _ false _ (by simp [Session.start, htable])
  obtain ⟨i, hi, -, -, hsame⟩ := hs.guarded_of_steps rfl hinfer hsteps
  obtain rfl : 1 = i := Option.some.inj (hindex.symm.trans hi)
  refine ⟨_, hs, ⟨_, hinfer⟩, hindex, hsteps, hsame fun j hj p hp n type' hn => ?_⟩
  -- the universe before the structural parameter takes no step
  obtain rfl : j = 0 := by omega
  obtain rfl : ("p", .sort .prop) = p := Option.some.inj hp
  cases n with
  | zero =>
    cases hn
    rfl
  | succ n => cases hn

end ProofKernel
