import ProofKernel.Proofs.Nameless.Interpretation
import ProofKernel.Proofs.Typing.Rules

/-!
# Accepted terms are in scope

* `infer_scoped` and `check_scoped`: a term that is accepted has no variables but those of its
  context.
* `check_eq_ok` says in which ways a term can be accepted at a type.
* `ScopedIfAccepted` is the statement for both judgements, which is shown from smaller terms.
-/

set_option autoImplicit false
namespace ProofKernel

variable {options : Options} {Γ : Context}

/-! ## Contexts -/

@[simp] theorem Context.names_extend (Γ : Context) (x : String) (a : Term) :
    (Γ.extend x a).names = x :: Γ.names := rfl

@[simp] theorem Context.names_ofTable (table : SymbolTable) : (Context.ofTable table).names = [] :=
  rfl

/-- A variable that has a type is in scope. -/
theorem Context.mem_names_of_get? {x : String} {type : Term} (h : Γ.get? x = some type) :
    x ∈ Γ.names := by
  obtain ⟨table, locals⟩ := Γ
  unfold Context.get? at h
  unfold Context.names
  induction locals with
  | nil => cases h
  | cons p rest ih =>
    rw [List.lookup_cons] at h
    rw [List.map_cons, List.mem_cons]
    split at h
    · next heq => exact .inl (beq_iff_eq.1 heq)
    · exact .inr (ih h)

/-! ## The ways of checking -/

/-- A term is accepted at a type when it is a hole, when a type is inferred for it, or when it is a
function without binder type that is accepted at a product. -/
theorem check_eq_ok {t expected : Term} (h : (check options Γ t expected).outcome = .ok ()) :
    t = .hole ∨ (∃ type, (infer options Γ t).outcome = .ok type) ∨
      ∃ x a b y domain codomain, t = .lam x a b ∧ a.isPlaceholder = true ∧
        (check options (Γ.extend (openLambda Γ x b y codomain).1 domain)
          (openLambda Γ x b y codomain).2.1 (openLambda Γ x b y codomain).2.2).outcome =
            .ok () := by
  rw [check.eq_def, Verdict.outcome_bind, Verdict.outcome_note, Verdict.ok_bind] at h
  split at h
  · rw [Verdict.bind_eq_ok_iff] at h
    obtain ⟨type, htype, _⟩ := h
    exact .inr (.inl ⟨type, htype⟩)
  · exact .inl rfl
  · next x a b _ =>
    split at h
    · next hplaceholder =>
      rw [Verdict.outcome_bind, Verdict.outcome_liftM, Verdict.ok_bind] at h
      split at h
      · cases h
      · next y domain codomain _ =>
        exact .inr (.inr ⟨x, a, b, y, domain, codomain, rfl, hplaceholder, h⟩)
    · rw [Verdict.bind_eq_ok_iff] at h
      obtain ⟨type, htype, _⟩ := h
      exact .inr (.inl ⟨type, htype⟩)
  · rw [Verdict.bind_eq_ok_iff] at h
    obtain ⟨type, htype, _⟩ := h
    exact .inr (.inl ⟨type, htype⟩)

/-- Every case of a match that is accepted is accepted at some type. -/
theorem checkCases_eq_ok {motive : Term} {params : List Term} {constructors : List String}
    {cases : List Term} (hlen : cases.length = constructors.length)
    (h : (checkCases options Γ motive params constructors cases).outcome = .ok ()) :
    ∀ c ∈ cases, ∃ expected, (check options Γ c expected).outcome = .ok () := by
  induction cases generalizing constructors with
  | nil => simp
  | cons c rest ih =>
    obtain ⟨name, names, rfl⟩ := List.exists_cons_of_length_eq_add_one hlen.symm
    rw [checkCases] at h
    split at h
    · cases h
    · simp only [Verdict.bind_eq_ok_iff] at h
      obtain ⟨_, _, _, hc, hrest⟩ := h
      intro d hd
      rcases List.mem_cons.1 hd with rfl | hd
      · exact ⟨_, hc⟩
      · exact ih (Nat.succ.inj hlen) hrest d hd

/-! ## Scopes -/

/-- A function is in scope if it is so after its binder was renamed. -/
theorem scoped_of_openLambda {x y : String} {b codomain : Term}
    (h : ∀ z ∈ (openLambda Γ x b y codomain).2.1.freeVars,
      z ∈ (openLambda Γ x b y codomain).1 :: Γ.names) :
    ∀ z ∈ b.freeVars, z ∈ x :: Γ.names := by
  unfold openLambda at h
  split at h
  · exact h
  split at h
  · -- the new name is not one of the body, so that only the binder changes
    have hfresh := fresh_not_mem x (b.freeVars ++ codomain.freeVars ++ Γ.names)
    dsimp only at h
    generalize fresh x (b.freeVars ++ codomain.freeVars ++ Γ.names) = x' at h hfresh
    simp only [List.mem_append, not_or] at hfresh
    intro z hz
    by_cases hzx : z = x
    · exact hzx ▸ List.mem_cons_self
    · have hmem : z ∈ (b.rename x x').freeVars := by
        unfold Term.rename
        split
        · exact hz
        · exact Term.mem_freeVars_substitute.2 (.inl ⟨hz, hzx⟩)
      rcases List.mem_cons.1 (h z hmem) with rfl | hmem
      · exact absurd hz hfresh.1.1
      · exact List.mem_cons_of_mem _ hmem
  · exact h

theorem mem_names_of_mem_filter {x : String} {b : Term} (h : ∀ z ∈ b.freeVars, z ∈ x :: Γ.names) :
    ∀ z ∈ b.freeVars.filter (· != x), z ∈ Γ.names := by
  intro z hz
  obtain ⟨hz, hzx⟩ := Term.mem_filter_ne.1 hz
  exact (List.mem_cons.1 (h z hz)).resolve_left hzx

/-- Only with its variables in scope is a term accepted. -/
structure ScopedIfAccepted (options : Options) (t : Term) : Prop where
  infer : ∀ {Γ : Context} {type : Term}, (infer options Γ t).outcome = .ok type →
    ∀ z ∈ t.freeVars, z ∈ Γ.names
  check : ∀ {Γ : Context} {expected : Term}, (check options Γ t expected).outcome = .ok () →
    ∀ z ∈ t.freeVars, z ∈ Γ.names

section

variable {t : Term} (ih : ∀ u : Term, u.size < t.size → ScopedIfAccepted options u)
include ih

theorem infer_scoped_of_parts {type : Term} (haccepted : (infer options Γ t).outcome = .ok type) :
    ∀ z ∈ t.freeVars, z ∈ Γ.names := by
  have h := haccepted
  rw [infer_outcome, synthesize.eq_def] at h
  cases t with
  | sort | global | lit | hole => simp [Term.freeVars]
  | var x =>
    dsimp only at h
    split at h
    · next htype =>
      intro z hz
      rw [List.mem_singleton.1 hz]
      exact Context.mem_names_of_get? htype
    · cases h
  | pi x a b =>
    obtain ⟨_, _, ha, hb, _⟩ := infer_pi_eq_ok_iff.1 haccepted
    obtain ⟨_, ha, _⟩ := inferSort_eq_ok_iff.1 ha
    obtain ⟨_, hb, _⟩ := inferSort_eq_ok_iff.1 hb
    have hb := (ih b (by simp only [Term.size]; omega)).infer hb
    rw [Term.freeVars, List.forall_mem_append]
    exact ⟨(ih a (by simp only [Term.size]; omega)).infer ha,
      mem_names_of_mem_filter hb⟩
  | lam x a b =>
    obtain ⟨_, _, ha, hb, _⟩ := infer_lam_eq_ok_iff.1 haccepted
    obtain ⟨_, ha, _⟩ := inferSort_eq_ok_iff.1 ha
    have hb := (ih b (by simp only [Term.size]; omega)).infer hb
    rw [Term.freeVars, List.forall_mem_append]
    exact ⟨(ih a (by simp only [Term.size]; omega)).infer ha,
      mem_names_of_mem_filter hb⟩
  | app f a =>
    obtain ⟨_, _, _, _, hf, _, ha, _⟩ := infer_app_eq_ok_iff.1 haccepted
    rw [Term.freeVars, List.forall_mem_append]
    exact ⟨(ih f (by simp only [Term.size]; omega)).infer hf,
      (ih a (by simp only [Term.size]; omega)).check ha⟩
  | elim s m cases =>
    obtain ⟨_, _, _, _, _, hs, _, hm, _, hlen, hcases, _⟩ := infer_elim_eq_ok_iff.1 haccepted
    rw [Term.freeVars, List.forall_mem_append, List.forall_mem_append]
    refine ⟨⟨(ih s (by simp only [Term.size]; omega)).infer hs,
      (ih m (by simp only [Term.size]; omega)).infer hm⟩, fun z hz => ?_⟩
    obtain ⟨c, hc, hz⟩ := Term.mem_freeVarsAll.1 hz
    obtain ⟨expected, hexpected⟩ := checkCases_eq_ok hlen hcases c hc
    have := Term.size_le_sizes hc
    exact (ih c (by simp only [Term.size]; omega)).check hexpected z hz
  | fix x b =>
    simp only [Verdict.bind_eq_ok_iff] at h
    obtain ⟨_, _, _, _, _, _, _, hb, _⟩ := h
    exact mem_names_of_mem_filter ((ih b (by simp only [Term.size]; omega)).check hb)

theorem check_scoped_of_parts {expected : Term}
    (h : (check options Γ t expected).outcome = .ok ()) : ∀ z ∈ t.freeVars, z ∈ Γ.names := by
  rcases check_eq_ok h with rfl | ⟨type, htype⟩ | ⟨x, a, b, y, domain, codomain, rfl, ha, hb⟩
  · simp [Term.freeVars]
  · exact infer_scoped_of_parts ih htype
  · -- the body may be renamed, which does not change its size
    have hsize : (openLambda Γ x b y codomain).2.1.size < (Term.lam x a b).size := by
      rw [size_openLambda, Term.size]
      omega
    have hfree : a.freeVars = [] := by
      cases a with
      | global | hole => rfl
      | _ => cases ha
    rw [Term.freeVars, hfree, List.nil_append]
    exact mem_names_of_mem_filter (scoped_of_openLambda ((ih _ hsize).check hb))

end

/-- **A term that is accepted is in scope.** -/
theorem scopedIfAccepted (t : Term) : ScopedIfAccepted options t := by
  induction hn : t.size using Nat.strongRecOn generalizing t with
  | ind n ih =>
    subst hn
    have hparts : ∀ u : Term, u.size < t.size → ScopedIfAccepted options u := fun u hu =>
      ih u.size hu u rfl
    exact ⟨infer_scoped_of_parts hparts, check_scoped_of_parts hparts⟩

theorem infer_scoped {t type : Term} (h : (infer options Γ t).outcome = .ok type) :
    ∀ z ∈ t.freeVars, z ∈ Γ.names :=
  (scopedIfAccepted t).infer h

theorem check_scoped {t expected : Term} (h : (check options Γ t expected).outcome = .ok ()) :
    ∀ z ∈ t.freeVars, z ∈ Γ.names :=
  (scopedIfAccepted t).check h

theorem inferSort_scoped {t : Term} {u : Universe}
    (h : (inferSort options Γ t).outcome = .ok u) : ∀ z ∈ t.freeVars, z ∈ Γ.names := by
  obtain ⟨type, htype, _⟩ := inferSort_eq_ok_iff.1 h
  exact infer_scoped htype

/-! ## Without local variables -/

section

variable {table : SymbolTable} {t : Term}

theorem freeVars_eq_nil_of_scoped (h : ∀ z ∈ t.freeVars, z ∈ (Context.ofTable table).names) :
    t.freeVars = [] :=
  List.eq_nil_iff_forall_not_mem.2 fun z hz => absurd (h z hz) List.not_mem_nil

theorem closed_of_infer {type : Term}
    (h : (infer options (.ofTable table) t).outcome = .ok type) : t.freeVars = [] :=
  freeVars_eq_nil_of_scoped (infer_scoped h)

theorem closed_of_check {expected : Term}
    (h : (check options (.ofTable table) t expected).outcome = .ok ()) : t.freeVars = [] :=
  freeVars_eq_nil_of_scoped (check_scoped h)

theorem closed_of_inferSort {u : Universe}
    (h : (inferSort options (.ofTable table) t).outcome = .ok u) : t.freeVars = [] :=
  freeVars_eq_nil_of_scoped (inferSort_scoped h)

end

end ProofKernel
