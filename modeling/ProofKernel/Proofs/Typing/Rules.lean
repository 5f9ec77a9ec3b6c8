import ProofKernel.Typing
import ProofKernel.Proofs.Reduction.Steps
import ProofKernel.Proofs.Verdict

/-!
# Typing rules

The cases of inference and checking as rules on outcomes, so that a term can be typed piece by piece
without opening the algorithm.

* `asSort_value` and `isSubtype_value` say what the algorithm reads off the normal form of a type.
* `infer_app` is the rule for applications, `check_of_infer` the one for a term whose type is known,
  and `check_sort_of_inferSort` says that a type checks against its own universe.
-/

set_option autoImplicit false
namespace ProofKernel

variable {options : Options} {Γ : Context} {table : SymbolTable}

/-! ## What is read off a normal form -/

theorem reduce_sort (n : Nat) (u : Universe) : table.reduce n (.sort u) = .sort u :=
  SymbolTable.reduce_of_step?_eq_none rfl n

/-- A product reduces to products over the same name. -/
theorem reduce_pi (table : SymbolTable) (n : Nat) (x : String) (a b : Term) :
    ∃ a' b', table.reduce n (.pi x a b) = .pi x a' b' := by
  induction n generalizing a b with
  | zero => exact ⟨a, b, rfl⟩
  | succ n ih =>
    rw [SymbolTable.reduce, SymbolTable.step?]
    cases table.step? a with
    | some a' => exact ih a' b
    | none =>
      cases table.step? b with
      | some b' => exact ih a b'
      | none => exact ⟨a, b, rfl⟩

/-- The universe a type is read as is the one its normal form is. -/
theorem asSort_value {t : Term} {u : Universe} :
    (asSort options table t).value = some u ↔ table.reduce options.fuel t = .sort u := by
  cases t with
  | sort v => simp [asSort, reduce_sort]
  | _ =>
    simp only [asSort, Traced.value_bind, SymbolTable.value_normalize]
    split <;> simp_all

theorem asPi_pi (x : String) (a b : Term) :
    (asPi options table (.pi x a b)).value = some (x, a, b) := rfl

/-- A placeholder is a subtype of every normal form, and every normal form is one of it. -/
theorem Term.le_of_isPlaceholder {t u : Term}
    (h : t.isPlaceholder = true ∨ u.isPlaceholder = true) : t.le u = true := by
  have hagrees : t.agrees u = true := by rw [agrees.eq_def, if_pos (Bool.or_eq_true _ _ ▸ h)]
  rw [le.eq_def]
  split
  · simp [isPlaceholder] at h
  · simp [isPlaceholder] at h
  · exact hagrees

theorem isSubtype_value (a b : Term) :
    (isSubtype options table a b).value =
      (table.reduce options.fuel a).le (table.reduce options.fuel b) := by
  simp [isSubtype]

theorem isSubtype_sort {u v : Universe} :
    (isSubtype options table (.sort u) (.sort v)).value = u.le v := by
  rw [isSubtype_value, reduce_sort, reduce_sort, Term.le]

theorem compare_outcome {expected found : Term} :
    (compare options Γ expected found).outcome = .ok () ↔
      (Γ.table.reduce options.fuel found).le (Γ.table.reduce options.fuel expected) = true := by
  unfold compare
  rw [Verdict.outcome_bind, Verdict.outcome_liftM, Verdict.ok_bind, isSubtype_value]
  split <;> simp_all

/-! ## Inference -/

/-- Inference is the rule for the outermost node. -/
theorem infer_outcome (t : Term) :
    (infer options Γ t).outcome = (synthesize options Γ t).outcome := by
  rw [infer, Verdict.outcome_bind]
  cases (synthesize options Γ t).outcome <;> simp

theorem inferSort_eq_ok_iff {t : Term} {u : Universe} :
    (inferSort options Γ t).outcome = .ok u ↔
      ∃ k, (infer options Γ t).outcome = .ok k ∧ Γ.table.reduce options.fuel k = .sort u := by
  rw [inferSort, Verdict.bind_eq_ok_iff]
  refine exists_congr fun k => and_congr_right fun _ => ?_
  rw [← asSort_value, Verdict.outcome_bind, Verdict.outcome_liftM, Verdict.ok_bind]
  cases (asSort options Γ.table k).value <;> simp

theorem infer_sort (u : Universe) : (infer options Γ (.sort u)).outcome = .ok (.sort u.succ) := by
  rw [infer_outcome, synthesize, Verdict.outcome_pure]

theorem inferSort_sort (u : Universe) :
    (inferSort options Γ (.sort u)).outcome = .ok u.succ :=
  inferSort_eq_ok_iff.2 ⟨_, infer_sort u, reduce_sort _ _⟩

theorem infer_global {name : String} {type : Term} (h : Γ.table.type? name = some type) :
    (infer options Γ (.global name)).outcome = .ok type := by
  rw [infer_outcome, synthesize, h, Verdict.outcome_pure]

theorem infer_hole : (infer options Γ .hole).outcome = .error .cannotInferHole := by
  rw [infer_outcome, synthesize]
  rfl

/-- A function is accepted if its binder type is a type and its body is accepted. -/
theorem infer_lam_eq_ok_iff {x : String} {a b type : Term} :
    (infer options Γ (.lam x a b)).outcome = .ok type ↔
      ∃ u inner, (inferSort options Γ a).outcome = .ok u ∧
        (infer options (Γ.extend x a) b).outcome = .ok inner ∧ type = .pi x a inner := by
  rw [infer_outcome, synthesize]
  simp only [Verdict.bind_eq_ok_iff, Verdict.outcome_pure, Except.ok.injEq, exists_and_left,
    @eq_comm _ type]

theorem infer_lam {x : String} {a b type : Term} {u : Universe}
    (ha : (inferSort options Γ a).outcome = .ok u)
    (hb : (infer options (Γ.extend x a) b).outcome = .ok type) :
    (infer options Γ (.lam x a b)).outcome = .ok (.pi x a type) :=
  infer_lam_eq_ok_iff.2 ⟨u, type, ha, hb, rfl⟩

/-- An application is accepted if the type of the function is read as a product, and the argument is
accepted at its domain. -/
theorem infer_app_eq_ok_iff {f a type : Term} :
    (infer options Γ (.app f a)).outcome = .ok type ↔
      ∃ F x domain codomain, (infer options Γ f).outcome = .ok F ∧
        (asPi options Γ.table F).value = some (x, domain, codomain) ∧
        (check options Γ a domain).outcome = .ok () ∧ type = codomain.substitute x a := by
  rw [infer_outcome, synthesize, Verdict.bind_eq_ok_iff]
  refine exists_congr fun F => ?_
  rw [Verdict.outcome_bind, Verdict.outcome_liftM, Verdict.ok_bind]
  rcases (asPi options Γ.table F).value with _ | ⟨x, domain, codomain⟩
  · simp
  · simp only [Verdict.bind_eq_ok_iff, Verdict.outcome_pure, Except.ok.injEq, @eq_comm _ type]
    grind

/-- The type of an application is the codomain at the argument. -/
theorem infer_app {f a domain codomain : Term} {x : String}
    (hf : (infer options Γ f).outcome = .ok (.pi x domain codomain))
    (ha : (check options Γ a domain).outcome = .ok ()) :
    (infer options Γ (.app f a)).outcome = .ok (codomain.substitute x a) :=
  infer_app_eq_ok_iff.2 ⟨_, x, domain, codomain, hf, asPi_pi x domain codomain, ha, rfl⟩

/-- A function whose type is a product is applied to arguments of the domain. -/
theorem infer_app_iff {f a type domain codomain : Term} {x : String}
    (hf : (infer options Γ f).outcome = .ok (.pi x domain codomain)) :
    (infer options Γ (.app f a)).outcome = .ok type ↔
      (check options Γ a domain).outcome = .ok () ∧ type = codomain.substitute x a := by
  constructor
  · intro h
    obtain ⟨F, y, domain', codomain', hF, hpi, ha, rfl⟩ := infer_app_eq_ok_iff.1 h
    obtain rfl := Except.ok.inj (hf.symm.trans hF)
    cases (asPi_pi x domain codomain).symm.trans hpi
    exact ⟨ha, rfl⟩
  · rintro ⟨ha, rfl⟩
    exact infer_app hf ha

/-- A product is accepted if its domain and its codomain are types. -/
theorem infer_pi_eq_ok_iff {x : String} {a b type : Term} :
    (infer options Γ (.pi x a b)).outcome = .ok type ↔
      ∃ u v, (inferSort options Γ a).outcome = .ok u ∧
        (inferSort options (Γ.extend x a) b).outcome = .ok v ∧ type = .sort (u.max v) := by
  rw [infer_outcome, synthesize]
  simp only [Verdict.bind_eq_ok_iff, Verdict.outcome_pure, Except.ok.injEq, exists_and_left,
    @eq_comm _ type]

theorem infer_pi {x : String} {a b : Term} {u v : Universe}
    (ha : (inferSort options Γ a).outcome = .ok u)
    (hb : (inferSort options (Γ.extend x a) b).outcome = .ok v) :
    (infer options Γ (.pi x a b)).outcome = .ok (.sort (u.max v)) :=
  infer_pi_eq_ok_iff.2 ⟨u, v, ha, hb, rfl⟩

/-- A match is accepted if its scrutinee is of an inductive type, its motive is read as a function
to types, and there is an accepted case for each constructor. -/
theorem infer_elim_eq_ok_iff {s m type : Term} {cases : List Term} :
    (infer options Γ (.elim s m cases)).outcome = .ok type ↔
      ∃ S M family params motive, (infer options Γ s).outcome = .ok S ∧
        Γ.table.familyOf (Γ.table.reduce options.fuel S) = .ok (family, params) ∧
        (infer options Γ m).outcome = .ok M ∧
        (effectiveMotive m (Γ.table.reduce options.fuel S)
          (Γ.table.reduce options.fuel M)).outcome = .ok motive ∧
        cases.length = family.constructors.length ∧
        (checkCases options Γ motive params family.constructors cases).outcome = .ok () ∧
        type = (Term.app motive s).betaReduce := by
  constructor
  · intro h
    rw [infer_outcome, synthesize, Verdict.bind_eq_ok_iff] at h
    obtain ⟨S, hS, h⟩ := h
    rw [Verdict.outcome_bind, Verdict.outcome_liftM, Verdict.ok_bind, SymbolTable.value_normalize,
      Verdict.bind_eq_ok_iff] at h
    obtain ⟨⟨family, params⟩, hfamily, h⟩ := h
    rw [Verdict.bind_eq_ok_iff] at h
    obtain ⟨M, hM, h⟩ := h
    rw [Verdict.outcome_bind, Verdict.outcome_liftM, Verdict.ok_bind, SymbolTable.value_normalize,
      Verdict.bind_eq_ok_iff] at h
    obtain ⟨motive, hmotive, h⟩ := h
    refine ⟨S, M, family, params, motive, hS, hfamily, hM, hmotive, ?_⟩
    split at h
    · rw [Verdict.bind_eq_ok_iff] at h
      obtain ⟨_, hreject, _⟩ := h
      cases hreject
    · next hlen =>
      rw [Verdict.bind_eq_ok_iff] at h
      obtain ⟨_, hcases, h⟩ := h
      cases h
      exact ⟨Classical.not_not.1 hlen, hcases, rfl⟩
  · rintro ⟨S, M, family, params, motive, hS, hfamily, hM, hmotive, hlen, hcases, rfl⟩
    rw [infer_outcome, synthesize]
    simp [hS, hfamily, hM, hmotive, hlen, hcases]

/-- The type of a fixpoint over a match, where the motive is not written as a function. -/
theorem fixType_elim {s m : Term} {cases : List Term} (hm : ∀ x a b, m ≠ .lam x a b) :
    fixType options Γ (.elim s m cases) = (do
      let motiveType ← infer options Γ m
      match ← asSort options Γ.table motiveType with
      | some _ => return m
      | none => return (Term.app m s).betaReduce) := by
  rw [fixType.eq_def]
  dsimp only
  split
  · exact absurd rfl (hm _ _ _)
  · rfl

/-! ## Checking -/

/-- Any accepted term checks against a hole. -/
theorem check_expected_hole (t : Term) :
    check options Γ t .hole = (do
      Verdict.note options.traceChecker (.checking t .hole)
      let _ ← infer options Γ t
      return ()) := by
  rw [check.eq_def]

/-- A hole checks against any universe. -/
theorem check_hole {expected : Term} (h : expected ≠ .hole) :
    check options Γ .hole expected = (do
      Verdict.note options.traceChecker (.checking .hole expected)
      match ← asSort options Γ.table expected with
      | some _ => return ()
      | none => .reject (.typeMismatch expected .hole)) := by
  rw [check.eq_def]
  cases expected with
  | hole => exact absurd rfl h
  | _ => rfl

theorem check_hole_eq_ok_iff {expected : Term} :
    (check options Γ .hole expected).outcome = .ok () ↔
      ∃ u, Γ.table.reduce options.fuel expected = .sort u := by
  by_cases hexpected : expected = .hole
  · subst hexpected
    rw [check_expected_hole, SymbolTable.reduce_of_step?_eq_none (t := .hole) rfl]
    simp [infer_hole]
  · rw [check_hole hexpected, Verdict.outcome_bind, Verdict.outcome_note, Verdict.ok_bind,
      Verdict.outcome_bind, Verdict.outcome_liftM, Verdict.ok_bind]
    simp only [← asSort_value]
    cases (asSort options Γ.table expected).value <;> simp

/-- A function without binder type checks against a product by its body. -/
theorem check_open {x : String} {a b expected : Term} (h : expected ≠ .hole)
    (ha : a.isPlaceholder = true) :
    check options Γ (.lam x a b) expected = (do
      Verdict.note options.traceChecker (.checking (.lam x a b) expected)
      match ← asPi options Γ.table expected with
      | none => .reject (.typeMismatch expected (.pi x a .hole))
      | some (y, domain, codomain) =>
        check options (Γ.extend (openLambda Γ x b y codomain).1 domain)
          (openLambda Γ x b y codomain).2.1 (openLambda Γ x b y codomain).2.2) := by
  rw [check.eq_def]
  cases expected with
  | hole => exact absurd rfl h
  | _ => exact congrArg (bind (Verdict.note _ _)) (funext fun _ => if_pos ha)

/-- Any other term checks if its type is a subtype of the expected one. -/
theorem check_other {t expected : Term} (h : expected ≠ .hole) (ht : t ≠ .hole)
    (hopen : ∀ x a b, t = .lam x a b → a.isPlaceholder = false) :
    check options Γ t expected = (do
      Verdict.note options.traceChecker (.checking t expected)
      compare options Γ expected (← infer options Γ t)) := by
  rw [check.eq_def]
  split
  · exact absurd rfl h
  · exact absurd rfl ht
  · next x a b _ => rw [hopen x a b rfl, if_neg (by simp)]
  · rfl

/-- A term whose type is a subtype of the expected one checks, unless it is a function that leaves
its binder type open. -/
theorem check_of_infer {t expected type : Term}
    (hopen : ∀ x a b, t = .lam x a b → a.isPlaceholder = false)
    (ht : (infer options Γ t).outcome = .ok type)
    (hle : (Γ.table.reduce options.fuel type).le (Γ.table.reduce options.fuel expected) = true) :
    (check options Γ t expected).outcome = .ok () := by
  have hc : (compare options Γ expected type).outcome = .ok () := compare_outcome.2 hle
  rw [check.eq_def, Verdict.outcome_bind, Verdict.outcome_note, Verdict.ok_bind]
  split
  · rw [Verdict.outcome_bind, ht]
    rfl
  · rw [infer_hole] at ht
    cases ht
  · next x a b _ =>
    rw [hopen x a b rfl, if_neg (by simp), Verdict.outcome_bind, ht]
    exact hc
  · rw [Verdict.outcome_bind, ht]
    exact hc

/-- A term checks iff its type is a subtype of the expected one, unless it is a hole or leaves its
binder type open. -/
theorem check_iff_infer {t expected : Term} (ht : t ≠ .hole)
    (hopen : ∀ x a b, t = .lam x a b → a.isPlaceholder = false) :
    (check options Γ t expected).outcome = .ok () ↔
      ∃ type, (infer options Γ t).outcome = .ok type ∧
        (Γ.table.reduce options.fuel type).le (Γ.table.reduce options.fuel expected) = true := by
  constructor
  · intro h
    by_cases hexpected : expected = .hole
    · subst hexpected
      rw [check_expected_hole, Verdict.outcome_bind, Verdict.outcome_note, Verdict.ok_bind,
        Verdict.bind_eq_ok_iff] at h
      obtain ⟨type, htype, _⟩ := h
      refine ⟨type, htype, ?_⟩
      rw [SymbolTable.reduce_of_step?_eq_none (t := .hole) rfl]
      exact Term.le_of_isPlaceholder (.inr rfl)
    · rw [check_other hexpected ht hopen, Verdict.outcome_bind, Verdict.outcome_note,
        Verdict.ok_bind, Verdict.bind_eq_ok_iff] at h
      obtain ⟨type, htype, hle⟩ := h
      exact ⟨type, htype, compare_outcome.1 hle⟩
  · rintro ⟨type, htype, hle⟩
    exact check_of_infer hopen htype hle

/-- A sort checks against the universes that include the next one. -/
theorem check_sort_iff {u v : Universe} :
    (check options Γ (.sort u) (.sort v)).outcome = .ok () ↔ u.succ.le v = true := by
  rw [check_iff_infer Term.noConfusion (fun _ _ _ => Term.noConfusion), infer_sort]
  simp [reduce_sort, Term.le]

/-- A type checks against the universe that is inferred for it. -/
theorem check_sort_of_inferSort {t : Term} {u : Universe}
    (h : (inferSort options Γ t).outcome = .ok u) :
    (check options Γ t (.sort u)).outcome = .ok () := by
  obtain ⟨k, hk, hu⟩ := inferSort_eq_ok_iff.1 h
  refine check_of_infer ?_ hk (by rw [hu, reduce_sort]; simp [Term.le, Universe.le_refl])
  rintro x a b rfl
  -- the type of a function is a product, and no product reduces to a universe
  obtain ⟨_, type, _, _, rfl⟩ := infer_lam_eq_ok_iff.1 hk
  obtain ⟨a', b', hr⟩ := reduce_pi Γ.table options.fuel x a type
  rw [hr] at hu
  cases hu

end ProofKernel
