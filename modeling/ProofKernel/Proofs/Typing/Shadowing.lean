import ProofKernel.Prelude
import ProofKernel.Proofs.Substitution
import ProofKernel.Proofs.Typing.Rules

/-!
# A binder that hides the name its neighbour's type depends on

The type of a local variable is kept as it was written.  Under a later binder of a name that occurs
in it, that name means something else, and so does the type.

* `Term.coerce` takes a value of one type to any other one: `infer_coerce` gives it the second type,
  and `steps?_coerce` takes three steps back to the value itself.
* `Term.selfApply` is a proposition that reduces to itself in seven steps.

From the first, a normal form that is accepted somewhere is reached from every type
(`preserved_iff_check`); from both, every accepted type has a term without a normal form
(`exists_diverging_term`).
-/

set_option autoImplicit false
namespace ProofKernel

variable {options : Options} {Γ : Context} {table : SymbolTable}

/-! ## Coercion -/

namespace Term

/-- A function of three arguments that returns the second.  A third binder of the name `A` hides the
first one, on which the type of the second depends. -/
def second (y : String) (u v : Universe) : Term :=
  lam "A" (sort u) (lam "x" (var "A") (lam y (sort v) (var "x")))

/-- The value `a` of a type `s` of universe `u`, used at the type `t` of universe `v`. -/
def coerce (u : Universe) (s a : Term) (v : Universe) (t : Term) : Term :=
  app (app (app (second "A" u v) s) a) t

theorem complete_second {y : String} {s a t : Term} (hy : y ≠ "x") (hs : s.Complete)
    (ha : a.Complete) (ht : t.Complete) (u v : Universe) :
    (app (app (app (second y u v) s) a) t).Complete :=
  ⟨by simp [second, freeVars, hs.closed, ha.closed, ht.closed, hy.symm],
    by simp [second, holeFree, hs.noHole, ha.noHole, ht.noHole]⟩

theorem complete_coerce {s a t : Term} (hs : s.Complete) (ha : a.Complete) (ht : t.Complete)
    (u v : Universe) : (coerce u s a v t).Complete :=
  complete_second (by decide) hs ha ht u v

end Term

theorem infer_second {y : String} (hy : y ≠ "x") (u v : Universe) :
    (infer options Γ (.second y u v)).outcome =
      .ok (.pi "A" (.sort u) (.pi "x" (.var "A") (.pi y (.sort v) (.var "A")))) := by
  refine infer_lam (inferSort_sort u) (infer_lam (u := u) ?_ (infer_lam (inferSort_sort v) ?_))
  · refine inferSort_eq_ok_iff.2 ⟨.sort u, ?_, reduce_sort _ u⟩
    rw [infer_outcome, synthesize]
    rfl
  · -- the type of `x` is the name `A`, whatever that means under the third binder
    rw [infer_outcome, synthesize, Context.get?, Context.extend, List.lookup_cons,
      beq_eq_false_iff_ne.2 hy.symm]
    rfl

/-- **A value of any type has every type.** -/
theorem infer_coerce {s a t : Term} {u v : Universe}
    (hs : (inferSort options Γ s).outcome = .ok u) (ha : (check options Γ a s).outcome = .ok ())
    (ht : (inferSort options Γ t).outcome = .ok v) :
    (infer options Γ (.coerce u s a v t)).outcome = .ok t := by
  have h₁ : (infer options Γ (.app (.second "A" u v) s)).outcome =
      .ok (.pi "x" s (.pi "A" (.sort v) (.var "A"))) := by
    rw [infer_app (infer_second (by decide) u v) (check_sort_of_inferSort hs)]
    simp [Term.substitute_pi, Term.substitute_var, Term.substituteBody, Term.occurs]
  have h₂ : (infer options Γ (.app (.app (.second "A" u v) s) a)).outcome =
      .ok (.pi "A" (.sort v) (.var "A")) := by
    rw [infer_app h₁ ha]
    simp [Term.substitute_pi, Term.substitute_var, Term.substituteBody, Term.occurs]
  rw [Term.coerce, infer_app h₂ (check_sort_of_inferSort ht), Term.substitute_var, if_pos rfl]

/-- What is applied takes the first step, as long as it is an application headed by a function. -/
theorem step?_app_app {f a b f' : Term} {x : String} {d e : Term}
    (hhead : (Term.app f a).head = .lam x d e) (h : table.step? (.app f a) = some f') :
    table.step? (.app (.app f a) b) = some (.app f' b) := by
  have hg : ∀ name, f ≠ .global name := by
    rintro name rfl
    simp [Term.head] at hhead
  have ha : table.arithmetic? (.app (.app f a) b) = none := by
    unfold SymbolTable.arithmetic?
    split
    · next operation _ _ heq =>
      simp only [Term.app.injEq] at heq
      exact absurd heq.1.1 (hg operation)
    · rfl
  have hd : table.deltaStep? (.app (.app f a) b) = none := by
    rw [SymbolTable.deltaStep?, Term.head, hhead]
  have hlam : ∀ x d e, Term.app f a ≠ .lam x d e := by
    intro x d e heq
    cases heq
  rw [SymbolTable.step?_app hlam, ha, Option.none_or, hd, Option.none_or, h, Option.map_some,
    Option.some_or]

theorem step?_apps {f a f' : Term} {x : String} {d e : Term}
    (hhead : (Term.app f a).head = .lam x d e) (h : table.step? (.app f a) = some f')
    (args : List Term) : table.step? ((Term.app f a).apps args) = some (f'.apps args) := by
  induction args generalizing f a f' with
  | nil => exact h
  | cons b rest ih => exact ih hhead (step?_app_app hhead h)

/-- **A coerced value reduces to the value**, also when it is applied. -/
theorem steps?_coerce {a : Term} (ha : a.freeVars = []) (u : Universe) (s : Term) (v : Universe)
    (t : Term) (args : List Term) :
    table.steps? 3 ((Term.coerce u s a v t).apps args) = some (a.apps args) := by
  have h₁ : table.step? (.app (.second "A" u v) s) =
      some (.lam "x" s (.lam "A" (.sort v) (.var "x"))) := by
    rw [Term.second, SymbolTable.step?_app_lam]
    simp [Term.substitute_lam, Term.substitute_var, Term.substituteBody, Term.occurs]
  have h₂ : table.step? (.app (.lam "x" s (.lam "A" (.sort v) (.var "x"))) a) =
      some (.lam "A" (.sort v) a) := by
    rw [SymbolTable.step?_app_lam]
    simp [Term.substitute_lam, Term.substitute_var, Term.substituteBody, ha]
  have h₃ : table.step? (.app (.lam "A" (.sort v) a) t) = some a := by
    rw [SymbolTable.step?_app_lam, Term.substitute_of_closed ha]
  calc table.steps? 3 ((Term.coerce u s a v t).apps args)
      = table.steps? 2
          ((Term.app (.app (.lam "x" s (.lam "A" (.sort v) (.var "x"))) a) t).apps args) := by
        rw [Term.coerce, SymbolTable.steps?,
          step?_apps rfl (step?_app_app rfl (step?_app_app rfl h₁)), Option.bind_some]
    _ = table.steps? 1 ((Term.app (.lam "A" (.sort v) a) t).apps args) := by
        rw [SymbolTable.steps?, step?_apps rfl (step?_app_app rfl h₂), Option.bind_some]
    _ = some (a.apps args) := by
        rw [SymbolTable.steps?, step?_apps rfl h₃, Option.bind_some]
        rfl

/-! ## Self-application -/

namespace Term

/-- The type of functions from propositions to propositions. -/
def propMap : Term :=
  pi "y" (sort .prop) (sort .prop)

/-- Takes a proposition, used as such a function, to its value at itself. -/
def selfMap : Term :=
  lam "z" (sort .prop)
    (app (coerce (.type 0) (sort .prop) (var "z") (.type 0) propMap) (var "z"))

/-- That function, used as a proposition. -/
def selfProp : Term :=
  coerce (.type 0) propMap selfMap (.type 0) (sort .prop)

/-- The function applied to itself. -/
def selfApply : Term :=
  app selfMap selfProp

end Term

theorem inferSort_propMap : (inferSort options Γ .propMap).outcome = .ok (.type 0) :=
  inferSort_eq_ok_iff.2
    ⟨_, infer_pi (inferSort_sort .prop) (inferSort_sort .prop), reduce_sort _ _⟩

theorem infer_selfMap :
    (infer options Γ .selfMap).outcome = .ok (.pi "z" (.sort .prop) (.sort .prop)) := by
  have hz :
      (infer options (Γ.extend "z" (.sort .prop)) (.var "z")).outcome = .ok (.sort .prop) := by
    rw [infer_outcome, synthesize]
    rfl
  have hcheck : (check options (Γ.extend "z" (.sort .prop)) (.var "z") (.sort .prop)).outcome =
      .ok () :=
    check_of_infer (by simp) hz (by simp [reduce_sort, Term.le, Universe.le])
  exact infer_lam (inferSort_sort .prop)
    (infer_app (infer_coerce (inferSort_sort .prop) hcheck inferSort_propMap) hcheck)

theorem check_selfMap : (check options Γ .selfMap .propMap).outcome = .ok () := by
  refine check_of_infer ?_ infer_selfMap ?_
  · rintro x a b ⟨⟩
    rfl
  · have hnormal : ∀ x, Γ.table.step? (.pi x (.sort .prop) (.sort .prop)) = none := fun _ => rfl
    rw [SymbolTable.reduce_of_step?_eq_none (hnormal "z"), Term.propMap,
      SymbolTable.reduce_of_step?_eq_none (hnormal "y")]
    simp [Term.le, Term.align, Term.occurs, Term.rename, Universe.le]

/-- The function applied to itself is a proposition. -/
theorem infer_selfApply : (infer options Γ .selfApply).outcome = .ok (.sort .prop) := by
  have hself : (infer options Γ .selfProp).outcome = .ok (.sort .prop) :=
    infer_coerce inferSort_propMap check_selfMap (inferSort_sort .prop)
  exact infer_app infer_selfMap
    (check_of_infer (by rintro x a b ⟨⟩) hself (by simp [reduce_sort, Term.le, Universe.le]))

/-- **The function applied to itself reduces to itself.** -/
theorem steps?_selfApply : table.steps? 7 .selfApply = some .selfApply := by
  have hclosed : Term.selfProp.freeVars = [] := by decide
  have hbeta : table.steps? 1 .selfApply =
      some ((Term.coerce (.type 0) (.sort .prop) .selfProp (.type 0) .propMap).apps
        [.selfProp]) := by
    have hsecond : (Term.second "A" (.type 0) (.type 0)).freeVars = [] := by decide
    have hmap : Term.propMap.freeVars = [] := by decide
    rw [Term.selfApply, Term.selfMap, SymbolTable.steps?, SymbolTable.step?_app_lam,
      Option.bind_some, Term.substitute_app, Term.coerce, Term.substitute_app, Term.substitute_app,
      Term.substitute_app, Term.substitute_var, if_pos rfl, Term.substitute_sort,
      Term.substitute_of_closed hsecond, Term.substitute_of_closed hmap]
    rfl
  rw [show (7 : Nat) = 1 + (3 + 3) from rfl, SymbolTable.steps?_add, hbeta, Option.bind_some,
    SymbolTable.steps?_add, steps?_coerce hclosed, Option.bind_some]
  exact steps?_coerce (by decide) _ _ _ _ [.selfProp]

/-! ## What an accepted type does not promise -/

/-- **Preservation holds at a type and a normal form only if the normal form checks at the type by
itself.**  Whatever normal form is accepted at some type, and whatever the other type is, there is a
term of the other type that reduces to it, so nothing is known of the normal form from the type of
the term it comes from. -/
theorem preserved_iff_check {n s t : Term} {u v : Universe} (hfuel : 3 < options.fuel)
    (hn : n.Complete) (hs : s.Complete) (ht : t.Complete)
    (hsort : (inferSort options (.ofTable table) s).outcome = .ok u)
    (hcheck : (check options (.ofTable table) n s).outcome = .ok ())
    (hnormal : table.step? n = none)
    (htype : (inferSort options (.ofTable table) t).outcome = .ok v) :
    (∀ e : Term, e.Complete → (infer options (.ofTable table) e).outcome = .ok t →
        Normalizes options table e n → (check options (.ofTable table) n t).outcome = .ok ()) ↔
      (check options (.ofTable table) n t).outcome = .ok () := by
  constructor
  · intro h
    exact h (.coerce u s n v t) (Term.complete_coerce hs hn ht u v)
      (infer_coerce hsort hcheck htype) ⟨hnormal, 3, hfuel, steps?_coerce hn.closed u s v t []⟩
  · intro h _ _ _ _
    exact h

/-- A term of falsity reduces to the proof of truth, which is not one of falsity. -/
theorem not_preserved_at_false :
    ∃ table, (initialTable ⟨100, false, false, false⟩ true).outcome = .ok table ∧
      ¬ ∀ e : Term, e.Complete →
        (infer ⟨100, false, false, false⟩ (.ofTable table) e).outcome = .ok (.global "False") →
        Normalizes ⟨100, false, false, false⟩ table e (.global "I") →
        (check ⟨100, false, false, false⟩ (.ofTable table) (.global "I")
          (.global "False")).outcome = .ok () := by
  obtain ⟨table, htable, hsort, hcheck, hnormal, htype, hnot⟩ :=
    Verdict.exists_ok_of_any (v := initialTable ⟨100, false, false, false⟩ true)
      (P := fun table =>
        (inferSort ⟨100, false, false, false⟩ (.ofTable table) (.global "True")).outcome =
          .ok .prop ∧
        (check ⟨100, false, false, false⟩ (.ofTable table) (.global "I")
          (.global "True")).outcome = .ok () ∧
        table.step? (.global "I") = none ∧
        (inferSort ⟨100, false, false, false⟩ (.ofTable table) (.global "False")).outcome =
          .ok .prop ∧
        (check ⟨100, false, false, false⟩ (.ofTable table) (.global "I")
          (.global "False")).outcome ≠ .ok ()) (by decide +kernel)
  refine ⟨table, htable, ?_⟩
  rw [preserved_iff_check (by decide) (by decide) (by decide) (by decide) hsort hcheck hnormal
    htype]
  exact hnot

/-- **Every accepted type has an accepted term that does not normalize**: whatever the fuel,
normalization stops where there is another step. -/
theorem exists_diverging_term {t : Term} {v : Universe} (ht : t.Complete)
    (htype : (inferSort options (.ofTable table) t).outcome = .ok v) :
    ∃ e : Term, e.Complete ∧ (infer options (.ofTable table) e).outcome = .ok t ∧
      ∀ fuel, table.step? (normalize { options with fuel := fuel } table e).value ≠ none := by
  have hcheck : (check options (.ofTable table) .selfApply (.sort .prop)).outcome = .ok () :=
    check_of_infer (by rintro x a b ⟨⟩) infer_selfApply
      (by simp [reduce_sort, Term.le, Universe.le])
  refine ⟨.coerce (.type 0) (.sort .prop) .selfApply v t,
    Term.complete_coerce (by decide) (by decide) ht _ _,
    infer_coerce (inferSort_sort .prop) hcheck htype, fun fuel => ?_⟩
  rw [SymbolTable.value_normalize]
  exact (SymbolTable.Diverges.of_steps? (steps?_coerce rfl _ _ _ _ [])
    (SymbolTable.diverges_of_loop steps?_selfApply)).step?_reduce fuel

/-- Falsity has such a term when a session starts. -/
theorem exists_diverging_term_of_false :
    ∃ table, (initialTable ⟨100, false, false, false⟩ true).outcome = .ok table ∧
      ∃ e : Term, e.Complete ∧
        (infer ⟨100, false, false, false⟩ (.ofTable table) e).outcome = .ok (.global "False") ∧
        ∀ fuel, table.step? (normalize ⟨fuel, false, false, false⟩ table e).value ≠ none := by
  obtain ⟨table, htable, hsort⟩ :=
    Verdict.exists_ok_of_any (v := initialTable ⟨100, false, false, false⟩ true)
      (P := fun table => (inferSort ⟨100, false, false, false⟩ (.ofTable table)
        (.global "False")).outcome = .ok .prop) (by decide +kernel)
  exact ⟨table, htable, exists_diverging_term (by decide) hsort⟩

end ProofKernel
