import ProofKernel.Proofs.Session.Closed
import ProofKernel.Proofs.Typing.Shadowing

/-!
# Typing up to the names of bound variables

Whether the type of a term depends on the names of its bound variables.

* `infer_keep` types the function of `Term.coerce` with three names instead of two.  The two terms
  are equal up to the names of bound variables, and their types are any two types.
* `exists_renaming_of_type?` shows what a registered type does that is not closed.
* `Session.Reachable.infersUpToNames` puts these together with the agreement on hygienic terms.
-/

set_option autoImplicit false
namespace ProofKernel

variable {options : Options} {table : SymbolTable}

/-- Two terms are both rejected, or have types that are equal up to the names of bound variables. -/
def InfersUpToNames (options : Options) (table : SymbolTable) (t t' : Term) : Prop :=
  Verdict.Matches (fun T T' => T.nameless = T'.nameless) (infer options (.ofTable table) t)
    (infer options (.ofTable table) t')

/-! ## A name that is used twice -/

namespace Term

/-- The value `a` of a type `s` of universe `u`, and a type `t` of universe `v` that is not used. -/
def keep (u : Universe) (s a : Term) (v : Universe) (t : Term) : Term :=
  app (app (app (second "B" u v) s) a) t

theorem nameless_coerce (u : Universe) (s a : Term) (v : Universe) (t : Term) :
    (coerce u s a v t).nameless = (keep u s a v t).nameless := by
  simp [nameless, coerce, keep, second, interpret, Naming.under]

end Term

/-- **With three names, a value keeps its type.** -/
theorem infer_keep {s a t : Term} {u v : Universe}
    (hs : (inferSort options (.ofTable table) s).outcome = .ok u)
    (ha : (check options (.ofTable table) a s).outcome = .ok ())
    (ht : (inferSort options (.ofTable table) t).outcome = .ok v) :
    (infer options (.ofTable table) (.keep u s a v t)).outcome = .ok s := by
  have hclosed := closed_of_inferSort hs
  have h₁ : (infer options (.ofTable table) (.app (.second "B" u v) s)).outcome =
      .ok (.pi "x" s (.pi "B" (.sort v) s)) := by
    rw [infer_app (infer_second (by decide) u v) (check_sort_of_inferSort hs)]
    simp [Term.substitute_pi, Term.substitute_var, Term.substituteBody, Term.occurs, hclosed]
  have h₂ : (infer options (.ofTable table) (.app (.app (.second "B" u v) s) a)).outcome =
      .ok (.pi "B" (.sort v) s) := by
    rw [infer_app h₁ ha, Term.substitute_of_closed (by simp [Term.freeVars, hclosed])]
  rw [Term.keep, infer_app h₂ (check_sort_of_inferSort ht), Term.substitute_of_closed hclosed]

/-! ## A type that is not closed -/

/-- The type of a constant function is a product over the same name. -/
theorem infer_const {x name : String} {A : Term} (hA : table.type? name = some A) :
    (infer options (.ofTable table) (.lam x (.sort .prop) (.global name))).outcome =
      .ok (.pi x (.sort .prop) A) :=
  infer_lam (inferSort_sort .prop) (infer_global hA)

/-- **A binder captures what is free in a registered type**, so that its name matters. -/
theorem exists_renaming_of_type? {name x : String} {A : Term} (hA : table.type? name = some A)
    (hx : x ∈ A.freeVars) (hne : x ≠ Term.placeholder) :
    ∃ t t' : Term, t.Complete ∧ t'.Complete ∧ t.hygienic [Term.placeholder] = true ∧
      t'.hygienic [Term.placeholder] = true ∧ t.nameless = t'.nameless ∧
      ¬ InfersUpToNames options table t t' := by
  have hfresh := fresh_not_mem "x" (Term.placeholder :: A.freeVars)
  generalize fresh "x" (Term.placeholder :: A.freeVars) = y at hfresh
  rw [List.mem_cons, not_or] at hfresh
  refine ⟨.lam x (.sort .prop) (.global name), .lam y (.sort .prop) (.global name), ⟨rfl, rfl⟩,
    ⟨rfl, rfl⟩, ?_, ?_, rfl, fun h => ?_⟩
  · exact Term.hygienic_lam.2 ⟨rfl, by simpa using hne, rfl⟩
  · exact Term.hygienic_lam.2 ⟨rfl, by simpa using hfresh.1, rfl⟩
  -- the name is bound in the one type and free in the other
  unfold InfersUpToNames Verdict.Matches at h
  rw [infer_const hA, infer_const hA] at h
  have hfree : x ∈ (Term.pi y (.sort .prop) A).freeVars :=
    List.mem_append_right _ (Term.mem_filter_ne.2 ⟨hx, by rintro rfl; exact hfresh.2 hx⟩)
  have hbound : x ∉ (Term.pi x (.sort .prop) A).freeVars := by
    simp [Term.freeVars]
  exact hbound (Term.mem_frees_nameless.1 (h ▸ Term.mem_frees_nameless.2 hfree))

/-! ## Every session -/

/-- **Where the registered types are closed, typing respects the names of bound variables in
hygienic terms.**  Both conditions are needed: a registered type with a free name breaks this for
hygienic terms, and a name that is bound twice does for any two types, one of which has a value. -/
theorem Session.Reachable.infersUpToNames {withPrelude : Bool} {allowed : Statement → Prop}
    {s : Session} (h : Reachable options withPrelude allowed s) :
    ((∀ name A, s.table.type? name = some A → A.freeVars = []) →
      ∀ t t' : Term, t.hygienic [Term.placeholder] = true →
        t'.hygienic [Term.placeholder] = true → t.nameless = t'.nameless →
        InfersUpToNames s.options s.table t t') ∧
    (∀ name A x, s.table.type? name = some A → x ∈ A.freeVars → x ≠ Term.placeholder →
      ∃ t t' : Term, t.Complete ∧ t'.Complete ∧ t.hygienic [Term.placeholder] = true ∧
        t'.hygienic [Term.placeholder] = true ∧ t.nameless = t'.nameless ∧
        ¬ InfersUpToNames s.options s.table t t') ∧
    ∀ (S a T : Term) (u v : Universe), S.Complete → a.Complete → T.Complete →
      (inferSort s.options (.ofTable s.table) S).outcome = .ok u →
      (check s.options (.ofTable s.table) a S).outcome = .ok () →
      (inferSort s.options (.ofTable s.table) T).outcome = .ok v →
      ∃ t t' : Term, t.Complete ∧ t'.Complete ∧ t.nameless = t'.nameless ∧
        (infer s.options (.ofTable s.table) t).outcome = .ok T ∧
        (infer s.options (.ofTable s.table) t').outcome = .ok S := by
  refine ⟨fun htype t t' ht ht' hsame => ?_, fun name A x => exists_renaming_of_type?, ?_⟩
  · exact (infer_matches_of_nameless_eq (h.closed htype) ht ht' hsame).mono fun _ _ hT => hT.1
  · intro S a T u v hS ha hT hsort hcheck htype
    exact ⟨.coerce u S a v T, .keep u S a v T, Term.complete_coerce hS ha hT u v,
      Term.complete_second (by decide) hS ha hT u v, Term.nameless_coerce u S a v T,
      infer_coerce hsort hcheck htype, infer_keep hsort hcheck htype⟩

/-- The first part of a proof of a conjunction, under names of choice. -/
def Term.firstOfBoth (A B h a b : String) : Term :=
  lam A (sort .prop) (lam B (sort .prop) (lam h ((global "And").apps [var A, var B])
    (elim (var h) (var A) [lam a (var A) (lam b (var B) (var a))])))

/-- When a session starts, the names in a match do not matter, but those around a coercion do. -/
theorem Session.infersUpToNames_start :
    ∃ s : Session, Reachable ⟨100, false, false, false⟩ true (fun _ => False) s ∧
      (∀ name A, s.table.type? name = some A → A.freeVars = []) ∧
      (infer s.options (.ofTable s.table) (.firstOfBoth "A" "B" "h" "a" "b")).outcome =
        .ok (.pi "A" (.sort .prop) (.pi "B" (.sort .prop)
          (.pi "h" ((Term.global "And").apps [.var "A", .var "B"]) (.var "A")))) ∧
      InfersUpToNames s.options s.table (.firstOfBoth "A" "B" "h" "a" "b")
        (.firstOfBoth "P" "Q" "k" "p" "q") ∧
      ∃ t t' : Term, t.Complete ∧ t'.Complete ∧ t.nameless = t'.nameless ∧
        (infer s.options (.ofTable s.table) t).outcome = .ok (.global "False") ∧
        (infer s.options (.ofTable s.table) t').outcome = .ok (.global "True") := by
  obtain ⟨table, htable, hfirst, htrue, hvalue, hfalse⟩ :=
    Verdict.exists_ok_of_any (v := initialTable ⟨100, false, false, false⟩ true)
      (P := fun table =>
        (infer ⟨100, false, false, false⟩ (.ofTable table)
          (.firstOfBoth "A" "B" "h" "a" "b")).outcome =
            .ok (.pi "A" (.sort .prop) (.pi "B" (.sort .prop)
              (.pi "h" ((Term.global "And").apps [.var "A", .var "B"]) (.var "A")))) ∧
        (inferSort ⟨100, false, false, false⟩ (.ofTable table) (.global "True")).outcome =
          .ok .prop ∧
        (check ⟨100, false, false, false⟩ (.ofTable table) (.global "I")
          (.global "True")).outcome = .ok () ∧
        (inferSort ⟨100, false, false, false⟩ (.ofTable table) (.global "False")).outcome =
          .ok .prop) (by decide +kernel)
  have hs : Reachable ⟨100, false, false, false⟩ true (fun _ => False)
      ⟨⟨100, false, false, false⟩, true, table⟩ :=
    @Reachable.start _ _ _ false _ (by simp [Session.start, htable])
  have hclosed : ∀ name A, table.type? name = some A → A.freeVars = [] :=
    fun _ _ => hs.type_closed nofun
  obtain ⟨hrespects, _, hbreaks⟩ := Session.Reachable.infersUpToNames hs
  refine ⟨_, hs, hclosed, hfirst, ?_, ?_⟩
  · exact hrespects hclosed _ _ (by decide) (by decide) rfl
  · exact hbreaks (.global "True") (.global "I") (.global "False") .prop .prop (by decide)
      (by decide) (by decide) htrue hvalue hfalse

end ProofKernel
