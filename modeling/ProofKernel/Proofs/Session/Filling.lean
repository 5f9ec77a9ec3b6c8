import ProofKernel.Proofs.Session.Grounded
import ProofKernel.Proofs.Typing.Filling

/-!
# Holes in a session

A hole should stand for some type, so that a term with holes proves no more than its fillings do.
In a session with the prelude this is so for holes that no type depends on, and fails as soon as a
hole gets into a type.

* `Session.Reachable.registration_eq`: what the prelude registers stays registered.
* `Session.Reachable.fillings` says both of every session.
-/

set_option autoImplicit false
namespace ProofKernel
namespace Session

variable {options : Options} {allowed : Statement → Prop} {s : Session}

/-! ## What the prelude registers -/

/-- **What the prelude registers for a name stays registered.** -/
theorem Reachable.registration_eq {name : String} {r : Registration}
    (h : Reachable options true allowed s) (hr : r ≠ .none)
    (hname : name ∈ Prelude.declarations.flatMap (·.provides))
    (hprelude : ∀ d ∈ Prelude.declarations, name ∈ d.provides →
      ∀ T, (d.layer T).registration name = r) : s.table.registration name = r := by
  refine h.table (I := fun table => table.registration name = r) ?_ ?_
  · intro table htable
    -- along the prelude the name is unknown at first
    have hinv : SymbolTable.Invariant options
        (fun d => name ∈ d.provides → ∀ T, (d.layer T).registration name = r)
        (fun table => table.registration name = .none ∨ table.registration name = r) := by
      refine ⟨.inl rfl, fun d table table' hd hi hpub => ?_, fun _ table table' hi hhint => ?_⟩
      · obtain ⟨T, _, _, _, _, hreg⟩ := Declaration.publish_eq_ok hpub
        rw [hreg]
        split
        · next hmem => exact .inr (hd hmem T)
        · exact hi
      · rw [SymbolTable.alike_addHint hhint]
        exact hi
    refine (hinv.initialTable hprelude htable).resolve_left fun hnone => ?_
    have hdefined := ((initialTable_grounded htable).1.listed name).1
      (names_initialTable htable ▸ hname)
    rw [SymbolTable.defined_eq_false_iff.2 hnone] at hdefined
    cases hdefined
  · intro statement table table' output _ hi hrun
    rcases Statement.run_eq_ok hrun with ⟨d, rfl, hpub, _⟩ | ⟨_, rfl, hhint, _⟩ | ⟨rfl, _⟩
    · obtain ⟨T, _, hstage, _, _, hreg⟩ := Declaration.publish_eq_ok hpub
      rw [hreg]
      split
      · next hmem =>
        have hnew := (Declaration.stage_eq_ok hstage).2.2 name hmem
        exact absurd (hi.symm.trans (SymbolTable.defined_eq_false_iff.1 hnew)) hr
      · exact hi
    · rw [SymbolTable.alike_addHint hhint]
      exact hi
    · exact hi

/-- Truth is a proposition, in every session with the prelude. -/
theorem Reachable.registration_true (h : Reachable options true allowed s) :
    s.table.registration "True" = ⟨some ⟨.sort .prop, 0, ["I"]⟩, none, none, none⟩ := by
  refine h.registration_eq nofun (by decide) fun d hd hmem T => ?_
  have honly : ∀ d ∈ Prelude.declarations, "True" ∈ d.provides →
      d = .family "True" [] (some (.sort .prop)) [("I", .global "True")] := by decide
  rw [honly d hd hmem]
  rfl

/-! ## Terms with holes -/

/-- **What terms with holes prove, in every session with the prelude.**  A term that leaves out only
arguments on which no type depends is accepted only where some filling is.  But a value that is
passed through a hole is accepted at every type, and has a filling there only if it has the type
itself. -/
theorem Reachable.fillings (h : Reachable options true allowed s) :
    (∀ t type : Term, t.Idle options (.ofTable s.table) →
      (check options (.ofTable s.table) t type).outcome = .ok () →
      Fillable options s.table t type) ∧
    ∀ (a A type : Term) (u : Universe), a.Over Leaf.Given →
      (infer options (.ofTable s.table) a).outcome = .ok A →
      type.Over s.table.Settled → (inferSort options (.ofTable s.table) type).outcome = .ok u →
      (isSubtype options s.table type type).value = true →
      (check options (.ofTable s.table) (.through u .hole a) type).outcome = .ok () ∧
        (Fillable options s.table (.through u .hole a) type ↔
          (check options (.ofTable s.table) a type).outcome = .ok ()) := by
  have htrue := h.registration_true
  constructor
  · intro t type hidle hcheck
    have htype : s.table.type? "True" = some (.sort .prop) := by
      rw [← SymbolTable.type?_registration, htrue]
      rfl
    have hsettled : s.table.Settled (.global "True") :=
      SymbolTable.settled_of_definition?_eq_none (by decide)
        (congrArg Registration.definition htrue)
    exact ⟨_, Term.fills_fill (Term.over_global.2 hsettled) t,
      (keptByFilling "True" t).check htype hidle hcheck⟩
  · intro a A type u ha hA htype hsort hself
    exact ⟨check_through_hole hA, fillable_through_iff ha htype hsort hself⟩

/-- When a session starts, the proof of truth passed through a hole is accepted as one of falsity,
and no filling is; a hole that is given to a constant function can be filled. -/
theorem fillings_start :
    let options : Options := ⟨100, false, false, false⟩
    let constant : Term := .app (.lam "A" (.sort .prop) (.global "I")) .hole
    ∃ s : Session, Reachable options true (fun _ => True) s ∧
      (check options (.ofTable s.table) (.through .prop .hole (.global "I"))
        (.global "False")).outcome = .ok () ∧
      ¬ Fillable options s.table (.through .prop .hole (.global "I")) (.global "False") ∧
      Fillable options s.table constant (.global "True") := by
  intro options constant
  obtain ⟨table, htable, hI, hdefinition, hsort, hself, hnot, hfn, hconstant⟩ :=
    Verdict.exists_ok_of_any (v := initialTable options true)
      (P := fun table =>
        (infer options (.ofTable table) (.global "I")).outcome = .ok (.global "True") ∧
        table.definition? "False" = none ∧
        (inferSort options (.ofTable table) (.global "False")).outcome = .ok .prop ∧
        (isSubtype options table (.global "False") (.global "False")).value = true ∧
        (check options (.ofTable table) (.global "I") (.global "False")).outcome ≠ .ok () ∧
        (infer options (.ofTable table) (.lam "A" (.sort .prop) (.global "I"))).outcome =
          .ok (.pi "A" (.sort .prop) (.global "True")) ∧
        (check options (.ofTable table) constant (.global "True")).outcome = .ok ())
      (by decide +kernel)
  have hs : Reachable options true (fun _ => True) ⟨options, true, table⟩ :=
    @Reachable.start _ _ _ false _ (by simp [Session.start, htable])
  have hidle : constant.Idle options (.ofTable table) := by
    have hI : "I" ≠ Term.placeholder := by decide
    refine ⟨⟨Term.over_sort _, hI⟩, trivial, .inr fun F x domain codomain hF hpi => ?_⟩
    cases hfn.symm.trans hF
    cases (asPi_pi _ _ _).symm.trans hpi
    exact nofun
  obtain ⟨hidly, hthrough⟩ := Reachable.fillings hs
  obtain ⟨hcheck, hiff⟩ := hthrough (.global "I") (.global "True") (.global "False") .prop
    (by simp [Leaf.Given]; decide) hI
    (Term.over_global.2 (SymbolTable.settled_of_definition?_eq_none (by decide) hdefinition))
    hsort hself
  exact ⟨_, hs, hcheck, fun hfill => hnot (hiff.1 hfill), hidly _ _ hidle hconstant⟩

end Session
end ProofKernel
