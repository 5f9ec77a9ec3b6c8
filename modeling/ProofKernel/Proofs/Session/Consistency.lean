import ProofKernel.Proofs.Session.Reachable
import ProofKernel.Proofs.Typing.Shadowing

/-!
# Empty types have terms

An inductive type without constructors should have no term.  The coercion of
`ProofKernel.Proofs.Typing.Shadowing` gives it one, in every session.

* `Session.Reachable.inferSort_global` gives the universe of an inductive type without parameters.
* `Session.Reachable.inhabited` is the term, with a definition of that type that the session
  accepts.
-/

set_option autoImplicit false
namespace ProofKernel

variable {options : Options} {table : SymbolTable} {Γ : Context}

/-! ## Inductive types without parameters -/

namespace SymbolTable.Regular

variable {E : String} {f : Family}

/-- An inductive type without parameters is a type. -/
theorem inferSort_global (h : Γ.table.Regular) (hE : Γ.table.family? E = some f)
    (hp : f.params = 0) : ∃ u, (inferSort options Γ (.global E)).outcome = .ok u := by
  obtain ⟨u, hu⟩ := (h.endsInSort E f hE).arity_eq hp
  refine ⟨u, inferSort_eq_ok_iff.2 ⟨.sort u, infer_global ?_, reduce_sort _ u⟩⟩
  rw [SymbolTable.type?, hE, Option.map_some, Option.some_or, hu]

/-- An inductive type does not reduce, so that it is a subtype of itself. -/
theorem isSubtype_global (h : table.Regular) (hE : table.family? E = some f) :
    (isSubtype options table (.global E) (.global E)).value = true := by
  have hnormal : table.step? (.global E) = none := by
    rw [SymbolTable.step?, h.family_or_definition E (by rw [hE]; rfl), Option.map_none]
  rw [isSubtype_value, SymbolTable.reduce_of_step?_eq_none hnormal]
  simp [Term.le, Term.agrees]

end SymbolTable.Regular

/-! ## Definitions that are accepted -/

theorem SymbolTable.defined_fork (table : SymbolTable) (name : String) :
    table.fork.defined name = table.defined name := rfl

/-- A definition whose body has the type that is given is accepted and registered. -/
theorem Declaration.publish_definition {d : String} {type body : Term} {u : Universe}
    (hd : Γ.table.defined d = false) (hsort : (inferSort options Γ type).outcome = .ok u)
    (hcheck : (check options Γ body type).outcome = .ok ()) :
    ∃ table, (Declaration.publish options Γ (.definition d (some type) body)).outcome = .ok table ∧
      table.definition? d = some ⟨type, body⟩ := by
  have htype : (definitionType options Γ body (some type)).outcome = .ok type := by
    simp [definitionType, hsort, hcheck]
  obtain ⟨staged, hadd⟩ : ∃ staged, Γ.table.fork.addDefinition d type body = .ok staged :=
    ⟨_, SymbolTable.register_eq_ok_iff.2 ⟨by rw [SymbolTable.defined_fork, hd], rfl⟩⟩
  have hown : staged.own.order = [d] ∧ staged.own.definitions = [(d, ⟨type, body⟩)] := by
    obtain ⟨_, rfl⟩ := SymbolTable.register_eq_ok_iff.1 hadd
    exact ⟨rfl, rfl⟩
  have hstage : (Declaration.stage options Γ (.definition d (some type) body)).outcome =
      .ok staged := by
    rw [Declaration.stage, Verdict.bind_eq_ok_iff]
    exact ⟨(staged, type), stageDefinition_eq_ok_iff.2 ⟨hd, htype, hadd⟩, rfl⟩
  refine ⟨⟨Γ.table.own.merge staged.own, Γ.table.below⟩, ?_, ?_⟩
  · rw [Declaration.publish, Verdict.bind_eq_ok_iff]
    refine ⟨staged, hstage, SymbolTable.publish_eq_ok_iff.2 ⟨fun name hname => ?_, rfl⟩⟩
    rw [hown.1, List.mem_singleton] at hname
    rw [hname, hd]
  · rw [SymbolTable.definition?_eq, Layer.merge, hown.2]
    simp [NameMap.merge]

/-! ## Every session -/

/-- **Every inductive type without parameters has a term**, in every session and whether it has
constructors or not: a type is inferred that is a subtype of it, and a definition of that type is
accepted under every name that is not taken. -/
theorem Session.Reachable.inhabited {withPrelude : Bool} {allowed : Statement → Prop} {s : Session}
    {E : String} {f : Family} (h : Reachable options withPrelude allowed s)
    (hE : s.table.family? E = some f) (hp : f.params = 0) :
    ∃ t : Term, t.Complete ∧
      (∃ T, (infer options (.ofTable s.table) t).outcome = .ok T ∧
        (isSubtype options s.table T (.global E)).value = true) ∧
      ∀ d, s.table.defined d = false →
        (s.run (.declare (.definition d (some (.global E)) t))).2.value = .ok "" ∧
          (s.run (.declare (.definition d (some (.global E)) t))).1.table.definition? d =
            some ⟨.global E, t⟩ := by
  have hreg := h.regular
  obtain ⟨v, hv⟩ : ∃ v, (inferSort options (.ofTable s.table) (.global E)).outcome = .ok v :=
    hreg.inferSort_global hE hp
  have hsub : (isSubtype options s.table (.global E) (.global E)).value = true :=
    hreg.isSubtype_global hE
  -- the universe of propositions is a value of the lowest universe
  have hprop :
      (check options (.ofTable s.table) (.sort .prop) (.sort (.type 0))).outcome = .ok () :=
    check_of_infer nofun (infer_sort .prop) (by simp [reduce_sort, Term.le, Universe.succ,
      Universe.le_refl])
  have ht : (infer options (.ofTable s.table)
      (.coerce (.type 1) (.sort (.type 0)) (.sort .prop) v (.global E))).outcome =
        .ok (.global E) :=
    infer_coerce (inferSort_sort (.type 0)) hprop hv
  refine ⟨_, Term.complete_coerce (by decide) (by decide) ⟨rfl, rfl⟩ _ _, ⟨_, ht, hsub⟩, ?_⟩
  intro d hd
  rw [isSubtype_value] at hsub
  obtain ⟨table, hpub, hdef⟩ := Declaration.publish_definition (Γ := .ofTable s.table) hd hv
    (check_of_infer (by rintro x a b ⟨⟩) ht hsub)
  have hrun : (Statement.run s.options s.table (.declare (.definition d (some (.global E))
      (.coerce (.type 1) (.sort (.type 0)) (.sort .prop) v (.global E))))).outcome =
        .ok (table, "") := by
    rw [h.options_eq, Statement.run, Verdict.bind_eq_ok_iff]
    exact ⟨table, hpub, rfl⟩
  unfold Session.run
  simp only [hrun]
  exact ⟨trivial, hdef⟩

/-- Falsity has a term when a session starts. -/
theorem Session.inhabited_false :
    ∃ s : Session, Reachable ⟨100, false, false, false⟩ true (fun c => c.isPostulate = false) s ∧
      s.table.family? "False" = some ⟨.sort .prop, 0, []⟩ ∧ ∃ t : Term, t.Complete ∧
        (s.run (.declare (.definition "d" (some (.global "False")) t))).2.value = .ok "" := by
  obtain ⟨table, htable, hfamily, hd⟩ :=
    Verdict.exists_ok_of_any (v := initialTable ⟨100, false, false, false⟩ true)
      (P := fun table => table.family? "False" = some ⟨.sort .prop, 0, []⟩ ∧
        table.defined "d" = false) (by decide +kernel)
  have hs : Reachable ⟨100, false, false, false⟩ true (fun c => c.isPostulate = false)
      ⟨⟨100, false, false, false⟩, true, table⟩ :=
    @Reachable.start _ _ _ false _ (by simp [Session.start, htable])
  obtain ⟨t, ht, _, hdeclare⟩ := Session.Reachable.inhabited hs hfamily rfl
  exact ⟨_, hs, hfamily, t, ht, (hdeclare "d" hd).1⟩

end ProofKernel
