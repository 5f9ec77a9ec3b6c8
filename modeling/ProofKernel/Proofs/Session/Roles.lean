import ProofKernel.Proofs.Forest.Layers
import ProofKernel.Proofs.Session.Reachable

/-!
# Every name has one role

A registered name is an inductive type, a constructor, a definition or a constant without a body,
and never two of them at once.

* `Registration.single_iff` says so of what is known of one name, `SymbolTable.Unambiguous` of the
  names of a table.
* `Session.Reachable.unambiguous`: every table a session can have is unambiguous.
-/

set_option autoImplicit false
namespace ProofKernel

/-- What is there excludes what comes after it. -/
theorem Registration.single_iff {r : Registration} : r.Single ↔
    (r.family.isSome → r.constructor = .none ∧ r.definition = .none ∧ r.postulate = .none) ∧
    (r.constructor.isSome → r.definition = .none ∧ r.postulate = .none) ∧
    (r.definition.isSome → r.postulate = .none) := by
  obtain ⟨family, constructor, definition, postulate⟩ := r
  cases family <;> cases constructor <;> cases definition <;> cases postulate <;> simp [Single]

/-- No name of a table has two roles. -/
def SymbolTable.Unambiguous (table : SymbolTable) : Prop :=
  ∀ name, (table.registration name).Single

namespace SymbolTable.Unambiguous

variable {table : SymbolTable} {name : String}

/-- An inductive type neither is a definition nor has operations. -/
theorem of_isFamily (h : table.Unambiguous) (hf : table.isFamily name = true) :
    table.definition? name = none ∧ table.postulate? name = none :=
  ((Registration.single_iff.1 (h name)).1 hf).2

theorem of_constructor? (h : table.Unambiguous) {c : Constructor}
    (hc : table.constructor? name = some c) :
    table.definition? name = none ∧ table.postulate? name = none :=
  (Registration.single_iff.1 (h name)).2.1 (Option.isSome_of_eq_some hc)

theorem of_postulate? (h : table.Unambiguous) (hp : (table.postulate? name).isSome) :
    table.definition? name = none := by
  cases hd : table.definition? name with
  | none => rfl
  | some d =>
    have hnone : table.postulate? name = none :=
      (Registration.single_iff.1 (h name)).2.2 (Option.isSome_of_eq_some hd)
    rw [hnone] at hp
    cases hp

end SymbolTable.Unambiguous

/-! ## Declarations -/

/-- A declaration gives each of its names one role. -/
theorem Declaration.single_layer {d : Declaration} (h : d.provides.Nodup) (type : Term)
    (name : String) : ((d.layer type).registration name).Single := by
  rw [Registration.single_iff]
  cases d with
  | definition other given body =>
    exact ⟨nofun, nofun, fun _ => rfl⟩
  | postulate other given =>
    exact ⟨nofun, nofun, nofun⟩
  | family other params sort constructors =>
    refine ⟨fun hf => ⟨?_, rfl, rfl⟩, fun _ => ⟨rfl, rfl⟩, nofun⟩
    -- the name is that of the inductive type, and so not that of a constructor
    have hname : other = name := by
      rw [Layer.registration, layer, familyLayer, get?_singleton] at hf
      split at hf
      · assumption
      · cases hf
    subst hname
    have hfresh : other ∉ constructors.map Prod.fst := (List.nodup_cons.1 h).1
    refine NameMap.get?_eq_none_iff.2 ?_
    rw [layer, familyLayer, names_map, map_fst_polymorphicConstructors]
    exact hfresh

theorem SymbolTable.Unambiguous.declare {options : Options} {table table' : SymbolTable}
    {d : Declaration} (h : table.Unambiguous)
    (hpub : (d.publish options (.ofTable table)).outcome = .ok table') : table'.Unambiguous := by
  obtain ⟨T, _, hstage, _, _, hregistration⟩ := Declaration.publish_eq_ok hpub
  obtain ⟨_, hnodup, _⟩ := Declaration.stage_eq_ok hstage
  intro name
  rw [hregistration name]
  split
  · exact Declaration.single_layer hnodup T name
  · exact h name

/-! ## Sessions -/

/-- **In every session each name has one role.** -/
theorem Session.Reachable.unambiguous {options : Options} {withPrelude : Bool}
    {allowed : Statement → Prop} {s : Session} (h : Reachable options withPrelude allowed s) :
    s.table.Unambiguous := by
  have hunambiguous : SymbolTable.Invariant options (fun _ => True) SymbolTable.Unambiguous :=
    ⟨fun _ => Registration.Single.none, fun d table table' _ hu hpub => hu.declare hpub,
      fun name table table' hu hhint other => SymbolTable.alike_addHint hhint other ▸ hu other⟩
  exact h.invariant hunambiguous (fun _ _ => trivial) (fun _ _ => trivial)

end ProofKernel
