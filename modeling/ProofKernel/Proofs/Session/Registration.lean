import ProofKernel.Proofs.Session.Effect
import ProofKernel.Proofs.Session.Scoping

/-!
# What stays registered

Whatever a session executes, what it has registered stays as it is.  So a declaration that was
accepted once can be relied on, whatever came before it and comes after it.

* `SymbolTable.Registers` says that a table knows the names of a declaration as it declares them.
* `Session.extends_executeAll`: what is registered stays, whether commands are accepted or not.
* `Session.Accepts` is a command that is accepted among others, and `Session.Accepts.registers` says
  that what it declares is registered in the end.
-/

set_option autoImplicit false
namespace ProofKernel

variable {options : Options} {table table' : SymbolTable} {d : Declaration}

/-! ## Registered declarations -/

/-- A table knows the names of a declaration as the declaration registers them. -/
structure SymbolTable.Registers (table : SymbolTable) (d : Declaration) : Prop where
  known : ∀ name ∈ d.provides, table.defined name = true
  alike : ∃ T, ∀ name ∈ d.provides, table.registration name = (d.layer T).registration name

theorem SymbolTable.Registers.mono (h : table.Registers d) (hext : table.Extends table') :
    table'.Registers d where
  known := fun name hname => hext.defined (h.known name hname)
  alike := by
    obtain ⟨T, hT⟩ := h.alike
    exact ⟨T, fun name hname => (hext name (h.known name hname)).trans (hT name hname)⟩

theorem Declaration.registers_publish
    (h : (d.publish options (.ofTable table)).outcome = .ok table') : table'.Registers d where
  known := (adds_publish h).known
  alike := by
    obtain ⟨T, _, _, _, _, hreg⟩ := publish_eq_ok h
    exact ⟨T, fun name hname => by rw [hreg, if_pos hname]⟩

/-- What an accepted statement does leaves what is known. -/
theorem Statement.Effect.extends {s : Statement} (h : s.Effect table table') :
    table.Extends table' := by
  intro name hname
  cases s with
  | declare d =>
    refine h.kept name fun hmem => ?_
    rw [h.new name hmem] at hname
    cases hname
  | hint => exact h.2.1 name
  | check | eval => rw [h]

/-! ## Sessions -/

namespace Session

theorem extends_execute (s : Session) (input : Text) :
    s.table.Extends (s.execute input).1.table := by
  obtain ⟨hrejected, haccepted⟩ := execute_effect s input
  cases hvalue : (s.execute input).2.value with
  | error e =>
    rw [hrejected e hvalue]
    exact .refl _
  | ok output =>
    obtain ⟨command, table, _, hsession, heffect⟩ := haccepted output hvalue
    rw [hsession]
    exact heffect.extends

/-- **What a session has registered stays registered.** -/
theorem extends_executeAll (s : Session) (inputs : List Text) :
    s.table.Extends (s.executeAll inputs).table := by
  induction inputs generalizing s with
  | nil => exact .refl _
  | cons input rest ih => exact (extends_execute s input).trans (ih _)

/-- A command that is read is run. -/
theorem execute_eq_run {input : Text} {statement : Statement}
    (h : (parseCommand input).toOption.map (·.statement) = some statement) (s : Session) :
    s.execute input = s.run statement := by
  rw [execute]
  cases hcommand : parseCommand input with
  | error e =>
    rw [hcommand] at h
    cases h
  | ok command =>
    rw [hcommand] at h
    cases h
    rfl

/-- A declaration that a session accepts is published. -/
theorem run_declare_eq_ok {s : Session} (h : (s.run (.declare d)).2.value.isOk = true) :
    ∃ table, (s.run (.declare d)).1 = { s with table := table } ∧
      (d.publish s.options (.ofTable s.table)).outcome = .ok table := by
  obtain ⟨output, hvalue⟩ : ∃ output, (s.run (.declare d)).2.value = .ok output := by
    cases hvalue : (s.run (.declare d)).2.value with
    | error e => simp [hvalue, Except.isOk, Except.toBool] at h
    | ok output => exact ⟨output, rfl⟩
  obtain ⟨table, hsession, hrun⟩ := run_eq_ok hvalue
  refine ⟨table, hsession, ?_⟩
  rcases Statement.run_eq_ok hrun with ⟨d', hstatement, hpub, _⟩ | ⟨_, hstatement, _⟩ |
    ⟨_, ⟨_, hstatement⟩ | ⟨_, hstatement⟩⟩
  · cases hstatement
    exact hpub
  all_goals cases hstatement

/-- Among the commands that a session executes, there is this one, and it is accepted in its
turn. -/
def Accepts (s : Session) (inputs : List Text) (input : Text) : Prop :=
  ∃ before after, inputs = before ++ input :: after ∧
    ((s.executeAll before).execute input).2.value.isOk = true

/-- **What an accepted command declares is registered in the end.** -/
theorem Accepts.registers {s : Session} {inputs : List Text} {input : Text}
    (h : s.Accepts inputs input)
    (hparse : (parseCommand input).toOption.map (·.statement) = some (.declare d)) :
    (s.executeAll inputs).table.Registers d := by
  obtain ⟨before, after, rfl, hok⟩ := h
  have happend : s.executeAll (before ++ input :: after) =
      ((s.executeAll before).execute input).1.executeAll after := by
    rw [executeAll, List.foldl_append]
    rfl
  rw [happend]
  refine SymbolTable.Registers.mono ?_ (extends_executeAll _ after)
  rw [execute_eq_run hparse] at hok ⊢
  obtain ⟨table, hsession, hpub⟩ := run_declare_eq_ok hok
  rw [hsession]
  exact Declaration.registers_publish hpub

end Session
end ProofKernel
