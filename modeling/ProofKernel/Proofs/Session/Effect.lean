import ProofKernel.Proofs.Batch.Sequence

/-!
# What a command does to a session

A command that is accepted changes the symbol table in one of three ways: a declaration registers
its names, a hint is noted once, and a query changes nothing.  A command that is rejected leaves the
session as it was, wherever the rejection comes from.

* `Declaration.Adds` and `Statement.Effect` say what an accepted declaration and an accepted
  statement do; `Declaration.adds_publish` and `Statement.effect_run` that they do it.
* `Session.execute_effect` speaks of texts, accepted or not.

A constructor can be rejected after its inductive type and the constructors before it were added to
the fork.  Nothing of this is seen by the session, because the fork is published as a whole.
-/

set_option autoImplicit false
namespace ProofKernel

variable {options : Options} {table table' : SymbolTable}

/-! ## Declarations -/

/-- What an accepted declaration does to a table: its names, which are new and distinct, are
appended in order and become known, and nothing else changes. -/
structure Declaration.Adds (d : Declaration) (table table' : SymbolTable) : Prop where
  names : table'.names = table.names ++ d.provides
  nodup : d.provides.Nodup
  new : ∀ name ∈ d.provides, table.defined name = false
  known : ∀ name ∈ d.provides, table'.defined name = true
  kept : ∀ name, name ∉ d.provides → table'.registration name = table.registration name
  hints : table'.hints = table.hints

/-- **A declaration that is published adds its names and nothing else.** -/
theorem Declaration.adds_publish {d : Declaration}
    (h : (d.publish options (.ofTable table)).outcome = .ok table') : d.Adds table table' := by
  obtain ⟨T, _, hstage, hnames, hhints, hreg⟩ := publish_eq_ok h
  obtain ⟨_, hnodup, hnew⟩ := stage_eq_ok hstage
  refine ⟨hnames, hnodup, hnew, fun name hname => ?_, fun name hname => ?_, hhints⟩
  · have hlisted := (tidy_layer hnodup T).listed name
    rw [order_layer] at hlisted
    rw [← Bool.not_eq_false, SymbolTable.defined_eq_false_iff, hreg, if_pos hname, hlisted]
    exact fun hnot => hnot hname
  · rw [hreg, if_neg hname]

/-- A declaration brings at least one name. -/
theorem Declaration.provides_ne_nil (d : Declaration) : d.provides ≠ [] := by
  cases d <;> exact List.cons_ne_nil _ _

/-! ## Statements -/

/-- Nothing that can be asked of a table tells two tables apart: they list the same names and the
same hints, and know the same of every name. -/
structure SymbolTable.Indistinct (table table' : SymbolTable) : Prop where
  names : table'.names = table.names
  alike : table'.Alike table
  hints : table'.hints = table.hints

namespace Statement

/-- What an accepted statement does to a table. -/
def Effect (table table' : SymbolTable) : Statement → Prop
  | .declare d => d.Adds table table'
  | .hint name => table'.names = table.names ∧ table'.Alike table ∧
      table'.hints = if name ∈ table.hints then table.hints else table.hints ++ [name]
  | .check _ | .eval _ => table' = table

/-- **A statement that is accepted has its effect.** -/
theorem effect_run {s : Statement} {output : String}
    (h : (s.run options table).outcome = .ok (table', output)) : s.Effect table table' := by
  have hhints := hints_run h
  rcases run_eq_ok h with ⟨d, rfl, hpub, _⟩ | ⟨name, rfl, hhint, _⟩ | ⟨rfl, ⟨t, rfl⟩ | ⟨t, rfl⟩⟩
  · exact Declaration.adds_publish hpub
  · refine ⟨SymbolTable.names_addHint hhint, SymbolTable.alike_addHint hhint, ?_⟩
    simpa [hintsAfter] using hhints
  · rfl
  · rfl

/-- A query leaves the table. -/
theorem Effect.eq_of_query {s : Statement} (h : s.Effect table table')
    (hs : s.changesTable = false) : table' = table := by
  cases s with
  | check | eval => exact h
  | declare | hint => cases hs

/-- An accepted statement makes a difference, unless it is a query or a hint that was given
before. -/
theorem Effect.indistinct_iff {s : Statement} (h : s.Effect table table') :
    table.Indistinct table' ↔
      s.changesTable = false ∨ ∃ name ∈ table.hints, s = .hint name := by
  cases s with
  | declare d =>
    have hnames : table'.names ≠ table.names := by
      rw [h.names]
      simpa using d.provides_ne_nil
    simpa [changesTable] using fun hsame : table.Indistinct table' => hnames hsame.names
  | hint name =>
    obtain ⟨hnames, halike, hhints⟩ := h
    by_cases hmem : name ∈ table.hints
    · rw [if_pos hmem] at hhints
      exact iff_of_true ⟨hnames, halike, hhints⟩ (.inr ⟨name, hmem, rfl⟩)
    · rw [if_neg hmem] at hhints
      refine iff_of_false (fun hsame => ?_) ?_
      · simpa [hhints] using hsame.hints
      · rintro (hquery | ⟨other, hother, heq⟩)
        · cases hquery
        · cases heq
          exact hmem hother
  | check t | eval t =>
    obtain rfl : table' = table := h
    exact iff_of_true ⟨rfl, fun _ => rfl, rfl⟩ (.inl rfl)

end Statement

/-! ## Sessions -/

namespace Session

variable {s : Session} {output : String}

/-- A statement that a session accepts has its effect on the table, and the rest of the session
stays. -/
theorem run_eq_ok {statement : Statement} (h : (s.run statement).2.value = .ok output) :
    ∃ table, (s.run statement).1 = { s with table := table } ∧
      (statement.run s.options s.table).outcome = .ok (table, output) := by
  unfold run at h ⊢
  dsimp only at h ⊢
  split at h
  · next table printed hrun =>
    cases h
    exact ⟨table, rfl, hrun⟩
  · cases h

/-- A statement that a session rejects leaves it as it was. -/
theorem run_eq_error {statement : Statement} {e : Failure}
    (h : (s.run statement).2.value = .error e) :
    (s.run statement).1 = s ∧ ∃ cause, e = .kernel cause := by
  unfold run at h ⊢
  dsimp only at h ⊢
  split at h
  · cases h
  · next cause hrun =>
    cases h
    exact ⟨rfl, cause, rfl⟩

/-- **The exact effect of a command on a session.**  A text that is rejected, by the parser or by
the kernel, leaves the session as it was; one that is accepted says something that has its effect on
the table, and the rest of the session stays. -/
theorem execute_effect (s : Session) (input : Text) :
    (∀ e, (s.execute input).2.value = .error e → (s.execute input).1 = s) ∧
    ∀ output, (s.execute input).2.value = .ok output →
      ∃ command table, parseCommand input = .ok command ∧
        (s.execute input).1 = { s with table := table } ∧
        command.statement.Effect s.table table := by
  unfold execute
  cases parseCommand input with
  | error e => exact ⟨fun _ _ => rfl, nofun⟩
  | ok command =>
    refine ⟨fun e he => (run_eq_error he).1, fun output houtput => ?_⟩
    obtain ⟨table, hsession, hrun⟩ := run_eq_ok houtput
    exact ⟨command, table, rfl, hsession, Statement.effect_run hrun⟩

/-- Of two inductive types the first is accepted, and registers its name and its constructors; the
second is rejected for its last constructor, when its name and the constructor before it are on the
fork. -/
theorem execute_effect_two :
    let s : Session := ⟨⟨100, false, false, false⟩, false, .empty⟩
    let good := Text.ofString "Inductive N := Z : N | S : N -> N."
    let bad := Text.ofString "Inductive M := A : M | B : N."
    ∃ table, (s.execute good).1 = { s with table := table } ∧ table.names = ["N", "Z", "S"] ∧
      ((s.execute good).1.execute bad).1 = (s.execute good).1 := by
  rw [Text.ofString_ofList, Text.ofString_ofList]
  intro s good bad
  have hgood : (s.execute good).2.value.isOk = true := by decide +kernel
  have hbad : ((s.execute good).1.execute bad).2.value.isOk = false := by decide +kernel
  have hdeclared : (parseCommand good).toOption.map (fun c => (c.statement.isDeclaration,
      c.statement.provides)) = some (true, ["N", "Z", "S"]) := by decide +kernel
  cases haccepted : (s.execute good).2.value with
  | error e => simp [haccepted, Except.isOk, Except.toBool] at hgood
  | ok output =>
    cases hrejected : ((s.execute good).1.execute bad).2.value with
    | ok output => simp [hrejected, Except.isOk, Except.toBool] at hbad
    | error e =>
      obtain ⟨command, table, hparse, hsession, heffect⟩ :=
        (execute_effect s good).2 output haccepted
      refine ⟨table, hsession, ?_, (execute_effect _ bad).1 e hrejected⟩
      simp only [hparse, Except.toOption, Option.map_some, Option.some.injEq,
        Prod.mk.injEq] at hdeclared
      obtain ⟨position, source, statement⟩ := command
      cases statement with
      | declare d =>
        rw [heffect.names]
        exact hdeclared.2
      | _ => cases hdeclared.1

end Session
end ProofKernel
