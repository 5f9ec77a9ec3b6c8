import ProofKernel.Proofs.Batch.Layers

/-!
# What a report says

A report has one outcome for each command.  It depends on the statement of the command, on what is
known after all layers, and on the errors that declarations are rejected for.

* `Statement.answer` is what a query prints over a table; it is the same over tables that know the
  same (`SymbolTable.Alike.answer`).
* `Package.checkIn` is the check of a package where the declarations of a layer are taken in another
  order; with the given order it is what `Package.check` computes (`Package.check_value`).
* `Package.outcomes_reportOn` gives the outcomes of a package that provides no name twice.
-/

set_option autoImplicit false
namespace ProofKernel

variable {options : Options} {table table' : SymbolTable}

/-! ## Queries -/

namespace Statement

/-- What a statement prints over a table, or why it is rejected. -/
def answer (options : Options) (table : SymbolTable) (s : Statement) : Except KernelError String :=
  (s.run options table).outcome.map (·.2)

theorem answer_check (t : Term) :
    (check t).answer options table =
      (infer options (.ofTable table) t).outcome.map fun type =>
        t.render ++ " : " ++ type.render := by
  rw [answer, run, Verdict.outcome_bind]
  cases (infer options (.ofTable table) t).outcome <;> rfl

theorem answer_eval (t : Term) :
    (eval t).answer options table =
      (infer options (.ofTable table) t).outcome.map fun _ =>
        (normalize options table t).value.render := by
  rw [answer, run, Verdict.outcome_bind]
  cases (infer options (.ofTable table) t).outcome <;> rfl

theorem answer_hint (name : String) :
    (hint name).answer options table =
      if table.defined name then .ok "" else .error (.unboundVariable name) := by
  unfold answer run SymbolTable.addHint
  rw [Verdict.outcome_bind, Verdict.outcome_ofExcept]
  cases table.defined name with
  | false => rfl
  | true =>
    simp only [Bool.not_true, Bool.false_eq_true, if_false, if_true]
    split <;> rfl

end Statement

namespace SymbolTable

/-- **Queries are answered alike over tables that know the same.** -/
theorem Alike.answer (h : table.Alike table') {s : Statement} (hs : s.isDeclaration = false) :
    s.answer options table = s.answer options table' := by
  have hinfer : ∀ t : Term, infer options (.ofTable table) t = infer options (.ofTable table') t :=
    fun t => (h.shared.infer (fun _ _ => trivial) .nil).eq
  cases s with
  | declare d => cases hs
  | hint name => rw [Statement.answer_hint, Statement.answer_hint, h.defined]
  | check t => rw [Statement.answer_check, Statement.answer_check, hinfer]
  | eval t =>
    have hnormal : normalize options table t = normalize options table' t :=
      h.shared.normalize fun _ _ => trivial
    rw [Statement.answer_eval, Statement.answer_eval, hinfer, hnormal]

end SymbolTable

/-- A query changes at most the hints. -/
theorem Statement.alike_run {s : Statement} (hs : s.isDeclaration = false) {output : String}
    (h : (s.run options table).outcome = .ok (table', output)) : table'.Alike table := by
  rcases run_eq_ok h with ⟨d, rfl, _⟩ | ⟨name, _, hhint, _⟩ | ⟨rfl, _⟩
  · cases hs
  · exact SymbolTable.alike_addHint hhint
  · exact fun _ => rfl

namespace Batch

/-- **Queries are answered one by one**, each as over the table they start from. -/
theorem runQueries_spec {queries : List (Nat × Statement)}
    (h : ∀ q ∈ queries, q.2.isDeclaration = false) :
    (runQueries options table queries).value.1.Alike table ∧
      (runQueries options table queries).value.2 =
        queries.map fun q => (q.1, q.2.answer options table) := by
  induction queries generalizing table with
  | nil => exact ⟨fun _ => rfl, rfl⟩
  | cons q rest ih =>
    obtain ⟨i, s⟩ := q
    obtain ⟨hs, hrest⟩ := List.forall_mem_cons.1 h
    have hanswer : s.answer options table = (s.run options table).outcome.map (·.2) := rfl
    rw [List.map_cons, hanswer]
    cases hrun : (s.run options table).outcome with
    | error e =>
      obtain ⟨halike, hlater⟩ := @ih table hrest
      simp only [runQueries, Traced.value_bind, hrun]
      exact ⟨halike, congrArg _ hlater⟩
    | ok result =>
      obtain ⟨next, output⟩ := result
      have hnext := Statement.alike_run hs hrun
      obtain ⟨halike, hlater⟩ := @ih next hrest
      simp only [runQueries, Traced.value_bind, hrun]
      refine ⟨halike.trans hnext, congrArg _ (hlater.trans (List.map_congr_left fun q hq => ?_))⟩
      rw [hnext.answer (hrest q hq)]

/-- The queries and hints of a list of statements, with their positions. -/
def queriesOf (statements : List Statement) : List (Nat × Statement) :=
  (statements.zipIdx.filter fun (s, _) => !s.isDeclaration).map Prod.swap

theorem mem_queriesOf {statements : List Statement} {i : Nat} {s : Statement} :
    (i, s) ∈ queriesOf statements ↔ statements[i]? = some s ∧ s.isDeclaration = false := by
  unfold queriesOf
  rw [List.mem_map]
  constructor
  · rintro ⟨⟨r, j⟩, hmem, heq⟩
    cases heq
    obtain ⟨hmem, hdecl⟩ := List.mem_filter.1 hmem
    exact ⟨List.mem_zipIdx_iff_getElem?.1 hmem, by simpa using hdecl⟩
  · rintro ⟨hget, hdecl⟩
    refine ⟨(s, i), List.mem_filter.2 ⟨List.mem_zipIdx_iff_getElem?.2 hget, ?_⟩, rfl⟩
    simpa using hdecl

end Batch

/-! ## Checking in another order -/

open Batch

namespace Package

/-- What the commands of a package say. -/
def statements (p : Package) : List Statement :=
  p.commands.map (·.statement)

/-- The report on a package whose declarations are checked in these layers, from this table. -/
def reportOn (options : Options) (p : Package) (table : SymbolTable) (layers : List (List Nat)) :
    Report :=
  let duplicates : Errors := (rejectDuplicates table [] p.statements).zipIdx.filterMap
    fun (r, i) =>
      match r with
      | .error e => some (i, e)
      | .ok _ => none
  let checked := (checkLayers options p.statements table 0 layers).value
  let queried := (runQueries options checked.1 (queriesOf p.statements)).value
  let errors := duplicates ++ checked.2
  let outcomes := p.commands.zipIdx.map fun (c, i) =>
    let file := ((p.locate? i).map (·.path)).getD ""
    match queried.2.lookup i with
    | some (.ok output) => ⟨file, c, output, none⟩
    | some (.error e) => ⟨file, c, "", some e⟩
    | none => ⟨file, c, "", errors.lookup i⟩
  ⟨outcomes, queried.1⟩

/-- The result of a check that takes the declarations of the layers as `arrange` puts them. -/
def checkIn (arrange : List (List Nat) → List (List Nat)) (options : Options)
    (withPrelude cancelled : Bool) (p : Package) : Except Failure Report :=
  match (initialTable options withPrelude).outcome with
  | .error e => .error (.labelled "loading prelude: " (.kernel e))
  | .ok table =>
    match declarationLayers ((rejectDuplicates table [] p.statements).map Except.toOption) with
    | .error e => .error e
    | .ok layers =>
      if cancelled && !(layers.isEmpty && (queriesOf p.statements).isEmpty) then
        .error (.external "context canceled")
      else .ok (p.reportOn options table (arrange layers))

/-- With the order of the layers as it is, this is the result of checking the package. -/
theorem check_value (options : Options) (withPrelude cancelled : Bool) (p : Package) :
    (p.check options withPrelude cancelled).value = p.checkIn id options withPrelude cancelled := by
  unfold Package.check checkIn
  cases hstart : (initialTable options withPrelude).outcome with
  | error e => simp only [hstart]
  | ok table =>
    have hstatements : p.commands.map (·.statement) = p.statements := rfl
    simp only [hstart, hstatements, Traced.value_bind]
    cases declarationLayers ((rejectDuplicates table [] p.statements).map Except.toOption) with
    | error e => rfl
    | ok layers =>
      simp only [id]
      split <;> split
      · rfl
      · next h h' => exact absurd h h'
      · next h h' => exact absurd h' h
      · rfl

end Package

/-! ## All declarations in layers -/

/-- The declarations among statements, in order. -/
def declared (statements : List Statement) : List Declaration :=
  statements.filterMap Statement.declaration?

theorem provided_declared (statements : List Statement) :
    provided (declared statements) = statements.flatMap (·.provides) := by
  induction statements with
  | nil => rfl
  | cons s rest ih =>
    unfold provided declared at ih ⊢
    rw [List.flatMap_cons, ← ih]
    cases s <;> rfl

namespace Batch

variable {statements : List Statement}

theorem declarationsIn_eq (layer : List Nat) :
    declarationsIn statements layer =
      (layer.map (statementAt statements)).filterMap Statement.declaration? := by
  unfold declarationsIn declarationsOf
  rw [List.map_filterMap, List.filterMap_map]
  refine List.filterMap_congr fun i _ => ?_
  rw [Option.map_map, Function.comp_apply, statementAt]
  cases statements[i]? with
  | none => rfl
  | some s => cases s <;> rfl

theorem flatten_declarationsIn (layers : List (List Nat)) :
    (layers.map (declarationsIn statements)).flatten =
      declarationsIn statements layers.flatten := by
  induction layers with
  | nil => rfl
  | cons layer rest ih =>
    rw [List.map_cons, List.flatten_cons, List.flatten_cons, ih, declarationsIn_eq,
      declarationsIn_eq, declarationsIn_eq, List.map_append, List.filterMap_append]

/-- Layers of all positions hold all declarations. -/
theorem flatten_declarationsIn_perm (honce : ProvidedOnce statements) {layers : List (List Nat)}
    (hlayers : layers.flatten.Perm (positions statements)) :
    (layers.map (declarationsIn statements)).flatten.Perm (declared statements) := by
  have hkeys := (relabels_needsGraph honce (.refl _)).keys_perm
  rw [keys_needsGraph, keys_dependencyGraph] at hkeys
  have hfilter : declared statements =
      (statements.filter (·.isDeclaration)).filterMap Statement.declaration? := by
    unfold declared
    rw [List.filterMap_filter]
    refine List.filterMap_congr fun s _ => ?_
    cases s <;> rfl
  rw [flatten_declarationsIn, declarationsIn_eq, hfilter]
  exact ((hlayers.map _).trans hkeys).filterMap _

end Batch

/-! ## Outcomes -/

namespace Batch

variable {statements : List Statement} {i : Nat} {s : Statement}

theorem lookup_query {β : Type} (f : Statement → β) (hget : statements[i]? = some s)
    (hs : s.isDeclaration = false) :
    ((queriesOf statements).map fun q => (q.1, f q.2)).lookup i = some (f s) := by
  refine lookup_eq_some (List.mem_map.2 ⟨(i, s), mem_queriesOf.2 ⟨hget, hs⟩, rfl⟩) fun b hb => ?_
  obtain ⟨⟨j, r⟩, hq, heq⟩ := List.mem_map.1 hb
  cases heq
  have hr := (mem_queriesOf.1 hq).1
  rw [hget] at hr
  cases hr
  rfl

theorem lookup_declaration {β : Type} (f : Statement → β) (hget : statements[i]? = some s)
    (hs : s.isDeclaration = true) :
    ((queriesOf statements).map fun q => (q.1, f q.2)).lookup i = none := by
  refine lookup_eq_none fun b hb => ?_
  obtain ⟨⟨j, r⟩, hq, heq⟩ := List.mem_map.1 hb
  cases heq
  obtain ⟨hr, hdecl⟩ := mem_queriesOf.1 hq
  rw [hget] at hr
  cases hr
  rw [hs] at hdecl
  cases hdecl

/-- The error that is found for a position is that of the declaration there. -/
theorem lookup_errors {errors : Declaration → Option KernelError} {layers : List (List Nat)}
    {d : Declaration} (hi : i ∈ layers.flatten) (hget : statements[i]? = some (.declare d)) :
    ((layers.flatMap (declarationsOf statements)).filterMap fun p =>
      (errors p.2).map (p.1, ·)).lookup i = errors d := by
  have hone : ∀ e, (i, e) ∈ ((layers.flatMap (declarationsOf statements)).filterMap fun p =>
      (errors p.2).map (p.1, ·)) → errors d = some e := by
    intro e he
    obtain ⟨⟨j, d'⟩, hmem, hsome⟩ := List.mem_filterMap.1 he
    obtain ⟨e', he', heq⟩ := Option.map_eq_some_iff.1 hsome
    cases heq
    obtain ⟨layer, _, hitem⟩ := List.mem_flatMap.1 hmem
    have hd' := (mem_declarationsOf.1 hitem).2
    rw [hget] at hd'
    cases hd'
    exact he'
  cases he : errors d with
  | none =>
    refine lookup_eq_none fun e hmem => ?_
    rw [hone e hmem] at he
    cases he
  | some e =>
    refine lookup_eq_some ?_ fun e' hmem => ?_
    · obtain ⟨layer, hlayer, hmem⟩ := List.mem_flatten.1 hi
      refine List.mem_filterMap.2 ⟨(i, d), List.mem_flatMap.2 ⟨layer, hlayer, ?_⟩, ?_⟩
      · exact mem_declarationsOf.2 ⟨hmem, hget⟩
      · dsimp only
        rw [he]
        rfl
    · rw [hone e' hmem] at he
      exact Option.some.inj he

end Batch

/-- What a report says of a statement: what a query prints, and the error of what is rejected. -/
def Statement.result (options : Options) (table : SymbolTable)
    (errors : Declaration → Option KernelError) : Statement → String × Option KernelError
  | .declare d => ("", errors d)
  | s =>
    match s.answer options table with
    | .ok output => (output, none)
    | .error e => ("", some e)

theorem Statement.result_query {errors : Declaration → Option KernelError} {s : Statement}
    (hs : s.isDeclaration = false) :
    s.result options table errors =
      match s.answer options table with
      | .ok output => (output, none)
      | .error e => ("", some e) := by
  cases s with
  | declare d => cases hs
  | _ => rfl

/-- **The outcomes of a package that provides no name twice** are those of its statements, over what
is known after the layers. -/
theorem Package.outcomes_reportOn {p : Package} {layers : List (List Nat)}
    (honce : ProvidedOnce p.statements)
    (hnew : ∀ s ∈ p.statements, ∀ name ∈ s.provides, table.defined name = false)
    (hlayers : layers.flatten.Perm (positions p.statements)) :
    let final := (checkLayers options p.statements table 0 layers).value.1
    ∃ errors, Checked options errors (layers.map (declarationsIn p.statements)) table final ∧
      (p.reportOn options table layers).table.Alike final ∧
      (p.reportOn options table layers).outcomes = p.commands.zipIdx.map fun (c, i) =>
        ⟨((p.locate? i).map (·.path)).getD "", c, (c.statement.result options final errors).1,
          (c.statement.result options final errors).2⟩ := by
  have hprovided : (provided (layers.map (declarationsIn p.statements)).flatten).Perm
      (p.statements.flatMap (·.provides)) := by
    rw [← provided_declared]
    exact (flatten_declarationsIn_perm honce hlayers).flatMap fun _ _ => .refl _
  have hnew' : ∀ name ∈ provided (layers.map (declarationsIn p.statements)).flatten,
      table.defined name = false := by
    intro name hname
    obtain ⟨s, hs, hmem⟩ := List.mem_flatMap.1 (hprovided.mem_iff.1 hname)
    exact hnew s hs name hmem
  obtain ⟨errors, hchecked, herrors⟩ := @checked_checkLayers options p.statements table 0 layers
    (hprovided.nodup_iff.2 honce) hnew'
  have hduplicates : (rejectDuplicates table [] p.statements).zipIdx.filterMap (fun (r, i) =>
      match r with
      | .error e => some (i, e)
      | .ok _ => none) = ([] : Errors) := by
    rw [rejectDuplicates_eq_map honce hnew, List.filterMap_eq_nil_iff]
    rintro ⟨r, i⟩ hmem
    obtain ⟨s, _, rfl⟩ := List.mem_map.1 (List.fst_mem_of_mem_zipIdx hmem)
    rfl
  obtain ⟨halike, hanswers⟩ := @runQueries_spec options
    (checkLayers options p.statements table 0 layers).value.1 (queriesOf p.statements)
    fun q hq => (mem_queriesOf.1 hq).2
  refine ⟨errors, hchecked, halike, ?_⟩
  unfold reportOn
  dsimp only
  refine List.map_congr_left fun ⟨c, i⟩ hc => ?_
  have hget : p.statements[i]? = some c.statement := by
    rw [Package.statements, List.getElem?_map, List.mem_zipIdx_iff_getElem?.1 hc]
    rfl
  dsimp only
  rw [hanswers, hduplicates, List.nil_append, herrors]
  cases hdecl : c.statement.isDeclaration with
  | false =>
    rw [lookup_query (fun s => s.answer options _) hget hdecl, Statement.result_query hdecl]
    cases c.statement.answer options (checkLayers options p.statements table 0 layers).value.1
    all_goals rfl
  | true =>
    rw [lookup_declaration (fun s => s.answer options _) hget hdecl]
    obtain ⟨d, hd⟩ : ∃ d, c.statement = .declare d := by
      cases hs : c.statement with
      | declare d => exact ⟨d, rfl⟩
      | _ => rw [hs] at hdecl; cases hdecl
    rw [hd] at hget ⊢
    rw [lookup_errors (hlayers.mem_iff.2 (mem_positions.2 ⟨_, hget, rfl⟩)) hget]
    rfl

end ProofKernel
