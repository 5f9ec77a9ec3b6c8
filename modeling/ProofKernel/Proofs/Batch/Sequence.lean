import ProofKernel.Proofs.Batch.Layers
import ProofKernel.Proofs.Session.Grounded

/-!
# Statements run one after the other

* `Declaration.requires_known` and `Declaration.mem_requires`: the names that an accepted
  declaration requires are those that its terms mention and the table knows.
* `Published.selfContained`: a layer of declarations keeps a table self-contained.
* `Session.runAll` runs statements up to the first that is rejected, and `Ran` is such a run on a
  table where all of them are accepted.
* `Ran.moment` looks at one statement of a run: the table that it saw, and what became of it.
-/

set_option autoImplicit false
namespace ProofKernel

variable {options : Options} {table table' : SymbolTable}

/-! ## What a declaration requires -/

namespace Declaration

variable {name : String}

theorem mem_globals {t : Term} :
    name ∈ t.globals.toList ↔ .global name ∈ t.leaves ∧ name ≠ Term.placeholder := by
  have hmem : name ∈ t.globals.toList ↔ name ∈ t.globals := Iff.rfl
  rw [hmem, Term.globals, NameSet.mem_ofList, List.mem_filter, Term.global_mem_leaves, bne_iff_ne]

theorem mem_requires_iff {d : Declaration} :
    name ∈ (Statement.declare d).requires ↔
      (∃ t ∈ d.terms, .global name ∈ t.leaves) ∧ name ≠ Term.placeholder ∧ name ∉ d.ownNames := by
  rw [Statement.requires, List.mem_filter, List.mem_eraseDups, Statement.mentioned,
    List.mem_flatMap]
  simp only [mem_globals, Statement.ownNames]
  grind

theorem provides_subset_ownNames {d : Declaration} (h : name ∈ d.provides) : name ∈ d.ownNames := by
  cases d with
  | family => exact List.mem_append_left _ h
  | _ => exact h

/-- What the judged terms of an inductive type mention: what was written, but for the parameters. -/
theorem mem_leaves_judgedTerms_family {given : String} {params constructors : Telescope}
    {sort : Option Term} {l : Leaf} :
    (∃ t ∈ (family given params sort constructors).judgedTerms, l ∈ t.leaves) ↔
      l ∈ (sort.getD (.sort (.type 0))).leaves ∨ (∀ x ∈ params.map Prod.fst, l ≠ .global x) ∧
        ((∃ p ∈ params, l ∈ p.2.leaves) ∨ ∃ c ∈ constructors, l ∈ c.2.leaves) := by
  have hparams : (∃ p ∈ boundParams params, l ∈ p.2.leaves) ↔
      (∃ p ∈ params, l ∈ p.2.leaves) ∧ ∀ x ∈ params.map Prod.fst, l ≠ .global x := by
    constructor
    · rintro ⟨q, hq, hl⟩
      obtain ⟨p, hp, rfl⟩ := List.mem_map.1 hq
      obtain ⟨hl, hx⟩ := Term.mem_leaves_bindParams.1 hl
      exact ⟨⟨p, hp, hl⟩, hx⟩
    · rintro ⟨⟨p, hp, hl⟩, hx⟩
      exact ⟨_, List.mem_map_of_mem hp, Term.mem_leaves_bindParams.2 ⟨hl, hx⟩⟩
  have hconstructors : (∃ t ∈ (polymorphicConstructors params constructors).map Prod.snd,
      l ∈ t.leaves) ↔ ∃ c ∈ constructors, (∃ p ∈ boundParams params, l ∈ p.2.leaves) ∨
        l ∈ c.2.leaves ∧ ∀ x ∈ params.map Prod.fst, l ≠ .global x := by
    rw [polymorphicConstructors, List.map_map]
    constructor
    · rintro ⟨t, ht, hl⟩
      obtain ⟨c, hc, rfl⟩ := List.mem_map.1 ht
      exact ⟨c, hc, (Term.mem_leaves_pis.1 hl).imp_right Term.mem_leaves_bindParams.1⟩
    · rintro ⟨c, hc, hl⟩
      exact ⟨_, List.mem_map_of_mem hc,
        Term.mem_leaves_pis.2 (hl.imp_right Term.mem_leaves_bindParams.2)⟩
  have hterms : (∃ t ∈ (family given params sort constructors).judgedTerms, l ∈ t.leaves) ↔
      l ∈ (arity params sort).leaves ∨
        ∃ t ∈ (polymorphicConstructors params constructors).map Prod.snd, l ∈ t.leaves := by
    simp only [judgedTerms, List.mem_cons, or_and_right, exists_or, exists_eq_left]
  rw [hterms, arity, Term.mem_leaves_pis, hconstructors, hparams]
  grind

/-- An accepted declaration requires the names that its terms mention, but for its own. -/
theorem mem_requires {d : Declaration} {layer : Layer} (hjudge : d.judge options table = .ok layer)
    {t : Term} (ht : t ∈ d.judgedTerms) (hname : .global name ∈ t.leaves)
    (hprovides : name ∉ d.provides) (hplaceholder : name ≠ Term.placeholder) :
    name ∈ (Statement.declare d).requires := by
  refine mem_requires_iff.2 ?_
  cases d with
  | definition | postulate => exact ⟨⟨t, ht, hname⟩, hplaceholder, hprovides⟩
  | family given params sort constructors =>
    obtain ⟨staged, hstage, _⟩ := Verdict.map_eq_ok_iff.1 hjudge
    obtain ⟨u, _, _, hsort, _⟩ := stageFamily_eq_ok_iff.1 hstage
    have hmem := mem_leaves_judgedTerms_family.1 ⟨t, ht, hname⟩
    rw [hsort] at hmem
    obtain ⟨hparams, hmem⟩ := hmem.resolve_left nofun
    refine ⟨?_, hplaceholder, fun hown => ?_⟩
    · rcases hmem with ⟨p, hp, hl⟩ | ⟨c, hc, hl⟩
      · exact ⟨p.2, by simp [terms, List.mem_map_of_mem hp], hl⟩
      · exact ⟨c.2, by simp [terms, List.mem_map_of_mem hc], hl⟩
    · rcases List.mem_append.1 hown with hown | hown
      · exact hprovides hown
      · exact hparams name hown rfl

/-- **The names that an accepted declaration requires are registered.** -/
theorem requires_known {d : Declaration} {layer : Layer}
    (hjudge : d.judge options table = .ok layer) (h : name ∈ (Statement.declare d).requires) :
    table.defined name = true := by
  obtain ⟨hmentioned, hplaceholder, hown⟩ := mem_requires_iff.1 h
  have hjudged : ∃ t ∈ d.judgedTerms, .global name ∈ t.leaves := by
    cases d with
    | definition | postulate => exact hmentioned
    | family given params sort constructors =>
      have hparams : ∀ x ∈ params.map Prod.fst, Leaf.global name ≠ .global x := by
        rintro x hx ⟨⟩
        exact hown (List.mem_append_right _ hx)
      obtain ⟨t, ht, hl⟩ := hmentioned
      simp only [terms, List.mem_append, List.mem_map, Option.mem_toList] at ht
      refine mem_leaves_judgedTerms_family.2 ?_
      rcases ht with (⟨p, hp, rfl⟩ | rfl) | ⟨c, hc, rfl⟩
      · exact .inr ⟨hparams, .inl ⟨p, hp, hl⟩⟩
      · exact .inl hl
      · exact .inr ⟨hparams, .inr ⟨c, hc, hl⟩⟩
  obtain ⟨t, ht, hl⟩ := hjudged
  rcases (known_of_judge hjudge).terms t ht _ hl with heq | hprovides | ⟨hdefined, _⟩
  · exact absurd heq hplaceholder
  · exact absurd (provides_subset_ownNames hprovides) hown
  · exact hdefined

end Declaration

/-! ## Growing tables -/

/-- What is judged for a declaration registers the names it provides, which are new. -/
theorem Declaration.registers_of_judge {d : Declaration} {layer : Layer}
    (h : d.judge options table = .ok layer) :
    (∀ name ∈ d.provides, table.defined name = false) ∧
      ∀ name, layer.registration name = .none ↔ name ∉ d.provides := by
  obtain ⟨staged, hstage, rfl⟩ := Verdict.map_eq_ok_iff.1 h
  obtain ⟨⟨T, _, rfl⟩, hnodup, hnew⟩ := stage_eq_ok hstage
  refine ⟨hnew, fun name => ?_⟩
  rw [(tidy_layer hnodup T).listed, order_layer]

namespace Published

variable {ds : List Declaration} {name : String}

/-- What is registered after a layer. -/
theorem defined_iff (h : Published options table ds table table') :
    table'.defined name = true ↔ table.defined name = true ∨
      ∃ d ∈ ds, (∃ layer, d.judge options table = .ok layer) ∧ name ∈ d.provides := by
  by_cases hname : ∃ d ∈ ds, ∃ layer, d.judge options table = .ok layer ∧ name ∈ d.provides
  · obtain ⟨d, hd, layer, hjudge, hmem⟩ := hname
    refine iff_of_true ?_ (.inr ⟨d, hd, ⟨layer, hjudge⟩, hmem⟩)
    rw [← Bool.not_eq_false, SymbolTable.defined_eq_false_iff,
      h.accepted d hd layer hjudge name hmem, (Declaration.registers_of_judge hjudge).2]
    exact fun hnot => hnot hmem
  · rw [← Bool.not_eq_false, SymbolTable.defined_eq_false_iff, h.other name (by grind),
      ← SymbolTable.defined_eq_false_iff, Bool.not_eq_false]
    grind

/-- Nothing is lost in a layer. -/
theorem extension (h : Published options table ds table table') : table.Extends table' := by
  refine fun name hname => h.other name fun d _ layer hjudge hmem => ?_
  rw [(Declaration.registers_of_judge hjudge).1 name hmem] at hname
  cases hname

/-- **A layer keeps a table self-contained.** -/
theorem selfContained (h : Published options table ds table table') (ht : table.SelfContained)
    (hplaceholder : ∀ d ∈ ds, Term.placeholder ∉ d.provides) : table'.SelfContained where
  entries := by
    intro name
    by_cases hname : ∃ d ∈ ds, ∃ layer, d.judge options table = .ok layer ∧ name ∈ d.provides
    · obtain ⟨d, hd, layer, hjudge, hmem⟩ := hname
      have hnew := (Declaration.registers_of_judge hjudge).1
      have hshared := ht.shared ht (fun _ _ _ => rfl) fun n hn => ⟨hnew n hn, hnew n hn⟩
      rw [h.accepted d hd layer hjudge name hmem]
      have hover := hshared.over_judge (Declaration.known_of_judge hjudge) hjudge name
      refine hover.mono fun l hl => ?_
      cases l with
      | hole => trivial
      | global n =>
        refine hl.imp_right fun hn => h.defined_iff.2 ?_
        exact hn.elim (fun hn => .inr ⟨d, hd, ⟨layer, hjudge⟩, hn⟩) fun hn => .inl hn.1
    · rw [h.other name (by grind)]
      exact (ht.entries name).mono fun _ => h.extension.knows
  literal := fun value => h.defined_iff.2 (.inl (ht.literal value))
  placeholder := by
    rw [← Bool.not_eq_true, h.defined_iff, ht.placeholder]
    rintro (hfalse | ⟨d, hd, _, hmem⟩)
    · cases hfalse
    · exact hplaceholder d hd hmem

end Published

/-- A declaration that is published is a layer of its own. -/
theorem Declaration.published {d : Declaration}
    (h : (d.publish options (.ofTable table)).outcome = .ok table') :
    (∃ layer, d.judge options table = .ok layer) ∧ Published options table [d] table table' := by
  obtain ⟨T, _, hstage, _, hhints, hreg⟩ := publish_eq_ok h
  have hjudge : d.judge options table = .ok (d.layer T) := by rw [judge, hstage]; rfl
  refine ⟨⟨_, hjudge⟩, List.forall_mem_singleton.2 fun layer hlayer name hname => ?_,
    fun name hname => ?_, hhints⟩
  · rw [hjudge] at hlayer
    cases hlayer
    rw [hreg, if_pos hname]
  · rw [hreg, if_neg (hname d List.mem_cons_self _ hjudge)]

/-- The table that a session with the prelude starts from is self-contained. -/
theorem initialTable_selfContained (h : (initialTable options true).outcome = .ok table) :
    table.SelfContained := by
  obtain ⟨hg, hliteral⟩ := initialTable_grounded h
  refine ⟨hg.entries, hliteral, ?_⟩
  rw [← Bool.not_eq_true, ← hg.listed, names_initialTable h]
  decide

/-! ## Statements -/

theorem SymbolTable.SelfContained.of_alike (h : table.SelfContained) (ha : table'.Alike table) :
    table'.SelfContained where
  entries := fun name => by
    rw [ha name]
    refine (h.entries name).mono fun l hl => ?_
    cases l with
    | hole => trivial
    | global n => exact hl.imp_right fun hn => (ha.defined n).trans hn
  literal := fun value => (ha.defined _).trans (h.literal value)
  placeholder := (ha.defined _).trans h.placeholder

/-- What an accepted statement does to a table. -/
structure Statement.Grows (s : Statement) (table table' : SymbolTable) : Prop where
  extension : table.Extends table'
  new : ∀ name ∈ s.provides, table.defined name = false
  nodup : s.provides.Nodup
  defined_iff : ∀ name, table'.defined name = true ↔ table.defined name = true ∨ name ∈ s.provides

theorem Statement.run_grows {s : Statement} {output : String}
    (h : (s.run options table).outcome = .ok (table', output)) : s.Grows table table' := by
  have hquery : ∀ {q : Statement}, q.provides = [] → table'.Alike table → q.Grows table table' := by
    intro q hq halike
    refine ⟨fun name _ => halike name, ?_, ?_, fun name => ?_⟩
    · rw [hq]
      exact nofun
    · rw [hq]
      exact .nil
    · rw [hq, halike.defined]
      exact (or_iff_left List.not_mem_nil).symm
  rcases run_eq_ok h with ⟨d, rfl, hpub, _⟩ | ⟨name, rfl, hhint, _⟩ | ⟨rfl, ⟨t, rfl⟩ | ⟨t, rfl⟩⟩
  · obtain ⟨⟨layer, hjudge⟩, hpublished⟩ := Declaration.published hpub
    obtain ⟨T, _, hstage, _⟩ := Declaration.publish_eq_ok hpub
    obtain ⟨_, hnodup, hnew⟩ := Declaration.stage_eq_ok hstage
    refine ⟨hpublished.extension, hnew, hnodup, fun name => ?_⟩
    rw [hpublished.defined_iff]
    refine or_congr_right ⟨?_, fun hname => ⟨d, List.mem_cons_self, ⟨layer, hjudge⟩, hname⟩⟩
    rintro ⟨e, he, _, hname⟩
    exact List.mem_singleton.1 he ▸ hname
  · exact hquery rfl (SymbolTable.alike_addHint hhint)
  · exact hquery rfl fun _ => rfl
  · exact hquery rfl fun _ => rfl

theorem Statement.selfContained_run {s : Statement} {output : String}
    (h : (s.run options table).outcome = .ok (table', output)) (ht : table.SelfContained)
    (hp : Term.placeholder ∉ s.provides) : table'.SelfContained := by
  rcases run_eq_ok h with ⟨d, rfl, hpub, _⟩ | ⟨name, rfl, hhint, _⟩ | ⟨rfl, _⟩
  · exact (Declaration.published hpub).2.selfContained ht (List.forall_mem_singleton.2 hp)
  · exact ht.of_alike (SymbolTable.alike_addHint hhint)
  · exact ht

/-- The hints after a statement. -/
def Statement.hintsAfter (hints : List String) : Statement → List String
  | hint name => if hints.contains name then hints else hints ++ [name]
  | _ => hints

theorem Statement.hints_run {s : Statement} {output : String}
    (h : (s.run options table).outcome = .ok (table', output)) :
    table'.hints = s.hintsAfter table.hints := by
  rcases run_eq_ok h with ⟨d, rfl, hpub, _⟩ | ⟨name, rfl, hhint, _⟩ | ⟨rfl, ⟨t, rfl⟩ | ⟨t, rfl⟩⟩
  · exact (Declaration.published hpub).2.hints
  · unfold SymbolTable.addHint at hhint
    rw [hintsAfter]
    split at hhint
    · cases hhint
    split at hhint
    · next hmem =>
      cases hhint
      rw [if_pos hmem]
    · next hmem =>
      cases hhint
      rw [if_neg hmem]
      simp [SymbolTable.hints, SymbolTable.layers]
  · rfl
  · rfl

/-! ## Runs -/

/-- Runs statements up to the first that is rejected: the session after them, and what they
print. -/
def Session.runAll (s : Session) : List Statement → Except Failure (Session × List String)
  | [] => .ok (s, [])
  | statement :: rest =>
    let (next, result) := s.run statement
    match result.value with
    | .error e => .error e
    | .ok output => (next.runAll rest).map fun (final, outputs) => (final, output :: outputs)

/-- A run of statements from one table to another, with what they print. -/
inductive Ran (options : Options) :
    List Statement → SymbolTable → SymbolTable → List String → Prop
  | nil (table : SymbolTable) : Ran options [] table table []
  | cons {s : Statement} {rest : List Statement} {table next final : SymbolTable} {output : String}
      {outputs : List String} (h : (s.run options table).outcome = .ok (next, output))
      (hrest : Ran options rest next final outputs) :
      Ran options (s :: rest) table final (output :: outputs)

/-- Statements that a session accepts are run on its table. -/
theorem Session.ran_runAll {s final : Session} {statements : List Statement} {outputs : List String}
    (h : s.runAll statements = .ok (final, outputs)) :
    Ran s.options statements s.table final.table outputs := by
  induction statements generalizing s final outputs with
  | nil =>
    cases h
    exact .nil _
  | cons statement rest ih =>
    rw [runAll] at h
    cases hrun : (statement.run s.options s.table).outcome with
    | error e => simp [Session.run, hrun] at h
    | ok result =>
      obtain ⟨table, output⟩ := result
      simp only [Session.run, hrun] at h
      cases hrest : ({ s with table := table } : Session).runAll rest with
      | error e => simp [hrest, Except.map] at h
      | ok later =>
        obtain ⟨final', outputs'⟩ := later
        simp only [hrest, Except.map, Except.ok.injEq, Prod.mk.injEq] at h
        obtain ⟨rfl, rfl⟩ := h
        exact .cons hrun (ih hrest)

namespace Ran

variable {statements : List Statement} {start final : SymbolTable} {outputs : List String}

theorem extension (h : Ran options statements start final outputs) : start.Extends final := by
  induction h with
  | nil => exact .refl _
  | cons hrun _ ih => exact (Statement.run_grows hrun).extension.trans ih

theorem selfContained (h : Ran options statements start final outputs)
    (hstart : start.SelfContained) (hp : ∀ s ∈ statements, Term.placeholder ∉ s.provides) :
    final.SelfContained := by
  induction h with
  | nil => exact hstart
  | cons hrun _ ih =>
    rw [List.forall_mem_cons] at hp
    exact ih (Statement.selfContained_run hrun hstart hp.1) hp.2

theorem length_outputs (h : Ran options statements start final outputs) :
    outputs.length = statements.length := by
  induction h with
  | nil => rfl
  | cons _ _ ih => rw [List.length_cons, List.length_cons, ih]

theorem defined_iff (h : Ran options statements start final outputs) {name : String} :
    final.defined name = true ↔
      start.defined name = true ∨ name ∈ statements.flatMap (·.provides) := by
  induction h with
  | nil => exact (or_iff_left List.not_mem_nil).symm
  | cons hrun _ ih =>
    rw [ih, (Statement.run_grows hrun).defined_iff, List.flatMap_cons, List.mem_append, or_assoc]

/-- No name is provided twice in a run, and none is registered before it. -/
theorem provides_once (h : Ran options statements start final outputs) :
    ProvidedOnce statements ∧ ∀ s ∈ statements, ∀ name ∈ s.provides,
      start.defined name = false := by
  induction h with
  | nil => exact ⟨.nil, nofun⟩
  | @cons s rest table next final output outputs hrun _ ih =>
    obtain ⟨honce, hnew⟩ := ih
    have hgrows := Statement.run_grows hrun
    constructor
    · refine List.nodup_append.2 ⟨hgrows.nodup, honce, fun a ha b hb heq => ?_⟩
      obtain ⟨s', hs', hb⟩ := List.mem_flatMap.1 hb
      have hdefined := (hgrows.defined_iff a).2 (.inr ha)
      rw [heq, hnew s' hs' b hb] at hdefined
      cases hdefined
    · refine List.forall_mem_cons.2 ⟨hgrows.new, fun s' hs' name hname => ?_⟩
      rw [← Bool.not_eq_true]
      intro hdefined
      have := (hgrows.defined_iff name).2 (.inl hdefined)
      rw [hnew s' hs' name hname] at this
      cases this

theorem hints_eq (h : Ran options statements start final outputs) :
    final.hints = statements.foldl Statement.hintsAfter start.hints := by
  induction h with
  | nil => rfl
  | cons hrun _ ih => rw [ih, Statement.hints_run hrun, List.foldl_cons]

end Ran

/-- What a statement of a run saw and did: it was run on a table that the final one extends, and
whose names are from the start or from statements before it. -/
structure Moment (options : Options) (statements : List Statement) (start final : SymbolTable)
    (i : Nat) (s : Statement) (seen next : SymbolTable) (output : String) : Prop where
  run : (s.run options seen).outcome = .ok (next, output)
  selfContained : seen.SelfContained
  extension : next.Extends final
  earlier : ∀ name, seen.defined name = true → start.defined name = true ∨
    ∃ j < i, ∃ s', statements[j]? = some s' ∧ name ∈ s'.provides

/-- **Every statement of a run has its moment.** -/
theorem Ran.moment {statements : List Statement} {start final : SymbolTable} {outputs : List String}
    (h : Ran options statements start final outputs) (hstart : start.SelfContained)
    (hp : ∀ s ∈ statements, Term.placeholder ∉ s.provides) {i : Nat} {s : Statement}
    {output : String} (hs : statements[i]? = some s) (ho : outputs[i]? = some output) :
    ∃ seen next, Moment options statements start final i s seen next output := by
  induction h generalizing i with
  | nil => cases hs
  | @cons c rest table after final first later hrun hrest ih =>
    rw [List.forall_mem_cons] at hp
    cases i with
    | zero =>
      cases hs
      cases ho
      exact ⟨table, after, hrun, hstart, hrest.extension, fun name hname => .inl hname⟩
    | succ i =>
      rw [List.getElem?_cons_succ] at hs ho
      obtain ⟨seen, next, hmoment⟩ := ih (Statement.selfContained_run hrun hstart hp.1) hp.2 hs ho
      refine ⟨seen, next, hmoment.run, hmoment.selfContained, hmoment.extension,
        fun name hname => ?_⟩
      rcases hmoment.earlier name hname with hafter | ⟨j, hj, s', hs', hname'⟩
      · rcases ((Statement.run_grows hrun).defined_iff name).1 hafter with htable | hprovides
        · exact .inl htable
        · exact .inr ⟨0, Nat.succ_pos i, c, rfl, hprovides⟩
      · exact .inr ⟨j + 1, Nat.succ_lt_succ hj, s', hs', hname'⟩

end ProofKernel
