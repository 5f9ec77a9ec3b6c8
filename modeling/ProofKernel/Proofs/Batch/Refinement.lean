import ProofKernel.Proofs.Batch.Order
import ProofKernel.Proofs.Batch.Sequence

/-!
# Checking together refines running one by one

If a session accepts all commands of a package one after the other, then checking the package as a
whole accepts them too, with the same outputs, hints and registrations.

* `Moment.answer`: a query has the same answer at its moment and over the final table.
* `Reached` is the invariant of the layers: what is known after some of them is self-contained and
  part of what the session knows in the end.
* `Reached.accepts`: a declaration whose dependencies are in layers before it is judged as at its
  moment, so that `Reached` is kept by every layer.
* `Package.check_refines` is the statement.
-/

set_option autoImplicit false
namespace ProofKernel

open Batch

variable {options : Options} {statements : List Statement} {start final : SymbolTable}
  {outputs : List String}

/-! ## Moments -/

namespace Moment

variable {i : Nat} {s : Statement} {seen next : SymbolTable} {output : String}

theorem extension_seen (h : Moment options statements start final i s seen next output) :
    seen.Extends final :=
  (Statement.run_grows h.run).extension.trans h.extension

/-- A declaration was judged at its moment, and is registered as it was judged. -/
theorem judge {d : Declaration}
    (h : Moment options statements start final i (.declare d) seen next output) :
    output = "" ∧ ∃ layer, d.judge options seen = .ok layer ∧
      ∀ name ∈ d.provides, final.registration name = layer.registration name := by
  rcases Statement.run_eq_ok h.run with
    ⟨e, heq, hpub, houtput⟩ | ⟨_, heq, _⟩ | ⟨_, ⟨_, heq⟩ | ⟨_, heq⟩⟩
  · cases heq
    obtain ⟨⟨layer, hjudge⟩, hpublished⟩ := Declaration.published hpub
    refine ⟨houtput, layer, hjudge, fun name hname => ?_⟩
    have hnext : next.defined name = true :=
      ((Statement.run_grows h.run).defined_iff name).2 (.inr hname)
    rw [h.extension name hnext, hpublished.accepted d List.mem_cons_self layer hjudge name hname]
  all_goals cases heq

/-- **A query has the same answer at its moment and in the end.** -/
theorem answer (h : Moment options statements start final i s seen next output)
    (hfinal : final.SelfContained) (hs : s.isDeclaration = false) :
    s.answer options final = .ok output := by
  have hanswer : s.answer options seen = .ok output := by
    rw [Statement.answer, h.run]
    rfl
  have hshared : SymbolTable.Shared (seen.Common final []) seen final :=
    h.selfContained.shared hfinal (h.extension_seen.consistent (.refl final))
      fun _ hname => absurd hname List.not_mem_nil
  have hover : ∀ {t : Term}, t.Over seen.Knows → t.Over (seen.Common final []) := fun ht =>
    ht.mono fun l hl => by
      cases l with
      | hole => trivial
      | global n => exact hl.imp_right fun hn => .inr ⟨hn, h.extension_seen.defined hn⟩
  cases s with
  | declare d => cases hs
  | hint name =>
    rw [Statement.answer_hint] at hanswer ⊢
    split at hanswer
    · next hname => rw [if_pos (h.extension_seen.defined hname), hanswer]
    · cases hanswer
  | check t =>
    rw [Statement.answer_check] at hanswer ⊢
    obtain ⟨type, htype, _⟩ := Verdict.map_eq_ok_iff.1 hanswer
    have hinfer : infer options (.ofTable seen) t = infer options (.ofTable final) t :=
      (hshared.infer (hover (infer_known htype)) .nil).eq
    rw [← hinfer, hanswer]
  | eval t =>
    rw [Statement.answer_eval] at hanswer ⊢
    obtain ⟨type, htype, _⟩ := Verdict.map_eq_ok_iff.1 hanswer
    have ht := hover (infer_known htype)
    have hinfer : infer options (.ofTable seen) t = infer options (.ofTable final) t :=
      (hshared.infer ht .nil).eq
    have hnormal : normalize options seen t = normalize options final t := hshared.normalize ht
    rw [← hinfer, ← hnormal, hanswer]

end Moment

/-- A run in which the name of a binder type left out is not declared, from a self-contained
table. -/
structure Accepted (options : Options) (statements : List Statement) (start final : SymbolTable)
    (outputs : List String) : Prop where
  ran : Ran options statements start final outputs
  start : start.SelfContained
  placeholder : ∀ s ∈ statements, Term.placeholder ∉ s.provides

namespace Accepted

variable (h : Accepted options statements start final outputs)
include h

theorem moment {i : Nat} {s : Statement} (hs : statements[i]? = some s) :
    ∃ output, outputs[i]? = some output ∧
      ∃ seen next, Moment options statements start final i s seen next output := by
  obtain ⟨hlt, _⟩ := List.getElem?_eq_some_iff.1 hs
  rw [← h.ran.length_outputs] at hlt
  have ho := List.getElem?_eq_getElem hlt
  exact ⟨_, ho, h.ran.moment h.start h.placeholder hs ho⟩

/-- A declaration requires only names from the start and from statements before it. -/
theorem requires_earlier {i : Nat} {d : Declaration} (hd : statements[i]? = some (.declare d))
    {name : String} (hname : name ∈ (Statement.declare d).requires) :
    start.defined name = true ∨ ∃ j < i, ∃ s, statements[j]? = some s ∧ name ∈ s.provides := by
  obtain ⟨_, _, seen, next, hmoment⟩ := h.moment hd
  obtain ⟨_, layer, hjudge, _⟩ := hmoment.judge
  exact hmoment.earlier name (Declaration.requires_known hjudge hname)

/-- **Declarations depend on earlier positions**, so that there is no cycle. -/
theorem rest_eq_nil : (graphOf statements).layers.2 = [] := by
  obtain ⟨honce, hnew⟩ := h.ran.provides_once
  refine Graph.rest_eq_nil_of_lt fun i ds hmem j hj hkey => ?_
  obtain ⟨s, hs, hdecl, hneeds⟩ := mem_dependencyGraph honce hmem
  obtain ⟨d, rfl⟩ : ∃ d, s = .declare d := by
    cases s with
    | declare d => exact ⟨d, rfl⟩
    | _ => cases hdecl
  rw [graphOf, keys_dependencyGraph] at hkey
  obtain ⟨s', hs', _⟩ := mem_positions.1 hkey
  obtain ⟨name, hname, hprovides⟩ := Statement.needs_iff.1 ((hneeds j s' hs').1 hj)
  rcases h.requires_earlier hs hname with hstart | ⟨k, hk, r, hr, hname'⟩
  · rw [hnew s' (List.mem_of_getElem? hs') name hprovides] at hstart
    cases hstart
  · rwa [honce.position_eq hs' hr hprovides hname']

end Accepted

/-! ## Layers -/

/-- What is known after some layers of a package: it is self-contained, part of what the session
knows in the end, and has the names from the start and those of the layers. -/
structure Reached (statements : List Statement) (start final : SymbolTable)
    (done : List (List Nat)) (table : SymbolTable) : Prop where
  selfContained : table.SelfContained
  extension : table.Extends final
  defined_iff : ∀ name, table.defined name = true ↔ start.defined name = true ∨
    ∃ i ∈ done.flatten, ∃ s, statements[i]? = some s ∧ name ∈ s.provides

namespace Reached

variable {done after : List (List Nat)} {layer : List Nat} {table : SymbolTable} {i : Nat}
  {d : Declaration}

/-- The names of a declaration of the next layer are new. -/
theorem new (hr : Reached statements start final done table)
    (h : Accepted options statements start final outputs)
    (hsplit : (graphOf statements).layers.1 = done ++ layer :: after) (hi : i ∈ layer)
    (hd : statements[i]? = some (.declare d)) :
    ∀ name ∈ d.provides, table.defined name = false := by
  obtain ⟨honce, hnew⟩ := h.ran.provides_once
  intro name hname
  rw [← Bool.not_eq_true, hr.defined_iff]
  rintro (hstart | ⟨j, hj, s, hs, hname'⟩)
  · rw [hnew _ (List.mem_of_getElem? hd) name hname] at hstart
    cases hstart
  · -- a position is in one layer only
    have hnodup := (flatten_layers_perm h.rest_eq_nil).nodup_iff.2 (nodup_positions statements)
    rw [hsplit, List.flatten_append, List.nodup_append] at hnodup
    rw [honce.position_eq hs hd hname' hname] at hj
    exact hnodup.2.2 i hj i (List.mem_append_left _ hi) rfl

/-- What a declaration of the next layer requires is known. -/
theorem requires (hr : Reached statements start final done table)
    (h : Accepted options statements start final outputs)
    (hsplit : (graphOf statements).layers.1 = done ++ layer :: after) (hi : i ∈ layer)
    (hd : statements[i]? = some (.declare d)) {name : String}
    (hname : name ∈ (Statement.declare d).requires) : table.defined name = true := by
  obtain ⟨honce, _⟩ := h.ran.provides_once
  have hnodup : (graphOf statements).keys.Nodup := by
    rw [graphOf, keys_dependencyGraph]
    exact nodup_positions statements
  rw [hr.defined_iff]
  refine (h.requires_earlier hd hname).imp_right ?_
  rintro ⟨j, _, s, hs, hprovides⟩
  refine ⟨j, ?_, s, hs, hprovides⟩
  have hkey : i ∈ (graphOf statements).keys :=
    Graph.mem_keys_of_layer (hsplit ▸ List.mem_append_right _ List.mem_cons_self) hi
  obtain ⟨ds, hds⟩ := Graph.mem_keys.1 hkey
  obtain ⟨r, hr', _, hneeds⟩ := mem_dependencyGraph honce hds
  rw [hd] at hr'
  cases hr'
  have hj : j ∈ ds := (hneeds j s hs).2 (Statement.needs_iff.2 ⟨name, hname, hprovides⟩)
  refine Graph.mem_layers_before hnodup hsplit hi hds hj ?_
  rw [graphOf, keys_dependencyGraph, mem_positions]
  refine ⟨s, hs, ?_⟩
  cases s with
  | declare => rfl
  | _ => cases hprovides

/-- **A declaration of the next layer is judged as the session judged it.** -/
theorem accepts (hr : Reached statements start final done table)
    (h : Accepted options statements start final outputs)
    (hsplit : (graphOf statements).layers.1 = done ++ layer :: after) (hi : i ∈ layer)
    (hd : statements[i]? = some (.declare d)) :
    ∃ judged, d.judge options table = .ok judged ∧
      ∀ name ∈ d.provides, final.registration name = judged.registration name := by
  obtain ⟨_, _, seen, next, hmoment⟩ := h.moment hd
  obtain ⟨_, judged, hjudge, hregistered⟩ := hmoment.judge
  have hnew : ∀ name ∈ d.provides, seen.defined name = false ∧ table.defined name = false :=
    fun name hname => ⟨(Declaration.registers_of_judge hjudge).1 name hname,
      hr.new h hsplit hi hd name hname⟩
  have hshared := hmoment.selfContained.shared hr.selfContained
    (hmoment.extension_seen.consistent hr.extension) hnew
  have hover : d.Over (seen.Common table d.provides) := by
    refine ⟨fun name hname => .inr (.inl hname), fun t ht l hl => ?_⟩
    have hknown := (Declaration.known_of_judge hjudge).terms t ht l hl
    cases l with
    | hole => trivial
    | global name =>
      rcases hknown with hplaceholder | hprovides | ⟨hseen, _⟩
      · exact .inl hplaceholder
      · exact .inr (.inl hprovides)
      · by_cases hprovides : name ∈ d.provides
        · exact .inr (.inl hprovides)
        by_cases hplaceholder : name = Term.placeholder
        · exact .inl hplaceholder
        have hrequired := Declaration.mem_requires hjudge ht hl hprovides hplaceholder
        exact .inr (.inr ⟨hseen, hr.requires h hsplit hi hd hrequired⟩)
  refine ⟨judged, ?_, hregistered⟩
  rw [← hshared.judge hover, hjudge]

/-- **Every layer is accepted and keeps the invariant.** -/
theorem publish (hr : Reached statements start final done table)
    (h : Accepted options statements start final outputs)
    (hsplit : (graphOf statements).layers.1 = done ++ layer :: after) {next : SymbolTable}
    (hpub : Published options table (declarationsIn statements layer) table next) :
    Reached statements start final (done ++ [layer]) next ∧
      ∀ d ∈ declarationsIn statements layer, rejection? (d.judge options table) = none := by
  have hat : ∀ {d : Declaration}, d ∈ declarationsIn statements layer →
      ∃ i ∈ layer, statements[i]? = some (.declare d) := by
    intro d hd
    obtain ⟨⟨i, e⟩, hmem, rfl⟩ := List.mem_map.1 hd
    exact ⟨i, mem_declarationsOf.1 hmem⟩
  have haccepted : ∀ d ∈ declarationsIn statements layer, ∃ judged,
      d.judge options table = .ok judged ∧
        ∀ name ∈ d.provides, final.registration name = judged.registration name := by
    intro d hd
    obtain ⟨i, hi, hget⟩ := hat hd
    exact hr.accepts h hsplit hi hget
  refine ⟨⟨hpub.selfContained hr.selfContained fun d hd => ?_, fun name hname => ?_,
    fun name => ?_⟩, fun d hd => ?_⟩
  · obtain ⟨i, _, hget⟩ := hat hd
    exact h.placeholder _ (List.mem_of_getElem? hget)
  · rcases hpub.defined_iff.1 hname with htable | ⟨d, hd, _, hmem⟩
    · rw [hpub.extension name htable, hr.extension name htable]
    · obtain ⟨judged, hjudge, hregistered⟩ := haccepted d hd
      rw [hregistered name hmem, hpub.accepted d hd judged hjudge name hmem]
  · rw [hpub.defined_iff, hr.defined_iff, or_assoc, List.flatten_append, List.flatten_singleton]
    refine or_congr_right ⟨?_, ?_⟩
    · rintro (⟨i, hi, hs⟩ | ⟨d, hd, _, hname⟩)
      · exact ⟨i, List.mem_append_left _ hi, hs⟩
      · obtain ⟨i, hi, hget⟩ := hat hd
        exact ⟨i, List.mem_append_right _ hi, _, hget, hname⟩
    · rintro ⟨i, hi, s, hs, hname⟩
      refine (List.mem_append.1 hi).imp (fun hi => ⟨i, hi, s, hs, hname⟩) fun hi => ?_
      obtain ⟨d, rfl⟩ : ∃ d, s = .declare d := by
        cases s with
        | declare d => exact ⟨d, rfl⟩
        | _ => cases hname
      have hd : d ∈ declarationsIn statements layer :=
        List.mem_map.2 ⟨(i, d), mem_declarationsOf.2 ⟨hi, hs⟩, rfl⟩
      obtain ⟨judged, hjudge, _⟩ := haccepted d hd
      exact ⟨d, hd, ⟨judged, hjudge⟩, hname⟩
  · obtain ⟨judged, hjudge, _⟩ := haccepted d hd
    rw [hjudge, rejection?_ok]

/-- A run through the remaining layers keeps the invariant, and rejects nothing. -/
theorem checked (hr : Reached statements start final done table)
    (h : Accepted options statements start final outputs) {todo : List (List Nat)}
    (hsplit : (graphOf statements).layers.1 = done ++ todo)
    {errors : Declaration → Option KernelError} {last : SymbolTable}
    (hchecked : Checked options errors (todo.map (declarationsIn statements)) table last) :
    Reached statements start final (done ++ todo) last ∧
      ∀ d ∈ (todo.map (declarationsIn statements)).flatten, errors d = none := by
  induction todo generalizing done table with
  | nil =>
    cases hchecked
    rw [List.append_nil]
    exact ⟨hr, nofun⟩
  | cons layer rest ih =>
    rw [List.map_cons] at hchecked ⊢
    cases hchecked with
    | cons hpub herrors hlater =>
      obtain ⟨hnext, hnone⟩ := hr.publish h hsplit hpub
      rw [List.append_cons] at hsplit ⊢
      obtain ⟨hlast, hrest⟩ := ih hnext hsplit hlater
      refine ⟨hlast, List.forall_mem_append.2 ⟨fun d hd => ?_, hrest⟩⟩
      rw [herrors d hd, hnone d hd]

/-- What is known after all layers is what the session knows in the end. -/
theorem alike (hr : Reached statements start final (graphOf statements).layers.1 table)
    (h : Accepted options statements start final outputs) : table.Alike final := by
  intro name
  by_cases hname : table.defined name = true
  · exact (hr.extension name hname).symm
  · have hfinal : ¬final.defined name = true := by
      rw [h.ran.defined_iff, List.mem_flatMap]
      rintro (hstart | ⟨s, hs, hprovides⟩)
      · exact hname ((hr.defined_iff name).2 (.inl hstart))
      · obtain ⟨i, hi⟩ := List.mem_iff_getElem?.1 hs
        refine hname ((hr.defined_iff name).2 (.inr ⟨i, ?_, s, hi, hprovides⟩))
        refine (flatten_layers_perm h.rest_eq_nil).mem_iff.2 (mem_positions.2 ⟨s, hi, ?_⟩)
        cases s with
        | declare => rfl
        | _ => cases hprovides
    rw [Bool.not_eq_true, SymbolTable.defined_eq_false_iff] at hname hfinal
    rw [hname, hfinal]

end Reached

/-! ## Hints -/

/-- The hints after queries that are all answered. -/
theorem hints_runQueries {queries : List (Nat × Statement)} {table : SymbolTable}
    (h : ∀ q ∈ queries, q.2.isDeclaration = false)
    (hok : ∀ q ∈ queries, ∃ output, q.2.answer options table = .ok output) :
    (runQueries options table queries).value.1.hints =
      (queries.map Prod.snd).foldl Statement.hintsAfter table.hints := by
  induction queries generalizing table with
  | nil => rfl
  | cons q rest ih =>
    obtain ⟨i, s⟩ := q
    rw [List.forall_mem_cons] at h hok
    obtain ⟨⟨output, hanswer⟩, hok⟩ := hok
    obtain ⟨⟨next, printed⟩, hrun, _⟩ := Verdict.map_eq_ok_iff.1 hanswer
    have halike := Statement.alike_run h.1 hrun
    have hrest := @ih next h.2 fun q hq => by
      rw [halike.answer (h.2 q hq)]
      exact hok q hq
    simp only [runQueries, Traced.value_bind, hrun]
    rw [List.map_cons, List.foldl_cons, ← Statement.hints_run hrun]
    exact hrest

theorem map_snd_queriesOf (statements : List Statement) :
    (queriesOf statements).map Prod.snd = statements.filter fun s => !s.isDeclaration := by
  rw [queriesOf, List.map_map, ← List.zipIdx_map_fst 0 statements, List.filter_map,
    List.zipIdx_map_fst]
  rfl

/-- Declarations do not matter for the hints. -/
theorem foldl_hintsAfter_filter (hints : List String) :
    (statements.filter fun s => !s.isDeclaration).foldl Statement.hintsAfter hints =
      statements.foldl Statement.hintsAfter hints := by
  induction statements generalizing hints with
  | nil => rfl
  | cons s rest ih => cases s <;> exact ih _

/-! ## Packages -/

namespace Package

variable {p : Package}

/-- What a report says of a command that a session accepted. -/
theorem result_eq {last : SymbolTable} {errors : Declaration → Option KernelError}
    (h : Accepted options statements start final outputs) (hlast : last.Alike final)
    (hnone : ∀ d ∈ declared statements, errors d = none) {i : Nat} {s : Statement}
    (hs : statements[i]? = some s) :
    ∃ output, outputs[i]? = some output ∧ s.result options last errors = (output, none) := by
  obtain ⟨output, ho, seen, next, hmoment⟩ := h.moment hs
  refine ⟨output, ho, ?_⟩
  cases hdecl : s.isDeclaration with
  | true =>
    cases s with
    | declare d =>
      have hd : d ∈ declared statements :=
        List.mem_filterMap.2 ⟨_, List.mem_of_getElem? hs, rfl⟩
      rw [Statement.result, hnone d hd, hmoment.judge.1]
    | _ => cases hdecl
  | false =>
    have hfinal := h.ran.selfContained h.start h.placeholder
    rw [Statement.result_query hdecl, hlast.answer hdecl, hmoment.answer hfinal hdecl]

/-- The queries that a session answered leave its hints, if they are run over what it knows. -/
theorem hints_eq {last : SymbolTable} (h : Accepted options statements start final outputs)
    (hlast : last.Alike final) (hhints : last.hints = start.hints) :
    (runQueries options last (queriesOf statements)).value.1.hints = final.hints := by
  have hfinal := h.ran.selfContained h.start h.placeholder
  have hok : ∀ q ∈ queriesOf statements, ∃ output, q.2.answer options last = .ok output := by
    rintro ⟨i, q⟩ hq
    obtain ⟨hget, hdecl⟩ := mem_queriesOf.1 hq
    obtain ⟨output, _, seen, next, hmoment⟩ := h.moment hget
    exact ⟨output, by rw [hlast.answer hdecl, hmoment.answer hfinal hdecl]⟩
  calc (runQueries options last (queriesOf statements)).value.1.hints
      = ((queriesOf statements).map Prod.snd).foldl Statement.hintsAfter last.hints :=
        hints_runQueries (fun q hq => (mem_queriesOf.1 hq).2) hok
    _ = statements.foldl Statement.hintsAfter start.hints := by
        rw [map_snd_queriesOf, foldl_hintsAfter_filter, hhints]
    _ = final.hints := h.ran.hints_eq.symm

/-- The outcomes of a package whose commands a session accepted. -/
theorem outcomes_eq {f : Command × Nat → String × Option KernelError}
    (hf : ∀ i c, p.commands[i]? = some c → ∃ output, outputs[i]? = some output ∧
      f (c, i) = (output, none)) (hlength : outputs.length = p.commands.length) :
    (p.commands.zipIdx.map fun q => (f q).1) = outputs ∧
      ∀ q ∈ p.commands.zipIdx, (f q).2 = none := by
  constructor
  · refine List.ext_getElem? fun i => ?_
    rw [List.getElem?_map, List.getElem?_zipIdx]
    cases hc : p.commands[i]? with
    | none =>
      rw [List.getElem?_eq_none_iff, ← hlength, ← List.getElem?_eq_none_iff] at hc
      rw [hc]
      rfl
    | some c =>
      obtain ⟨output, ho, hfc⟩ := hf i c hc
      rw [ho]
      simp [hfc]
  · rintro ⟨c, i⟩ hq
    obtain ⟨output, _, hfc⟩ := hf i c (List.mem_zipIdx_iff_getElem?.1 hq)
    rw [hfc]

/-- **Checking a package refines running its commands in a session.**  Where a session accepts all
commands one after the other, and none declares the name of a binder type left out, the package is
accepted with the same outputs and hints, and everything that can be looked up is the same. -/
theorem check_refines {persistent : Bool} {s final : Session}
    (hp : ∀ c ∈ p.commands, Term.placeholder ∉ c.statement.provides)
    (hstart : (Session.start options true persistent).value = .ok s)
    (hrun : s.runAll (p.commands.map (·.statement)) = .ok (final, outputs)) :
    ∃ report, (p.check options true false).value = .ok report ∧ report.failed = [] ∧
      report.outcomes.map (·.command) = p.commands ∧
      report.outcomes.map (·.output) = outputs ∧
      report.table.hints = final.table.hints ∧
      ∀ name, report.table.registration name = final.table.registration name := by
  obtain ⟨table, htable, rfl⟩ := Session.start_eq_ok_iff.1 hstart
  have hran := Session.ran_runAll hrun
  have h : Accepted options p.statements table final.table outputs := by
    refine ⟨hran, initialTable_selfContained htable, fun s hs => ?_⟩
    obtain ⟨c, hc, rfl⟩ := List.mem_map.1 hs
    exact hp c hc
  have honce : p.ProvidesOnce options true := by
    refine ⟨hran.provides_once.1, fun table' htable' => ?_⟩
    rw [htable] at htable'
    cases htable'
    exact hran.provides_once.2
  have hflat := flatten_layers_perm h.rest_eq_nil
  -- the layers are checked to the end
  obtain ⟨errors, hchecked, halike, houtcomes⟩ :=
    @outcomes_reportOn options table p _ honce.once hran.provides_once.2 hflat
  have hbase : Reached p.statements table final.table [] table :=
    ⟨h.start, hran.extension, fun name => by simp⟩
  obtain ⟨hreached, herrors⟩ := hbase.checked h (List.nil_append _).symm hchecked
  have hlast := hreached.alike h
  have hnone : ∀ d ∈ declared p.statements, errors d = none := fun d hd =>
    herrors d ((flatten_declarationsIn_perm honce.once hflat).mem_iff.2 hd)
  have hresult := @outcomes_eq outputs p (fun q => q.1.statement.result options
    (checkLayers options p.statements table 0 (graphOf p.statements).layers.1).value.1 errors)
    (fun i c hc => result_eq h hlast hnone (by rw [statements, List.getElem?_map, hc]; rfl))
    (by rw [hran.length_outputs, List.length_map])
  refine ⟨p.reportOn options table (graphOf p.statements).layers.1, ?_, ?_, commands_reportOn _, ?_,
    ?_, halike.trans hlast⟩
  · rw [check_value]
    rcases @checkIn_eq options true false table p honce htable id with ⟨hleft, _⟩ | ⟨_, hcheck⟩
    · exact absurd h.rest_eq_nil hleft
    · rw [hcheck]
      rfl
  · rw [Report.failed, houtcomes, List.filter_eq_nil_iff]
    intro o ho
    obtain ⟨q, hq, rfl⟩ := List.mem_map.1 ho
    simp [hresult.2 q hq]
  · rw [houtcomes, List.map_map]
    exact hresult.1
  · exact hints_eq h hlast hchecked.hints_eq

/-- A definition that is hinted at and asked for. -/
theorem check_refines_three :
    let define : Command :=
      ⟨⟨0, 1, 1⟩, [], .declare (.definition "T" (some (.sort .prop)) (.global "True"))⟩
    let hint : Command := ⟨⟨0, 2, 1⟩, [], .hint "T"⟩
    let ask : Command := ⟨⟨0, 3, 1⟩, [], .check (.global "T")⟩
    let p : Package := ⟨[⟨"a", [define]⟩, ⟨"b", [hint, ask]⟩]⟩
    ∃ s final report, (Session.start ⟨100, false, false, false⟩ true false).value = .ok s ∧
      s.runAll (p.commands.map (·.statement)) = .ok (final, ["", "", "T : Prop"]) ∧
      (p.check ⟨100, false, false, false⟩ true false).value = .ok report ∧
      report.outcomes.map (·.output) = ["", "", "T : Prop"] ∧
      report.table.hints = final.table.hints := by
  intro define hint ask p
  obtain ⟨table, htable, houtputs⟩ :=
    Verdict.exists_ok_of_any (v := initialTable ⟨100, false, false, false⟩ true)
      (P := fun table => ((⟨⟨100, false, false, false⟩, true, table⟩ : Session).runAll
        (p.commands.map (·.statement))).toOption.map (·.2) = some ["", "", "T : Prop"])
      (by decide +kernel)
  have hstart : (Session.start ⟨100, false, false, false⟩ true false).value =
      .ok ⟨⟨100, false, false, false⟩, true, table⟩ :=
    Session.start_eq_ok_iff.2 ⟨table, htable, rfl⟩
  cases hrun : (⟨⟨100, false, false, false⟩, true, table⟩ : Session).runAll
    (p.commands.map (·.statement)) with
  | error e => simp [hrun, Except.toOption] at houtputs
  | ok result =>
    obtain ⟨final, outputs⟩ := result
    obtain rfl : outputs = ["", "", "T : Prop"] := by
      simpa [hrun, Except.toOption] using houtputs
    obtain ⟨report, hcheck, _, _, hprinted, hhints, _⟩ := check_refines (by decide) hstart hrun
    exact ⟨_, final, report, hstart, hrun, hcheck, hprinted, hhints⟩

end Package
end ProofKernel
