import ProofKernel.Proofs.Batch.Order
import ProofKernel.Proofs.Batch.Sequence

/-!
# A report agrees with its table

A declaration can drop out in three places: it is set aside before the layers are computed, it is
rejected on its fork, or its fork cannot be published.  In each of them it gets an error, and
otherwise its names are registered, once.

* `Committed` is a run of publications with the errors that declarations dropped out for.
  `Committed.names`: what it adds to the names of a table are those of the declarations that did
  not drop out.
* `Batch.committed_checkLayers`: checking layers is such a run, over all of their declarations.
* `Batch.mem_flatten_iff`: a declaration is in one of the layers iff it was not set aside.
* `Report.Agrees` says that a report agrees with its table, and `Package.check_agrees` that every
  report does.
-/

set_option autoImplicit false
namespace ProofKernel

open Batch

variable {options : Options} {start table table' final : SymbolTable}

/-! ## Tables that list what they know -/

/-- A table lists the names that are registered in it, each once. -/
structure SymbolTable.Listed (table : SymbolTable) : Prop where
  once : table.names.Nodup
  listed : ∀ name, name ∈ table.names ↔ table.defined name = true

namespace SymbolTable

theorem Grounded.names_listed (h : table.Grounded) : table.Listed :=
  ⟨h.nodup, h.listed⟩

theorem Listed.congr (h : table.Listed) (hnames : table'.names = table.names)
    (halike : table'.Alike table) : table'.Listed where
  once := hnames ▸ h.once
  listed := fun name => by rw [hnames, h.listed, halike.defined]

theorem listed_initialTable {withPrelude : Bool}
    (h : (initialTable options withPrelude).outcome = .ok table) : table.Listed := by
  cases withPrelude with
  | true => exact (initialTable_grounded h).1.names_listed
  | false =>
    obtain rfl : SymbolTable.empty = table := Except.ok.inj h
    exact Grounded.empty.names_listed

variable {layer : Layer}

theorem extends_publish (htidy : layer.Tidy) (hpub : table.publish layer = .ok table') :
    table.Extends table' := by
  intro name hname
  rw [registration_publish_eq htidy hpub, if_neg]
  intro hmem
  rw [(publish_eq_ok_iff.1 hpub).1 name hmem] at hname
  cases hname

/-- A published layer is listed after the names that were there. -/
theorem Listed.publish (h : table.Listed) (htidy : layer.Tidy) (hnodup : layer.order.Nodup)
    (hpub : table.publish layer = .ok table') : table'.Listed where
  once := by
    rw [names_publish hpub, List.nodup_append]
    refine ⟨h.once, hnodup, fun a ha b hb heq => ?_⟩
    rw [heq, h.listed, (publish_eq_ok_iff.1 hpub).1 b hb] at ha
    cases ha
  listed := fun name => by
    rw [names_publish hpub, List.mem_append, h.listed, ← Bool.not_eq_false, ← Bool.not_eq_false,
      defined_eq_false_iff, defined_eq_false_iff, registration_publish_eq htidy hpub]
    split
    · next hmem =>
      have hnone : layer.registration name ≠ .none := fun hnone => (htidy.listed name).1 hnone hmem
      exact ⟨fun _ => hnone, fun _ => .inr hmem⟩
    · next hmem => exact or_iff_left hmem

/-- A name that is not among the new ones is known as it was. -/
theorem Listed.registration_eq_or_mem (h : table.Listed) (h' : table'.Listed)
    (hextends : table.Extends table') {new : List String}
    (hnames : table'.names = table.names ++ new) (name : String) :
    table'.registration name = table.registration name ∨ name ∈ new := by
  cases hold : table.defined name with
  | true => exact .inl (hextends name hold)
  | false =>
    refine or_iff_not_imp_left.2 fun hne => ?_
    have hdefined : table'.defined name = true := by
      rw [← Bool.not_eq_false, defined_eq_false_iff]
      exact fun hnone => hne (hnone.trans (defined_eq_false_iff.1 hold).symm)
    rw [← h'.listed, hnames, List.mem_append, h.listed, hold] at hdefined
    exact hdefined.resolve_left Bool.false_ne_true

end SymbolTable

/-- What is judged for a declaration lists the names it provides. -/
theorem Declaration.tidy_of_judge {d : Declaration} {layer : Layer}
    (h : d.judge options table = .ok layer) :
    layer.Tidy ∧ layer.order = d.provides ∧ d.provides.Nodup := by
  obtain ⟨staged, hstage, rfl⟩ := Verdict.map_eq_ok_iff.1 h
  obtain ⟨⟨T, _, rfl⟩, hnodup, _⟩ := stage_eq_ok hstage
  exact ⟨tidy_layer hnodup T, order_layer T d, hnodup⟩

/-! ## Runs of publications -/

/-- Declarations that are published one after the other, with the errors of those that drop out.
Each was judged over a table between `start` and the one it is published into. -/
inductive Committed (options : Options) (start : SymbolTable) :
    List (Nat × Declaration) → SymbolTable → SymbolTable → Errors → Prop
  | nil (table : SymbolTable) : Committed options start [] table table []
  | accepted {i : Nat} {d : Declaration} {rest : List (Nat × Declaration)}
      {seen table next final : SymbolTable} {layer : Layer} {errors : Errors}
      (hstart : start.Extends seen) (hseen : seen.Extends table)
      (hjudge : d.judge options seen = .ok layer) (hpub : table.publish layer = .ok next)
      (hrest : Committed options start rest next final errors) :
      Committed options start ((i, d) :: rest) table final errors
  | rejected {i : Nat} {d : Declaration} {rest : List (Nat × Declaration)}
      {table final : SymbolTable} {errors : Errors} (e : KernelError)
      (hrest : Committed options start rest table final errors) :
      Committed options start ((i, d) :: rest) table final ((i, e) :: errors)

/-- The declarations that have no error. -/
def Batch.published (errors : Errors) (items : List (Nat × Declaration)) :
    List (Nat × Declaration) :=
  items.filter fun q => (errors.lookup q.1).isNone

namespace Committed

variable {items items' : List (Nat × Declaration)} {errors errors' : Errors}

theorem append (h : Committed options start items table table' errors)
    (h' : Committed options start items' table' final errors') :
    Committed options start (items ++ items') table final (errors ++ errors') := by
  induction h with
  | nil => exact h'
  | accepted hstart hseen hjudge hpub _ ih => exact .accepted hstart hseen hjudge hpub (ih h')
  | rejected e _ ih => exact .rejected e (ih h')

/-- Only declarations of the run have errors. -/
theorem lookup_eq_none (h : Committed options start items table final errors) {i : Nat}
    (hi : i ∉ items.map Prod.fst) : errors.lookup i = none := by
  refine ProofKernel.lookup_eq_none fun e he => hi ?_
  clear hi
  induction h with
  | nil => cases he
  | accepted _ _ _ _ _ ih => exact List.mem_cons_of_mem _ (ih he)
  | rejected _ _ ih =>
    rcases List.mem_cons.1 he with heq | he
    · cases heq
      exact List.mem_cons_self
    · exact List.mem_cons_of_mem _ (ih he)

theorem extends_final (h : Committed options start items table final errors) :
    table.Extends final := by
  induction h with
  | nil => exact .refl _
  | accepted _ _ hjudge hpub _ ih =>
    exact (SymbolTable.extends_publish (Declaration.tidy_of_judge hjudge).1 hpub).trans ih
  | rejected _ _ ih => exact ih

theorem listed (h : Committed options start items table final errors) (hlisted : table.Listed) :
    final.Listed := by
  induction h with
  | nil => exact hlisted
  | accepted _ _ hjudge hpub _ ih =>
    obtain ⟨htidy, horder, hnodup⟩ := Declaration.tidy_of_judge hjudge
    exact ih (hlisted.publish htidy (horder ▸ hnodup) hpub)
  | rejected _ _ ih => exact ih hlisted

/-- A declaration that drops out at a position of its own is not among the published ones. -/
theorem published_rejected {i : Nat} {d : Declaration} (e : KernelError)
    (hi : i ∉ items.map Prod.fst) :
    published ((i, e) :: errors) ((i, d) :: items) = published errors items := by
  rw [published, List.filter_cons_of_neg (by simp)]
  refine List.filter_congr fun q hq => ?_
  have hne : (q.1 == i) = false := beq_false_of_ne fun heq => hi (heq ▸ List.mem_map_of_mem hq)
  rw [List.lookup_cons, hne]

/-- One that does not is. -/
theorem published_accepted (h : Committed options start items table final errors) {i : Nat}
    (hi : i ∉ items.map Prod.fst) (d : Declaration) :
    published errors ((i, d) :: items) = (i, d) :: published errors items :=
  List.filter_cons_of_pos (by rw [h.lookup_eq_none hi]; rfl)

/-- **A run adds the names of the declarations that did not drop out.** -/
theorem names (h : Committed options start items table final errors)
    (hnodup : (items.map Prod.fst).Nodup) :
    final.names = table.names ++ (published errors items).flatMap (·.2.provides) := by
  induction h with
  | nil => exact (List.append_nil _).symm
  | accepted _ _ hjudge hpub hrest ih =>
    obtain ⟨hi, hnodup⟩ := List.nodup_cons.1 hnodup
    rw [ih hnodup, SymbolTable.names_publish hpub, (Declaration.tidy_of_judge hjudge).2.1,
      hrest.published_accepted hi, List.flatMap_cons, List.append_assoc]
  | rejected e _ ih =>
    obtain ⟨hi, hnodup⟩ := List.nodup_cons.1 hnodup
    rw [ih hnodup, published_rejected e hi]

/-- **A declaration that did not drop out is registered as it was judged.** -/
theorem registration (h : Committed options start items table final errors)
    (hnodup : (items.map Prod.fst).Nodup) {q : Nat × Declaration}
    (hq : q ∈ published errors items) :
    ∃ seen layer, start.Extends seen ∧ seen.Extends final ∧
      q.2.judge options seen = .ok layer ∧
      ∀ name ∈ q.2.provides, final.registration name = layer.registration name := by
  induction h with
  | nil => cases hq
  | @accepted _ _ _ _ _ next _ _ _ hstart hseen hjudge hpub hrest ih =>
    obtain ⟨hi, hnodup⟩ := List.nodup_cons.1 hnodup
    rw [hrest.published_accepted hi] at hq
    rcases List.mem_cons.1 hq with rfl | hq
    · obtain ⟨htidy, horder, _⟩ := Declaration.tidy_of_judge hjudge
      have hnext := SymbolTable.extends_publish htidy hpub
      refine ⟨_, _, hstart, (hseen.trans hnext).trans hrest.extends_final, hjudge,
        fun name hname => ?_⟩
      have hreg := SymbolTable.registration_publish_eq htidy hpub name
      rw [horder, if_pos hname] at hreg
      have hdefined : next.defined name = true := by
        rw [← Bool.not_eq_false, SymbolTable.defined_eq_false_iff, hreg, htidy.listed, horder]
        exact fun hnot => hnot hname
      rw [hrest.extends_final name hdefined, hreg]
    · exact ih hnodup hq
  | rejected e _ ih =>
    obtain ⟨hi, hnodup⟩ := List.nodup_cons.1 hnodup
    rw [published_rejected e hi] at hq
    exact ih hnodup hq

end Committed

namespace Batch

variable {statements : List Statement}

/-- Publishing the forks of a layer is a run of publications. -/
theorem committed_publishLayer {seen : SymbolTable} {items : List (Nat × Declaration)}
    (hstart : start.Extends seen) (hseen : seen.Extends table) :
    let result := publishLayer table
      (items.map fun q => (q.1, (q.2.stage options (.ofTable seen)).outcome))
    Committed options start items table result.1 result.2 := by
  induction items generalizing table with
  | nil => exact .nil table
  | cons q rest ih =>
    obtain ⟨i, d⟩ := q
    rw [List.map_cons]
    cases hstage : (d.stage options (.ofTable seen)).outcome with
    | error e => exact .rejected e (ih hseen)
    | ok staged =>
      have hjudge := judge_eq_of_stage hstage
      cases hpub : table.publish staged.own with
      | error e =>
        dsimp only
        rw [publishLayer, hpub]
        exact .rejected e (ih hseen)
      | ok next =>
        have hnext := SymbolTable.extends_publish (Declaration.tidy_of_judge hjudge).1 hpub
        dsimp only
        rw [publishLayer, hpub]
        exact .accepted hstart hseen hjudge hpub (ih (hseen.trans hnext))

/-- **Checking layers is a run of publications**, over the declarations of all of them. -/
theorem committed_checkLayers {depth : Nat} {layers : List (List Nat)}
    (hstart : start.Extends table) :
    let checked := (checkLayers options statements table depth layers).value
    Committed options start (layers.flatMap (declarationsOf statements)) table checked.1
      checked.2 := by
  induction layers generalizing table depth with
  | nil => exact .nil table
  | cons layer rest ih =>
    have hhere := @committed_publishLayer options start table table
      (declarationsOf statements layer) hstart (.refl table)
    rw [value_checkLayers_cons]
    exact hhere.append (ih (hstart.trans hhere.extends_final))

/-! ## Declarations set aside -/

/-- Setting declarations aside leaves every other statement in its place. -/
theorem getElem?_rejectDuplicates (table : SymbolTable) (seen : List String) {i : Nat}
    {s : Statement} (hget : statements[i]? = some s) :
    ∃ r, (rejectDuplicates table seen statements)[i]? = some r ∧
      (r = .ok s ∨ ∃ e, r = .error e) := by
  induction statements generalizing seen i with
  | nil => cases hget
  | cons s' rest ih =>
    have hsplit : ∃ r seen', rejectDuplicates table seen (s' :: rest) =
        r :: rejectDuplicates table seen' rest ∧ (r = .ok s' ∨ ∃ e, r = .error e) := by
      rw [rejectDuplicates]
      split
      · dsimp only
        split
        · exact ⟨_, _, rfl, .inr ⟨_, rfl⟩⟩
        · exact ⟨_, _, rfl, .inl rfl⟩
      · exact ⟨_, _, rfl, .inl rfl⟩
    obtain ⟨r, seen', heq, hr⟩ := hsplit
    rw [heq]
    cases i with
    | zero =>
      cases hget
      exact ⟨r, rfl, hr⟩
    | succ i => exact ih seen' hget

/-- The errors of the declarations that were set aside. -/
def setAside (kept : List (Except KernelError Statement)) : Errors :=
  kept.zipIdx.filterMap fun (r, i) =>
    match r with
    | .error e => some (i, e)
    | .ok _ => none

theorem mem_setAside {kept : List (Except KernelError Statement)} {i : Nat} {e : KernelError} :
    (i, e) ∈ setAside kept ↔ kept[i]? = some (.error e) := by
  unfold setAside
  rw [List.mem_filterMap]
  constructor
  · rintro ⟨⟨r, j⟩, hmem, hsome⟩
    have hget := List.mem_zipIdx_iff_getElem?.1 hmem
    cases r with
    | ok s => cases hsome
    | error e' =>
      cases hsome
      exact hget
  · intro hget
    exact ⟨(.error e, i), List.mem_zipIdx_iff_getElem?.2 hget, rfl⟩

theorem lookup_setAside_eq_none_iff {kept : List (Except KernelError Statement)} {i : Nat} :
    (setAside kept).lookup i = none ↔ ∀ e, kept[i]? ≠ some (.error e) := by
  constructor
  · intro hnone e he
    rw [lookup_eq_some (mem_setAside.2 he) fun e' he' => ?_] at hnone
    · cases hnone
    · have heq := mem_setAside.1 he'
      rw [he] at heq
      cases heq
      rfl
  · exact fun h => lookup_eq_none fun e he => h e (mem_setAside.1 he)

/-- The layers hold the positions of the declarations, each once. -/
theorem flatten_declarationLayers_perm {entries : List (Option Statement)}
    {layers : List (List Nat)} (h : declarationLayers entries = .ok layers) :
    layers.flatten.Perm ((declarationsAt entries).map Prod.fst) := by
  rw [declarationLayers_eq] at h
  split at h
  · next hrest =>
    cases h
    have hperm := (dependencyGraph (declarationsAt entries)).layers_perm
    rwa [hrest, map_fst_dependencyGraph, Graph.keys, List.map_nil, List.append_nil] at hperm
  · cases h

/-- **A declaration is in one of the layers iff it was not set aside.** -/
theorem mem_flatten_iff {layers : List (List Nat)} {i : Nat} {d : Declaration}
    (hlayers : declarationLayers ((rejectDuplicates table [] statements).map Except.toOption) =
      .ok layers)
    (hget : statements[i]? = some (.declare d)) :
    i ∈ layers.flatten ↔ (setAside (rejectDuplicates table [] statements)).lookup i = none := by
  obtain ⟨r, hr, hkept⟩ := getElem?_rejectDuplicates table [] hget
  rw [(flatten_declarationLayers_perm hlayers).mem_iff, lookup_setAside_eq_none_iff, hr,
    List.mem_map]
  have hentry : ((rejectDuplicates table [] statements).map Except.toOption)[i]? =
      some r.toOption := by
    rw [List.getElem?_map, hr, Option.map_some]
  constructor
  · rintro ⟨⟨j, s⟩, hmem, rfl⟩ e heq
    rw [(mem_declarationsAt_iff.1 hmem).1] at hentry
    cases heq
    cases hentry
  · intro hnone
    rcases hkept with rfl | ⟨e, rfl⟩
    · exact ⟨(i, .declare d), mem_declarationsAt_iff.2 ⟨hentry, rfl⟩, rfl⟩
    · exact absurd rfl (hnone e)

theorem declarationsOf_flatten (layers : List (List Nat)) :
    layers.flatMap (declarationsOf statements) = declarationsOf statements layers.flatten := by
  unfold declarationsOf
  rw [List.filterMap_flatten, List.flatMap_def]

theorem mem_published {errors : Errors} {layers : List (List Nat)} {i : Nat} {d : Declaration} :
    (i, d) ∈ published errors (layers.flatMap (declarationsOf statements)) ↔
      (i ∈ layers.flatten ∧ statements[i]? = some (.declare d)) ∧ errors.lookup i = none := by
  rw [published, List.mem_filter, declarationsOf_flatten, mem_declarationsOf,
    Option.isNone_iff_eq_none]

/-- No declaration is in two layers. -/
theorem nodup_declarationsOf (statements : List Statement) {layers : List (List Nat)}
    (h : layers.flatten.Nodup) :
    ((layers.flatMap (declarationsOf statements)).map Prod.fst).Nodup := by
  rw [declarationsOf_flatten, declarationsOf, List.Nodup, List.pairwise_map]
  refine List.pairwise_filterMap.2 (h.imp fun {i j} hne p hp q hq => ?_)
  obtain ⟨_, _, rfl⟩ := Option.map_eq_some_iff.1 hp
  obtain ⟨_, _, rfl⟩ := Option.map_eq_some_iff.1 hq
  exact hne

/-- Queries register no names. -/
theorem names_runQueries {queries : List (Nat × Statement)}
    (h : ∀ q ∈ queries, q.2.isDeclaration = false) :
    (runQueries options table queries).value.1.names = table.names := by
  induction queries generalizing table with
  | nil => rfl
  | cons q rest ih =>
    obtain ⟨i, s⟩ := q
    obtain ⟨hs, hrest⟩ := List.forall_mem_cons.1 h
    cases hrun : (s.run options table).outcome with
    | error e =>
      simp only [runQueries, Traced.value_bind, hrun]
      exact ih hrest
    | ok result =>
      obtain ⟨next, output⟩ := result
      simp only [runQueries, Traced.value_bind, hrun]
      refine (@ih next hrest).trans ?_
      rcases Statement.run_eq_ok hrun with ⟨d, rfl, _⟩ | ⟨name, _, hhint, _⟩ | ⟨rfl, _⟩
      · cases hs
      · exact SymbolTable.names_addHint hhint
      · rfl

end Batch

/-! ## Reports -/

theorem Statement.declaration?_eq_some_iff {s : Statement} {d : Declaration} :
    s.declaration? = some d ↔ s = .declare d := by
  cases s <;> simp [declaration?]

namespace Report

/-- The declarations without an error, with their positions. -/
def accepted (r : Report) : List (Nat × Declaration) :=
  r.outcomes.zipIdx.filterMap fun (o, i) =>
    if o.error.isNone then o.command.statement.declaration?.map fun d => (i, d) else none

theorem mem_accepted {r : Report} {i : Nat} {d : Declaration} :
    (i, d) ∈ r.accepted ↔ ∃ o, r.outcomes[i]? = some o ∧ o.error = none ∧
      o.command.statement = .declare d := by
  unfold accepted
  rw [List.mem_filterMap]
  constructor
  · rintro ⟨⟨o, j⟩, hmem, hsome⟩
    obtain ⟨herror, hsome⟩ := Option.ite_none_right_eq_some.1 hsome
    obtain ⟨d', hd, heq⟩ := Option.map_eq_some_iff.1 hsome
    cases heq
    exact ⟨o, List.mem_zipIdx_iff_getElem?.1 hmem, Option.isNone_iff_eq_none.1 herror,
      Statement.declaration?_eq_some_iff.1 hd⟩
  · rintro ⟨o, hget, herror, hd⟩
    refine ⟨(o, i), List.mem_zipIdx_iff_getElem?.2 hget, ?_⟩
    dsimp only
    rw [herror, hd]
    rfl

theorem nodup_accepted (r : Report) : r.accepted.Nodup := by
  have hzip : (r.outcomes.zipIdx.map Prod.snd).Nodup := by
    rw [List.zipIdx_map_snd]
    exact List.nodup_range'
  unfold accepted
  refine List.pairwise_filterMap.2 ((List.pairwise_map.1 hzip).imp fun {a b} hne p hp q hq => ?_)
  obtain ⟨_, _, rfl⟩ := Option.map_eq_some_iff.1 (Option.ite_none_right_eq_some.1 hp).2
  obtain ⟨_, _, rfl⟩ := Option.map_eq_some_iff.1 (Option.ite_none_right_eq_some.1 hq).2
  exact fun heq => hne (congrArg Prod.fst heq)

/-- **A report agrees with its table**, which started as `start`. -/
structure Agrees (options : Options) (p : Package) (start : SymbolTable) (r : Report) : Prop where
  /-- There is one outcome for each command, in the order of the files. -/
  outcomes : (r.outcomes.map fun o => (o.file, o.command)) =
    p.files.flatMap fun f => f.commands.map fun c => (f.path, c)
  /-- The new names are those that the accepted declarations provide. -/
  names : ∃ new, r.table.names = start.names ++ new ∧
    new.Perm (r.accepted.flatMap (·.2.provides))
  /-- Every name is registered once. -/
  listed : r.table.Listed
  /-- What was known at the start is known as it was. -/
  kept : start.Extends r.table
  /-- An accepted declaration is registered as it was judged. -/
  accepted : ∀ q ∈ r.accepted, ∃ seen layer, start.Extends seen ∧ seen.Extends r.table ∧
    q.2.judge options seen = .ok layer ∧
    ∀ name ∈ q.2.provides, r.table.registration name = layer.registration name
  /-- A rejected one has no part in what is known of its names. -/
  rejected : ∀ i o d, r.outcomes[i]? = some o → o.command.statement = .declare d →
    o.error.isSome = true → ∀ name ∈ d.provides,
      r.table.registration name = start.registration name ∨
        ∃ q ∈ r.accepted, q.1 ≠ i ∧ name ∈ q.2.provides

end Report

/-! ## Files -/

namespace Package

/-- Commands are found in the file that they stand in. -/
theorem locateIn_commands (files : List Script) :
    ((files.flatMap (·.commands)).zipIdx.map fun (c, i) =>
        (((locateIn files (i : Nat)).map (·.path)).getD "", c)) =
      files.flatMap fun f => f.commands.map fun c => (f.path, c) := by
  induction files with
  | nil => rfl
  | cons f rest ih =>
    rw [List.flatMap_cons, List.flatMap_cons, List.zipIdx_append, List.map_append, ← ih]
    congr 1
    · have hfst : f.commands.map (fun c => (f.path, c)) =
          f.commands.zipIdx.map fun q => (f.path, q.1) := by
        conv_lhs => rw [← List.zipIdx_map_fst 0 f.commands, List.map_map]
        rfl
      rw [hfst]
      refine List.map_congr_left fun ⟨c, i⟩ hc => ?_
      have hlt : (i : Int) < f.commands.length :=
        Int.ofNat_lt.2 (List.getElem?_eq_some_iff.1 (List.mem_zipIdx_iff_getElem?.1 hc)).1
      simp only [locateIn, if_pos hlt, Option.map_some, Option.getD_some]
    · rw [Nat.zero_add, List.zipIdx_eq_map_add, List.map_map]
      refine List.map_congr_left fun ⟨c, i⟩ _ => ?_
      have hge : ¬((f.commands.length + i : Nat) : Int) < f.commands.length := by omega
      have hsub : ((f.commands.length + i : Nat) : Int) - f.commands.length = i := by omega
      simp only [Function.comp_apply, locateIn, if_neg hge, hsub]

/-! ## Agreement -/

variable {p : Package} {layers : List (List Nat)}

/-- There is one outcome for each command, in the order of the files. -/
theorem outcomes_reportOn_eq (layers : List (List Nat)) :
    ((p.reportOn options table layers).outcomes.map fun o => (o.file, o.command)) =
      p.files.flatMap fun f => f.commands.map fun c => (f.path, c) := by
  refine Eq.trans ?_ (locateIn_commands p.files)
  unfold reportOn
  dsimp only
  rw [List.map_map]
  refine List.map_congr_left fun ⟨c, i⟩ _ => ?_
  dsimp only [Function.comp_apply]
  split <;> rfl

/-- The outcome of a declaration has the error that was found for its position. -/
theorem outcome_declaration {i : Nat} {o : Outcome} {d : Declaration}
    (ho : (p.reportOn options table layers).outcomes[i]? = some o)
    (hd : o.command.statement = .declare d) :
    p.statements[i]? = some (.declare d) ∧
      o.error = (setAside (rejectDuplicates table [] p.statements) ++
        (checkLayers options p.statements table 0 layers).value.2).lookup i := by
  unfold reportOn at ho
  dsimp only at ho
  rw [List.getElem?_map, List.getElem?_zipIdx, Option.map_map, Option.map_eq_some_iff] at ho
  obtain ⟨c, hc, heq⟩ := ho
  dsimp only [Function.comp_apply] at heq
  have hcommand : o.command = c := by
    rw [← heq]
    split <;> rfl
  have hget : p.statements[i]? = some (.declare d) := by
    rw [statements, List.getElem?_map, hc, Option.map_some, ← hcommand, hd]
  refine ⟨hget, ?_⟩
  have hanswers := (@runQueries_spec options
    (checkLayers options p.statements table 0 layers).value.1 (queriesOf p.statements)
    fun q hq => (mem_queriesOf.1 hq).2).2
  rw [hanswers, Nat.zero_add, lookup_declaration (fun s => s.answer options _) hget rfl] at heq
  rw [← heq]
  rfl

/-- Every statement has an outcome. -/
theorem exists_outcome (options : Options) (table : SymbolTable) (layers : List (List Nat))
    {i : Nat} {s : Statement} (hget : p.statements[i]? = some s) :
    ∃ o, (p.reportOn options table layers).outcomes[i]? = some o ∧ o.command.statement = s := by
  rw [statements, ← @commands_reportOn options table p layers, List.map_map, List.getElem?_map,
    Option.map_eq_some_iff] at hget
  exact hget

/-- **The declarations that get no error are those that are published.** -/
theorem accepted_reportOn_perm (options : Options) {arranged : List (List Nat)}
    (hlayers : declarationLayers
      ((rejectDuplicates table [] p.statements).map Except.toOption) = .ok layers)
    (harranged : arranged.flatten.Perm layers.flatten) (hnodup : arranged.flatten.Nodup) :
    (p.reportOn options table arranged).accepted.Perm
      (published (checkLayers options p.statements table 0 arranged).value.2
        (arranged.flatMap (declarationsOf p.statements))) := by
  have hitems := (List.Nodup.of_map _ (nodup_declarationsOf p.statements hnodup)).filter fun q =>
    ((checkLayers options p.statements table 0 arranged).value.2.lookup q.1).isNone
  refine (List.perm_ext_iff_of_nodup (Report.nodup_accepted _) hitems).2 fun ⟨i, d⟩ => ?_
  -- an error is either one for setting a declaration aside or one that the layers give
  have herror : ∀ errors : Errors, p.statements[i]? = some (.declare d) →
      ((setAside (rejectDuplicates table [] p.statements) ++ errors).lookup i = none ↔
        i ∈ arranged.flatten ∧ errors.lookup i = none) := by
    intro errors hget
    rw [List.lookup_append, Option.or_eq_none_iff, ← mem_flatten_iff hlayers hget,
      harranged.mem_iff]
  rw [← published, mem_published, Report.mem_accepted]
  constructor
  · rintro ⟨o, ho, hnone, hd⟩
    obtain ⟨hget, herrors⟩ := outcome_declaration ho hd
    rw [herrors, herror _ hget] at hnone
    exact ⟨⟨hnone.1, hget⟩, hnone.2⟩
  · rintro ⟨⟨hi, hget⟩, hnone⟩
    obtain ⟨o, ho, hd⟩ := exists_outcome options table arranged hget
    refine ⟨o, ho, ?_, hd⟩
    rw [(outcome_declaration ho hd).2, herror _ hget]
    exact ⟨hi, hnone⟩

/-- The table of a report has the names that the layers leave, and knows what they leave. -/
theorem table_reportOn (options : Options) (p : Package) (table : SymbolTable)
    (layers : List (List Nat)) :
    let final := (checkLayers options p.statements table 0 layers).value.1
    (p.reportOn options table layers).table.names = final.names ∧
      (p.reportOn options table layers).table.Alike final := by
  have hqueries : ∀ q ∈ queriesOf p.statements, q.2.isDeclaration = false :=
    fun q hq => (mem_queriesOf.1 hq).2
  exact ⟨names_runQueries hqueries, (runQueries_spec hqueries).1⟩

/-- **Layers of declarations give a report that agrees with its table.** -/
theorem agrees_reportOn (hlisted : table.Listed) {arranged : List (List Nat)}
    (hlayers : declarationLayers
      ((rejectDuplicates table [] p.statements).map Except.toOption) = .ok layers)
    (harranged : arranged.flatten.Perm layers.flatten) :
    (p.reportOn options table arranged).Agrees options p table := by
  have hnodup : arranged.flatten.Nodup := harranged.nodup_iff.2
    ((flatten_declarationLayers_perm hlayers).nodup_iff.2
      ((increasing_declarationsAt _).imp Nat.ne_of_lt))
  have hpositions := nodup_declarationsOf p.statements hnodup
  have hperm := accepted_reportOn_perm options hlayers harranged hnodup
  have hrun := @committed_checkLayers options table table p.statements 0 arranged (.refl table)
  obtain ⟨hnames, halike⟩ := table_reportOn options p table arranged
  have hlist := (hrun.listed hlisted).congr hnames halike
  have hadded := hnames.trans (hrun.names hpositions)
  have hextends : ∀ {seen : SymbolTable},
      seen.Extends (checkLayers options p.statements table 0 arranged).value.1 →
        seen.Extends (p.reportOn options table arranged).table :=
    fun h name hname => (halike name).trans (h name hname)
  refine ⟨outcomes_reportOn_eq arranged, ⟨_, hadded, hperm.symm.flatMap fun _ _ => .refl _⟩, hlist,
    hextends hrun.extends_final, fun q hq => ?_, fun i o d ho hd hsome name hname => ?_⟩
  · obtain ⟨seen, layer, hstart, hseen, hjudge, hreg⟩ :=
      hrun.registration hpositions (hperm.mem_iff.1 hq)
    exact ⟨seen, layer, hstart, hextends hseen, hjudge, fun name hname =>
      (halike name).trans (hreg name hname)⟩
  · have hfinal := hextends hrun.extends_final
    refine (hlisted.registration_eq_or_mem hlist hfinal hadded name).imp_right fun hmem => ?_
    obtain ⟨q, hq, hprovides⟩ := List.mem_flatMap.1 hmem
    have hq := hperm.mem_iff.2 hq
    refine ⟨q, hq, ?_, hprovides⟩
    -- the outcome at its position has no error
    rintro rfl
    obtain ⟨o', ho', hnone, _⟩ := Report.mem_accepted.1 hq
    rw [ho] at ho'
    cases ho'
    rw [hnone] at hsome
    cases hsome

/-- **A unit's report and its table agree**, in whatever order the declarations of each layer are
taken. -/
theorem check_agrees {withPrelude cancelled : Bool}
    (hstart : (initialTable options withPrelude).outcome = .ok start) :
    (∀ report, (p.check options withPrelude cancelled).value = .ok report →
        report.Agrees options p start) ∧
      ∀ arrange : List (List Nat) → List (List Nat),
        (∀ layers, List.Forall₂ List.Perm (arrange layers) layers) →
        ∀ report, p.checkIn arrange options withPrelude cancelled = .ok report →
          report.Agrees options p start := by
  have hin : ∀ arrange : List (List Nat) → List (List Nat),
      (∀ layers, (arrange layers).flatten.Perm layers.flatten) →
      ∀ report, p.checkIn arrange options withPrelude cancelled = .ok report →
        report.Agrees options p start := by
    intro arrange harrange report hcheck
    rw [checkIn, hstart] at hcheck
    dsimp only at hcheck
    cases hlayers : declarationLayers
      ((rejectDuplicates start [] p.statements).map Except.toOption) with
    | error e =>
      rw [hlayers] at hcheck
      cases hcheck
    | ok layers =>
      rw [hlayers] at hcheck
      dsimp only at hcheck
      split at hcheck
      · cases hcheck
      · cases hcheck
        exact agrees_reportOn (SymbolTable.listed_initialTable hstart) hlayers (harrange layers)
  refine ⟨?_, fun arrange harrange => hin arrange fun layers =>
    List.Perm.flatten_congr (harrange layers)⟩
  rw [check_value]
  exact hin id fun _ => .refl _

/-- A definition, one of the same name, one that fails and one that depends on the first. -/
theorem check_agrees_four :
    let declare (line : Nat) (name : String) (body : Term) : Command :=
      ⟨⟨0, line, 1⟩, [], .declare (.definition name none body)⟩
    let p : Package := ⟨[⟨"a", [declare 1 "U" (.global "T"), declare 2 "T" (.global "True")]⟩,
      ⟨"b", [declare 1 "T" (.global "False"), declare 2 "V" (.global "W")]⟩]⟩
    ∃ start report, (initialTable ⟨100, false, false, false⟩ true).outcome = .ok start ∧
      (p.check ⟨100, false, false, false⟩ true false).value = .ok report ∧
      report.Agrees ⟨100, false, false, false⟩ p start := by
  intro declare p
  obtain ⟨start, hstart, hlayers⟩ :=
    Verdict.exists_ok_of_any (v := initialTable ⟨100, false, false, false⟩ true)
      (P := fun start => (dependencyGraph (declarationsAt
        ((rejectDuplicates start [] p.statements).map Except.toOption))).layers.2 = [])
      (by decide +kernel)
  cases hcheck : (p.check ⟨100, false, false, false⟩ true false).value with
  | ok report => exact ⟨start, report, hstart, rfl, (check_agrees hstart).1 report hcheck⟩
  | error e =>
    rw [check_value, checkIn, hstart] at hcheck
    dsimp only at hcheck
    rw [declarationLayers_eq, if_pos hlayers] at hcheck
    cases hcheck

end Package

end ProofKernel
