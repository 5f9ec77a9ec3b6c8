import ProofKernel.Proofs.Session.Closed
import ProofKernel.Proofs.Session.Grounded
import ProofKernel.Proofs.Typing.SelfReference

/-!
# What a session registers is in scope

Whatever a session with the prelude registers mentions only globals that were registered before it,
and has no variables, with one exception: the name of a fixpoint can be left in the type that was
inferred for a definition.

* `SymbolTable.SelfRead` are the names for which this can happen.
* `SymbolTable.Scoped` is the statement for a table, and `Session.Reachable.inScope` the one for a
  session.
* `Session.scoped_executeAll` speaks of texts, accepted or not.
-/

set_option autoImplicit false
namespace ProofKernel

variable {options : Options} {table table' : SymbolTable} {name : String}

/-! ## Variables of registered types -/

namespace SymbolTable

/-- The names of the fixpoints that refer to themselves where their type is read off, in the bodies
of the definitions among some names. -/
def SelfRead (table : SymbolTable) (names : List String) (x : String) : Prop :=
  ∃ name ∈ names, ∃ d, table.definition? name = some d ∧ x ∈ d.body.selfRead

/-- What a table registers mentions only names from before and has no variables, but that the type
of a definition may have the names of fixpoints of its body, or of definitions before it, that refer
to themselves where their type is read off. -/
structure Scoped (table : SymbolTable) : Prop where
  grounded : table.Grounded
  closed : ∀ name, ∀ t ∈ (table.registration name).terms, t.freeVars = [] ∨
    ∃ d, table.definition? name = some d ∧ t = d.type
  bodies : table.BodiesClosed
  types : ∀ name d, table.definition? name = some d → ∀ x ∈ d.type.freeVars,
    table.SelfRead (table.before name ++ [name]) x

theorem definition?_isSome_defined {d : Definition} (h : table.definition? name = some d) :
    table.defined name = true := by
  rw [← Bool.not_eq_false, defined_eq_false_iff]
  intro hnone
  rw [show table.definition? name = (table.registration name).definition from rfl, hnone] at h
  cases h

theorem SelfRead.mono {names names' : List String} {x : String} (h : table.SelfRead names x)
    (hreg : table.Extends table') (hnames : ∀ n ∈ names, n ∈ names') :
    table'.SelfRead names' x := by
  obtain ⟨n, hn, d, hd, hx⟩ := h
  refine ⟨n, hnames n hn, d, ?_, hx⟩
  rw [← hd]
  exact congrArg Registration.definition (hreg n (definition?_isSome_defined hd))

end SymbolTable

/-- The definition that a declaration registers. -/
theorem Declaration.definition_layer {d : Declaration} {T : Term} {e : Definition}
    (h : ((d.layer T).registration name).definition = some e) :
    e.type = T ∧ ∃ type, d = definition name type e.body := by
  cases d with
  | definition given type body =>
    rw [Layer.registration, layer, get?_singleton] at h
    dsimp only at h
    split at h
    · next heq =>
      cases h
      exact ⟨rfl, type, by rw [heq]⟩
    · cases h
  | _ => cases h

/-! ## Declarations -/

/-- Closed layers leave only the types of definitions open. -/
theorem SymbolTable.LayersClosed.terms (h : table.LayersClosed fun d => d.body.freeVars = [])
    {t : Term} (ht : t ∈ (table.registration name).terms) :
    t.freeVars = [] ∨ ∃ d, table.definition? name = some d ∧ t = d.type := by
  simp only [Registration.terms, registration, List.mem_append, List.mem_map, List.mem_flatMap,
    Option.mem_toList] at ht
  rcases ht with ((⟨f, hf, rfl⟩ | ⟨c, hc, rfl⟩) | ⟨d, hd, ht⟩) | hA
  · exact .inl (h.family? hf)
  · exact .inl (h.constructor? hc)
  · rcases List.mem_cons.1 ht with rfl | ht
    · exact .inr ⟨d, hd, rfl⟩
    · rw [List.mem_singleton.1 ht]
      exact .inl (h.definition? hd)
  · exact .inl (h.postulate? hA)

/-- A registered type is one of the terms that are registered. -/
theorem SymbolTable.mem_terms_of_type? {A : Term} (h : table.type? name = some A) :
    A ∈ (table.registration name).terms := by
  simp only [type?, Option.or_eq_some_iff, Option.map_eq_some_iff] at h
  rcases h with ⟨f, hf, rfl⟩ | ⟨_, ⟨c, hc, rfl⟩ | ⟨_, ⟨d, hd, rfl⟩ | ⟨_, hp⟩⟩⟩
  · simp [Registration.terms, registration, hf]
  · simp [Registration.terms, registration, hc]
  · simp [Registration.terms, registration, hd]
  · simp [Registration.terms, registration, hp]

namespace SymbolTable.Scoped

/-- All variables of registered types are accounted for. -/
theorem scopes (h : table.Scoped) : table.Scopes (table.SelfRead table.names) where
  bodies := h.bodies
  types := by
    intro name A hA z hz
    rcases h.closed name A (mem_terms_of_type? hA) with hnil | ⟨d, hd, rfl⟩
    · rw [hnil] at hz
      cases hz
    · refine (h.types name d hd z hz).mono (.refl table) fun n hn => ?_
      rcases List.mem_append.1 hn with hn | hn
      · exact List.takeWhile_subset _ hn
      · rw [List.mem_singleton.1 hn]
        exact (h.grounded.listed name).2 (definition?_isSome_defined hd)

/-- **The type of an accepted definition** has the names of self-referring fixpoints of its body, or
of definitions before it. -/
theorem definitionType (h : table.Scoped) {type : Option Term} {body T : Term}
    (hT : (ProofKernel.definitionType options (.ofTable table) body type).outcome = .ok T) :
    ∀ x ∈ T.freeVars, table.SelfRead table.names x ∨ x ∈ body.selfRead := by
  cases type with
  | none =>
    have hscopes : table.Scopes fun x => table.SelfRead table.names x ∨ x ∈ body.selfRead :=
      ⟨h.bodies, fun name A hA z hz => .inl (h.scopes.types name A hA z hz)⟩
    exact freeVars_infer hscopes (fun z hz => .inr hz) hT
  | some A =>
    simp only [ProofKernel.definitionType, Verdict.bind_eq_ok_iff] at hT
    obtain ⟨u, hA, _, _, hpure⟩ := hT
    cases hpure
    rw [closed_of_inferSort hA]
    exact fun _ hx => absurd hx List.not_mem_nil

/-- The types of definitions stay as they should when a declaration is published. -/
theorem types_publish (h : table.Scoped) {d : Declaration}
    (hpub : (d.publish options (.ofTable table)).outcome = .ok table') {e : Definition}
    (he : table'.definition? name = some e) :
    ∀ x ∈ e.type.freeVars, table'.SelfRead (table'.before name ++ [name]) x := by
  obtain ⟨T, hT, hstage, hnames, _, hreg⟩ := Declaration.publish_eq_ok hpub
  obtain ⟨_, _, hnew⟩ := Declaration.stage_eq_ok hstage
  have hextends : table.Extends table' := by
    intro n hn
    rw [hreg, if_neg]
    intro hmem
    rw [hnew n hmem] at hn
    cases hn
  have he' : (table'.registration name).definition = some e := he
  rw [hreg] at he'
  intro x hx
  split at he'
  · next hmem =>
    obtain ⟨rfl, type, rfl⟩ := Declaration.definition_layer he'
    rcases h.definitionType (hT _ _ _ rfl) x hx with hold | hbody
    · -- all names of the table are before the new one
      refine hold.mono hextends fun n hn => List.mem_append_left _ ?_
      have hpos : ∀ n ∈ table.names, (n != name) = true := by
        intro n hn
        refine bne_iff_ne.2 ?_
        rintro rfl
        rw [h.grounded.listed, hnew n hmem] at hn
        cases hn
      rw [before, hnames, List.takeWhile_append_of_pos hpos]
      exact List.mem_append_left _ hn
    · exact ⟨name, List.mem_append_right _ List.mem_cons_self, e, he, hbody⟩
  · refine (h.types name e he' x hx).mono hextends fun n hn => ?_
    exact List.mem_append.2 ((List.mem_append.1 hn).imp_left (mem_before_of_append hnames))

end SymbolTable.Scoped

/-! ## Sessions -/

/-- A scoped table whose layers are closed, but for the types of definitions. -/
structure SymbolTable.InScope (table : SymbolTable) : Prop where
  entries : table.Scoped
  layers : table.LayersClosed fun d => d.body.freeVars = []

namespace SymbolTable.InScope

theorem of_layers (hg : table.Grounded)
    (hlayers : table.LayersClosed fun d => d.body.freeVars = [])
    (htypes : ∀ name d, table.definition? name = some d → ∀ x ∈ d.type.freeVars,
      table.SelfRead (table.before name ++ [name]) x) : table.InScope :=
  ⟨⟨hg, fun _ _ ht => hlayers.terms ht, fun _ _ hd => hlayers.definition? hd, htypes⟩, hlayers⟩

theorem empty : SymbolTable.empty.InScope :=
  of_layers .empty .empty nofun

/-- **A declaration keeps a table scoped.** -/
theorem publish (h : table.InScope) {d : Declaration}
    (hliteral : d.typeGiven = false → ∀ value : Literal, table.defined value.typeName = true)
    (hpub : (d.publish options (.ofTable table)).outcome = .ok table') : table'.InScope := by
  have hinv : SymbolTable.Invariant options (fun _ => True)
      (SymbolTable.LayersClosed fun d => d.body.freeVars = []) :=
    SymbolTable.LayersClosed.invariant fun _ _ _ _ _ _ _ hT => closed_of_definitionType hT
  exact of_layers (h.entries.grounded.publish hliteral hpub)
    (hinv.declare d table table' trivial h.layers hpub)
    fun _ _ he => h.entries.types_publish hpub he

theorem addHint (h : table.InScope) {hinted : String}
    (hhint : table.addHint hinted = .ok table') : table'.InScope := by
  have halike := alike_addHint hhint
  refine of_layers (h.entries.grounded.addHint hhint) (h.layers.addHint hhint)
    fun name d hd x hx => ?_
  have hd : table.definition? name = some d :=
    (congrArg Registration.definition (halike name)).symm.trans hd
  rw [before, names_addHint hhint, ← before]
  exact (h.entries.types name d hd x hx).mono (fun n _ => halike n) fun n hn => hn

end SymbolTable.InScope

namespace Session

variable {allowed : Statement → Prop} {s : Session}

/-- **Whatever a session with the prelude registers is scoped.** -/
theorem Reachable.inScope (h : Reachable options true allowed s) : s.table.Scoped := by
  have hinv : SymbolTable.Invariant options (·.typeGiven = true) SymbolTable.InScope :=
    ⟨.empty, fun d table table' hd hs hpub => hs.publish (fun hnone => absurd hd (by simp [hnone]))
      hpub, fun _ _ _ hs hhint => hs.addHint hhint⟩
  -- the prelude gives all types, and after it the types of literals are there
  have htable : s.table.InScope ∧ ∀ value : Literal, s.table.defined value.typeName = true := by
    refine h.table (I := fun table => table.InScope ∧
      ∀ value : Literal, table.defined value.typeName = true) ?_ ?_
    · intro table htable
      exact ⟨hinv.initialTable (by decide) htable, (initialTable_grounded htable).2⟩
    · rintro statement table table' output _ ⟨hs, hliteral⟩ hrun
      rcases Statement.run_eq_ok hrun with ⟨d, rfl, hpub, _⟩ | ⟨name, rfl, hhint, _⟩ | ⟨rfl, _⟩
      · have hs' := hs.publish (fun _ => hliteral) hpub
        obtain ⟨_, _, _, hnames, _⟩ := Declaration.publish_eq_ok hpub
        refine ⟨hs', fun value => (hs'.entries.grounded.listed _).1 ?_⟩
        rw [hnames]
        exact List.mem_append_left _ ((hs.entries.grounded.listed _).2 (hliteral value))
      · refine ⟨hs.addHint hhint, fun value => ?_⟩
        rw [(SymbolTable.alike_addHint hhint).defined]
        exact hliteral value
      · exact ⟨hs, hliteral⟩
  exact htable.1.entries

/-- Reads and runs commands, one after the other, whether they are accepted or not. -/
def executeAll (s : Session) (inputs : List Text) : Session :=
  inputs.foldl (fun s input => (s.execute input).1) s

/-- Executing commands leads to reachable sessions, if what they say is allowed. -/
theorem Reachable.executeAll_of {withPrelude : Bool} (h : Reachable options withPrelude allowed s)
    {inputs : List Text} (hinputs : ∀ input ∈ inputs, ∀ command,
      parseCommand input = .ok command → allowed command.statement) :
    Reachable options withPrelude allowed (s.executeAll inputs) := by
  induction inputs generalizing s with
  | nil => exact h
  | cons input rest ih =>
    rw [List.forall_mem_cons] at hinputs
    have hinput : Reachable options withPrelude allowed (s.execute input).1 := by
      unfold execute
      split
      · exact h
      · next command hparse => exact h.run _ (hinputs.1 command hparse)
    exact ih hinput hinputs.2

theorem Reachable.executeAll {withPrelude : Bool}
    (h : Reachable options withPrelude (fun _ => True) s) (inputs : List Text) :
    Reachable options withPrelude (fun _ => True) (s.executeAll inputs) :=
  h.executeAll_of fun _ _ _ _ => trivial

/-- **Whatever commands are executed, what is registered is scoped**: types and bodies mention only
globals from before, and have no variables but for names of fixpoints that refer to themselves where
their type is read off. -/
theorem scoped_executeAll {persistent : Bool}
    (h : (Session.start options true persistent).value = .ok s) (inputs : List Text) :
    (s.executeAll inputs).table.Scoped :=
  (Reachable.executeAll (.start h) inputs).inScope

/-- Such a name is left in a type: it is free in the type of `g`, and comes from its body. -/
theorem scoped_executeAll_selfRead :
    let inputs : List Text := [Text.ofString "Inductive N := Z : N | S : N -> N.",
      Text.ofString ("Definition g := fix f => fun n : N => match " ++
        "(match n return N with | Z => Z | S k => f k end) " ++
        "return (fun z : N => (fun w : N => N) z) with | Z => Z | S m => m end.")]
    ∃ s d, (Session.start ⟨100, false, false, false⟩ true false).value = .ok s ∧
      (s.executeAll inputs).table.Scoped ∧ (s.executeAll inputs).table.definition? "g" = some d ∧
      d.type.freeVars = ["f"] ∧ d.body.selfRead = ["f"] := by
  rw [Text.ofString_append, Text.ofString_append]
  iterate 4 rw [Text.ofString_ofList]
  intro inputs
  obtain ⟨table, htable, hg⟩ :=
    Verdict.exists_ok_of_any (v := initialTable ⟨100, false, false, false⟩ true)
      (P := fun table => ((executeAll ⟨⟨100, false, false, false⟩, true, table⟩
        inputs).table.definition? "g").map (fun d => (d.type.freeVars, d.body.selfRead)) =
          some (["f"], ["f"])) (by decide +kernel)
  have hstart : (Session.start ⟨100, false, false, false⟩ true false).value =
      .ok ⟨⟨100, false, false, false⟩, true, table⟩ :=
    start_eq_ok_iff.2 ⟨table, htable, rfl⟩
  obtain ⟨d, hd, heq⟩ := Option.map_eq_some_iff.1 hg
  rw [Prod.mk.injEq] at heq
  exact ⟨_, d, hstart, scoped_executeAll hstart inputs, hd, heq⟩

end Session
end ProofKernel
