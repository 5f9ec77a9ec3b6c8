import ProofKernel.Proofs.Batch.Sequence
import ProofKernel.Proofs.Workbench.Runs

/-!
# What was accepted stays accepted

Each declaration that is published rests on names that stay registered as they were, so that no
judgement changes that was made before, as long as it is about names that were known or that stay
unknown.

* `SymbolTable.Kept` are the names that were not registered in between; the table agrees on them
  with what it was (`SymbolTable.Extends.shared`).
* `Definition.Holds` is the judgement behind a definition.
* `Workbench.Run.stable`: types, checks and normal forms are those of an earlier point of the run.
  `Workbench.Run.not_stable` has a type that mentions a name before it is registered, and a
  definition whose type is not a subtype of itself.
-/

set_option autoImplicit false
namespace ProofKernel

/-! ## Names that were not registered in between -/

namespace SymbolTable

variable {table table' : SymbolTable}

/-- A hole, or a name that the second table does not register unless the first one does. -/
def Kept (table table' : SymbolTable) : Leaf → Prop
  | .hole => True
  | .global name => table'.defined name = true → table.defined name = true

/-- What a table accounts for is kept. -/
theorem Knows.kept (hplaceholder : table'.defined Term.placeholder = false) {l : Leaf}
    (h : table.Knows l) : table.Kept table' l := by
  cases l with
  | hole => trivial
  | global name =>
    rcases h with rfl | hdefined
    · exact fun hdefined => absurd hdefined (by simp [hplaceholder])
    · exact fun _ => hdefined

/-- **A table that grows agrees with what it was** on the names that were not registered in
between. -/
theorem Extends.shared (h : table.Extends table') (ht : table.SelfContained)
    (hplaceholder : table'.defined Term.placeholder = false) :
    Shared (table.Kept table') table table' where
  agree := fun name hname => by
    cases hdefined : table.defined name with
    | true => exact (h name hdefined).symm
    | false =>
      have hdefined' : table'.defined name = false := by
        rw [← Bool.not_eq_true]
        intro htrue
        rw [hname htrue] at hdefined
        cases hdefined
      rw [defined_eq_false_iff.1 hdefined, defined_eq_false_iff.1 hdefined']
  entries := fun name _ => (ht.entries name).mono fun _ => Knows.kept hplaceholder
  literal := fun value _ => ht.literal value

end SymbolTable

/-- The type of a definition is the same over tables that agree. -/
theorem SymbolTable.Shared.definitionType_eq {S : Leaf → Prop} {options : Options}
    {table table' : SymbolTable} {locals : Telescope} (h : Shared S table table')
    (hl : LocalsOver S locals) {body : Term} {given : Option Term} (hbody : body.Over S)
    (hgiven : ∀ A, given = some A → A.Over S) :
    ProofKernel.definitionType options ⟨table', locals⟩ body given =
      ProofKernel.definitionType options ⟨table, locals⟩ body given := by
  cases given with
  | none => exact (h.infer hbody hl).eq.symm
  | some A =>
    have hA := hgiven A rfl
    simp only [ProofKernel.definitionType, h.inferSort hA hl, h.check hbody hl hA]

/-! ## Definitions -/

/-- A binder type left out has no type of its own. -/
theorem isPlaceholder_eq_false_of_infer {options : Options} {Γ : Context} {a T : Term}
    (hplaceholder : Γ.table.defined Term.placeholder = false)
    (h : (infer options Γ a).outcome = .ok T) : a.isPlaceholder = false := by
  cases a with
  | hole =>
    rw [infer_hole] at h
    cases h
  | global x =>
    refine beq_eq_false_iff_ne.2 ?_
    rintro rfl
    have hnone : Γ.table.type? Term.placeholder = none := by
      simpa [SymbolTable.defined] using hplaceholder
    rw [infer_outcome, synthesize, hnone] at h
    cases h
  | _ => rfl

namespace Definition

variable {options : Options} {Γ : Context} {D : Definition} {given : Option Term}

/-- The body of a definition has its type, by the judgement that is made when the type is given or
not.  The body need not check against a type that was inferred: it does so exactly if the type is a
subtype of itself. -/
inductive Holds (options : Options) (Γ : Context) (D : Definition) : Option Term → Prop
  | given (h : (check options Γ D.body D.type).outcome = .ok ()) : Holds options Γ D (some D.type)
  | inferred (h : (infer options Γ D.body).outcome = .ok D.type)
      (hcheck : (check options Γ D.body D.type).outcome = .ok () ↔
        (isSubtype options Γ.table D.type D.type).value = true) : Holds options Γ D none

/-- **What a definition was accepted for.** -/
theorem holds_of_definitionType (hplaceholder : Γ.table.defined Term.placeholder = false)
    (h : (definitionType options Γ D.body given).outcome = .ok D.type) :
    D.Holds options Γ given := by
  cases given with
  | some A =>
    simp only [definitionType, Verdict.bind_eq_ok_iff] at h
    obtain ⟨_, _, _, hbody, hpure⟩ := h
    obtain rfl : A = D.type := Except.ok.inj hpure
    exact .given hbody
  | none =>
    have hinfer : (infer options Γ D.body).outcome = .ok D.type := h
    have hhole : D.body ≠ .hole := by
      intro heq
      rw [heq, infer_hole] at hinfer
      cases hinfer
    have hopen : ∀ x a b, D.body = .lam x a b → a.isPlaceholder = false := by
      intro x a b heq
      rw [heq] at hinfer
      obtain ⟨_, _, ha, _⟩ := infer_lam_eq_ok_iff.1 hinfer
      obtain ⟨_, ha, _⟩ := inferSort_eq_ok_iff.1 ha
      exact isPlaceholder_eq_false_of_infer hplaceholder ha
    refine .inferred hinfer ?_
    rw [check_iff_infer hhole hopen, isSubtype_value, hinfer]
    simp

end Definition

/-! ## Judgements at two points of a run -/

/-- The table that a session starts from stands over no other. -/
theorem below_initialTable {options : Options} {withPrelude : Bool} {table : SymbolTable}
    (h : (initialTable options withPrelude).outcome = .ok table) : table.below = [] := by
  have hinv : SymbolTable.Invariant options (fun _ => True) (·.below = []) := by
    refine ⟨rfl, fun d table table' _ hbelow hpub => ?_, fun name table table' hbelow hhint => ?_⟩
    · rw [Declaration.publish, Verdict.bind_eq_ok_iff] at hpub
      obtain ⟨staged, _, hpub⟩ := hpub
      obtain ⟨_, rfl⟩ := SymbolTable.publish_eq_ok_iff.1 hpub
      exact hbelow
    · unfold SymbolTable.addHint at hhint
      split at hhint
      · cases hhint
      split at hhint
      · exact Except.ok.inj hhint ▸ hbelow
      · exact Except.ok.inj hhint ▸ hbelow
  exact hinv.initialTable (fun _ _ => trivial) h

namespace Workbench

variable {options : Options} {table : SymbolTable} {w w' : Workbench}

/-- A term is accepted among some local variables: it has a type, or it checks against one. -/
def Accepts (w : Workbench) (t : Term) : Prop :=
  ∃ locals : Telescope, (∃ T, (infer w.options ⟨w.table, locals⟩ t).outcome = .ok T) ∨
    ∃ A, (check w.options ⟨w.table, locals⟩ t A).outcome = .ok ()

theorem Accepts.known {t : Term} (h : w.Accepts t) : t.Over w.table.Knows := by
  obtain ⟨locals, ⟨T, hT⟩ | ⟨A, hA⟩⟩ := h
  · have ht := infer_known hT
    exact ht
  · have ht := check_known hA
    exact ht

/-- A definition that was staged in a run holds ever after, among the same local variables. -/
theorem Sound.holds {start : Workbench} {forks : List Layer} (hstart : Sound start start forks)
    {name : String} {D : Definition} {locals : Telescope} {given : Option Term}
    (h : Defines start w name D locals given) :
    D.Holds start.options ⟨w.table, locals⟩ given := by
  obtain ⟨w₁, staged, hrun, hlocals, hstage, hget, hname, hlater⟩ := h
  obtain ⟨_, forks₁, h₁⟩ := hstart.run .refl hrun
  have hd : Term.placeholder ∉ (Declaration.definition name given D.body).provides :=
    fun hmem => hname (List.mem_singleton.1 hmem).symm
  have hstep : w₁.Step (w₁.keep staged) :=
    ⟨.stage locals (.definition name given D.body), hlocals, hd,
      perform?_stage.2 ⟨staged, hstage, rfl⟩⟩
  obtain ⟨hextends, forks', h'⟩ := h₁.run hrun (hlater.head hstep)
  have hplaceholder := h'.selfContained.placeholder
  obtain ⟨_, heq, htype⟩ :=
    (Declaration.leaves_of_stage h₁.selfContained hlocals hstage).definition name D hget
  cases heq
  obtain ⟨hbody, hgiven, _⟩ := Declaration.over_definitionType h₁.selfContained hlocals htype
  -- what the definition rests on was known when it was staged
  have hkept : ∀ l, w₁.table.Knows l → w₁.table.Kept w.table l :=
    fun _ => SymbolTable.Knows.kept hplaceholder
  have hshared := hextends.shared h₁.selfContained hplaceholder
  refine Definition.holds_of_definitionType hplaceholder ?_
  rw [hshared.definitionType_eq (fun p hp => (hlocals p hp).mono hkept) (hbody.mono hkept)
    fun A hA => (hgiven A hA).mono hkept, ← h₁.options]
  exact htype

/-- **What was accepted at a point of a run is judged alike at every later point.**  The types of
local variables, and a type that is checked against, must not mention a name that is registered in
between; a term that is accepted does not.  A definition that was published in the run still has its
type, among the local variables that it was staged with. -/
theorem Run.stable (hstart : (initialTable options true).outcome = .ok table)
    (hw : (ofTable options table).Run w) (hw' : w.Run w') :
    (∀ locals t T, LocalsOver (w.table.Kept w'.table) locals →
      (infer options ⟨w.table, locals⟩ t).outcome = .ok T →
        infer options ⟨w'.table, locals⟩ t = infer options ⟨w.table, locals⟩ t) ∧
    (∀ locals t A, LocalsOver (w.table.Kept w'.table) locals → A.Over (w.table.Kept w'.table) →
      (check options ⟨w.table, locals⟩ t A).outcome = .ok () →
        check options ⟨w'.table, locals⟩ t A = check options ⟨w.table, locals⟩ t A) ∧
    (∀ t, w.Accepts t → normalize options w'.table t = normalize options w.table t) ∧
    ∀ name D, w'.table.definition? name = some D → table.definition? name = some D ∨
      ∃ locals given, Defines (ofTable options table) w' name D locals given ∧
        D.Holds options ⟨w'.table, locals⟩ given := by
  obtain ⟨htable, h₀⟩ := Sound.ofTable options (below_initialTable hstart)
    (initialTable_selfContained hstart)
  obtain ⟨_, forks, h⟩ := h₀.run .refl hw
  obtain ⟨hextends, forks', h'⟩ := h.run hw hw'
  have hplaceholder := h'.selfContained.placeholder
  have hshared := hextends.shared h.selfContained hplaceholder
  have hkept : ∀ {t : Term}, t.Over w.table.Knows → t.Over (w.table.Kept w'.table) :=
    fun ht => ht.mono fun _ => SymbolTable.Knows.kept hplaceholder
  refine ⟨fun locals t T hl ht => ?_, fun locals t A hl hA ht => ?_, fun t ht => ?_, ?_⟩
  · have hknown := infer_known ht
    exact (hshared.infer (hkept hknown) hl).eq.symm
  · have hknown := check_known ht
    exact (hshared.check (hkept hknown) hl hA).symm
  · exact (hshared.normalize (hkept ht.known)).symm
  · intro name D hD
    rw [← htable]
    refine (h'.defined name D hD).imp_right ?_
    rintro ⟨locals, given, hdefines⟩
    exact ⟨locals, given, hdefines, h₀.holds hdefines⟩

/-- Two declarations that are published in the other order than they were staged. -/
theorem Run.stable_crossed :
    let options : Options := ⟨100, false, false, false⟩
    let t : Term := .lam "p" (.global "True") (.var "p")
    ∃ table w w', (initialTable options true).outcome = .ok table ∧
      (ofTable options table).Run w ∧ w.Run w' ∧ w'.table.names = w.table.names ++ ["S", "T"] ∧
      (infer options ⟨w.table, []⟩ t).outcome =
        .ok (.pi "p" (.global "True") (.global "True")) ∧
      infer options ⟨w'.table, []⟩ t = infer options ⟨w.table, []⟩ t ∧
      ∃ locals given, Defines (ofTable options table) w' "T" ⟨.sort (.type 0), .sort .prop⟩ locals
          given ∧
        Definition.Holds options ⟨w'.table, locals⟩ ⟨.sort (.type 0), .sort .prop⟩ given := by
  intro options t
  let staging : List Action := [.stage [] (.definition "T" none (.sort .prop)),
    .stage [] (.postulate "S" (.global "True"))]
  let publishing : List Action := [.commit 2, .commit 1]
  obtain ⟨table, htable, hbench⟩ :=
    Verdict.exists_ok_of_any (v := initialTable options true)
      (P := fun table => ((staging.foldlM perform? (ofTable options table)).any fun w =>
        (publishing.foldlM perform? w).any fun w' =>
          decide (w'.table.names = w.table.names ++ ["S", "T"] ∧
            (infer options ⟨w.table, []⟩ t).outcome =
              .ok (.pi "p" (.global "True") (.global "True")) ∧
            w'.table.definition? "T" = some ⟨.sort (.type 0), .sort .prop⟩ ∧
            table.definition? "T" = none)) = true) (by decide +kernel)
  simp only [Option.any_eq_true, decide_eq_true_eq] at hbench
  obtain ⟨w, hstaging, w', hpublishing, hnames, ht, hT, hnone⟩ := hbench
  have hw := run_of_performAll (by decide) (by decide) hstaging
  have hw' := run_of_performAll (by decide) (by decide) hpublishing
  obtain ⟨hinfer, _, _, hdefinition⟩ := Run.stable htable hw hw'
  refine ⟨table, w, w', htable, hw, hw', hnames, ht, hinfer [] t _ .nil ht, ?_⟩
  exact (hdefinition _ _ hT).resolve_left (by simp [hnone])

/-- A type that mentions a name before it is registered is another one afterwards: this changes what
checks against it, and what a definition checks against whose type mentions the name.  And a
definition does not check against an inferred type that mentions a number unequal to itself. -/
theorem Run.not_stable :
    let options : Options := ⟨100, false, false, false⟩
    let unknown : Term := .app (.global "F") (.global "True")
    let leftOut : Term := .app (.global Term.placeholder) (.global "True")
    let t : Term := .lam "x" (.global Term.placeholder) (.var "x")
    ∃ (table : SymbolTable) (before after : List Action) (w w' : Workbench),
      (initialTable options true).outcome = .ok table ∧
      before.foldlM perform? (ofTable options table) = some w ∧ after.foldlM perform? w = some w' ∧
      (∀ a ∈ before ++ after, Term.placeholder ∉ a.provides) ∧
      (check options ⟨w.table, []⟩ t (.pi "x" leftOut unknown)).outcome = .ok () ∧
      (check options ⟨w'.table, []⟩ t (.pi "x" leftOut unknown)).outcome ≠ .ok () ∧
      (check options ⟨w.table, []⟩ (.global "c") leftOut).outcome = .ok () ∧
      (check options ⟨w'.table, []⟩ (.global "c") leftOut).outcome ≠ .ok () ∧
      ∃ D, w'.table.definition? "d" = some D ∧
        (check options ⟨w'.table, []⟩ D.body D.type).outcome ≠ .ok () := by
  intro options unknown leftOut t
  let notANumber : Term := .lit (.float ⟨0x7ff8000000000000⟩)
  let before : List Action := [.stage [("x", unknown)] (.definition "c" none (.var "x")), .commit 1]
  let after : List Action :=
    [.stage [] (.definition "F" none (.lam "p" (.sort .prop) (.global "False"))), .commit 2,
      .stage [] (.postulate "P" (.arrow (.global "Float") (.sort .prop))), .commit 3,
      .stage [] (.postulate "a" (.app (.global "P") notANumber)), .commit 4,
      .stage [] (.definition "d" none (.global "a")), .commit 5]
  obtain ⟨table, htable, hbench⟩ :=
    Verdict.exists_ok_of_any (v := initialTable options true)
      (P := fun table => ((before.foldlM perform? (ofTable options table)).any fun w =>
        (after.foldlM perform? w).any fun w' =>
          decide ((check options ⟨w.table, []⟩ t (.pi "x" leftOut unknown)).outcome = .ok () ∧
            (check options ⟨w'.table, []⟩ t (.pi "x" leftOut unknown)).outcome ≠ .ok () ∧
            (check options ⟨w.table, []⟩ (.global "c") leftOut).outcome = .ok () ∧
            (check options ⟨w'.table, []⟩ (.global "c") leftOut).outcome ≠ .ok ()) &&
          (w'.table.definition? "d").any fun D =>
            decide ((check options ⟨w'.table, []⟩ D.body D.type).outcome ≠ .ok ())) = true)
      (by decide +kernel)
  simp only [Option.any_eq_true, Bool.and_eq_true, decide_eq_true_eq] at hbench
  obtain ⟨w, hbefore, w', hafter, ⟨hopen, hopen', hc, hc'⟩, hd⟩ := hbench
  exact ⟨table, before, after, w, w', htable, hbefore, hafter, by decide, hopen, hopen', hc, hc',
    hd⟩

end Workbench
end ProofKernel
