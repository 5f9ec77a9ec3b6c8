import ProofKernel.Proofs.Session.Effect
import ProofKernel.Session.Recorded

/-!
# Commands of recorded sessions

A recorded session runs a command first and records it afterwards.  So a command can fail in three
places, and only the last of them leaves something behind: what was run stays in the table when it
cannot be recorded.

* `Journal.append_eq_ok_iff`: a text is appended iff the journal can be written, behind all others.
* `RecordedSession.execute_cases` lists what can become of a command; everything else is read off
  it.
* `RecordedSession.execute_failure` is what a failed command does, and when it does nothing.
-/

set_option autoImplicit false
namespace ProofKernel

/-! ## Journals -/

namespace Journal

variable {j j' : Journal} {cancelled : Bool} {id : String} {text : Text}

theorem append_eq_ok_iff : j.append cancelled id text = .ok j' ↔
    j.writable cancelled = .ok () ∧ j' = { j with entries := j.entries ++ [(id, text)] } := by
  unfold append
  cases j.writable cancelled with
  | error e => exact ⟨nofun, nofun⟩
  | ok _ => exact ⟨fun h => ⟨rfl, (Except.ok.inj h).symm⟩, fun h => congrArg Except.ok h.2.symm⟩

/-- A failure of the journal is not one of the kernel or of a script. -/
theorem appendFailure_ne (id : String) (fault : Fault) :
    (∀ cause, appendFailure id fault ≠ .kernel cause) ∧
      ∀ cause, appendFailure id fault ≠ .script cause := by
  cases fault <;> exact ⟨nofun, nofun⟩

end Journal

namespace RecordedSession

variable {s : RecordedSession} {j : Journal} {cancelled : Bool} {input : Text}

/-! ## What can become of a command -/

/-- What becomes of a command: the session and the journal after it, and its result. -/
inductive Executed (s : RecordedSession) (j : Journal) (cancelled : Bool) (input : Text) :
    RecordedSession → Journal → Except Failure String → Prop
  /-- The text is no command. -/
  | unread {e : SyntaxError} (hparse : parseCommand input = .error e) :
      Executed s j cancelled input s j (.error (.script e))
  /-- The kernel rejects what it says. -/
  | rejected {command : Command} {e : KernelError} (hparse : parseCommand input = .ok command)
      (hrun : (command.statement.run s.session.options s.session.table).outcome = .error e) :
      Executed s j cancelled input s j (.error (.kernel e))
  /-- It is a query, which is not recorded. -/
  | answered {command : Command} {output : String} (hparse : parseCommand input = .ok command)
      (hrun : (command.statement.run s.session.options s.session.table).outcome =
        .ok (s.session.table, output)) (hchanges : command.statement.changesTable = false) :
      Executed s j cancelled input s j (.ok output)
  /-- It is recorded. -/
  | recorded {command : Command} {table : SymbolTable} {output : String} {j' : Journal}
      (hparse : parseCommand input = .ok command)
      (hrun : (command.statement.run s.session.options s.session.table).outcome =
        .ok (table, output)) (hchanges : command.statement.changesTable = true)
      (happend : j.append cancelled s.id command.source = .ok j') :
      Executed s j cancelled input ⟨s.id, { s.session with table := table }⟩ j' (.ok output)
  /-- It cannot be recorded. -/
  | unrecorded {command : Command} {table : SymbolTable} {output : String} {fault : Journal.Fault}
      (hparse : parseCommand input = .ok command)
      (hrun : (command.statement.run s.session.options s.session.table).outcome =
        .ok (table, output)) (hchanges : command.statement.changesTable = true)
      (happend : j.append cancelled s.id command.source = .error fault) :
      Executed s j cancelled input ⟨s.id, { s.session with table := table }⟩ j
        (.error (Journal.appendFailure s.id fault))

/-- **One of five things becomes of a command.** -/
theorem execute_cases (s : RecordedSession) (j : Journal) (cancelled : Bool) (input : Text) :
    Executed s j cancelled input (s.execute j cancelled input).1 (s.execute j cancelled input).2.1
      (s.execute j cancelled input).2.2.value := by
  unfold execute
  cases hparse : parseCommand input with
  | error e => exact .unread hparse
  | ok command =>
    cases hrun : (command.statement.run s.session.options s.session.table).outcome with
    | error e =>
      simp only [Session.run, hrun, Except.isOk, Except.toBool, Bool.false_and, Bool.false_eq_true,
        if_false]
      exact .rejected hparse hrun
    | ok result =>
      obtain ⟨table, output⟩ := result
      simp only [Session.run, hrun, Except.isOk, Except.toBool, Bool.true_and]
      cases hchanges : command.statement.changesTable with
      | false =>
        obtain rfl := (Statement.effect_run hrun).eq_of_query hchanges
        exact .answered hparse hrun hchanges
      | true =>
        rw [if_pos rfl]
        cases happend : j.append cancelled s.id command.source with
        | error fault => exact .unrecorded hparse hrun hchanges happend
        | ok j' => exact .recorded hparse hrun hchanges happend

/-! ## Failures -/

/-- **What a command that fails leaves behind.**  The journal stays as it was, for every session.
Unless the journal is what failed, the session stays as it was too.  But when the journal failed,
the command has its full effect on the table, which no entry accounts for; only a hint that was
given before makes no difference then. -/
theorem execute_failure {e : Failure} (h : (s.execute j cancelled input).2.2.value = .error e) :
    (s.execute j cancelled input).2.1 = j ∧
    ((∀ fault, e ≠ Journal.appendFailure s.id fault) → (s.execute j cancelled input).1 = s) ∧
    ∀ fault, e = Journal.appendFailure s.id fault →
      ∃ command table, parseCommand input = .ok command ∧ command.statement.changesTable = true ∧
        (s.execute j cancelled input).1 = ⟨s.id, { s.session with table := table }⟩ ∧
        command.statement.Effect s.session.table table ∧
        (s.session.table.Indistinct table ↔
          ∃ name ∈ s.session.table.hints, command.statement = .hint name) := by
  have hcases := execute_cases s j cancelled input
  rw [h] at hcases
  generalize (s.execute j cancelled input).1 = s' at hcases ⊢
  generalize (s.execute j cancelled input).2.1 = j' at hcases ⊢
  cases hcases with
  | @unread cause hparse =>
    exact ⟨rfl, fun _ => rfl, fun fault he =>
      absurd he.symm ((Journal.appendFailure_ne s.id fault).2 _)⟩
  | @rejected command cause hparse hrun =>
    exact ⟨rfl, fun _ => rfl, fun fault he =>
      absurd he.symm ((Journal.appendFailure_ne s.id fault).1 _)⟩
  | @unrecorded command table output fault hparse hrun hchanges happend =>
    have heffect := Statement.effect_run hrun
    refine ⟨rfl, fun hother => absurd rfl (hother fault), fun _ _ =>
      ⟨command, table, hparse, hchanges, rfl, heffect, ?_⟩⟩
    rw [heffect.indistinct_iff, hchanges]
    simp

/-- A definition that is made while the caller has given up fails, and stays in the table; the
journal has no entry for it. -/
theorem execute_failure_cancelled :
    let s : RecordedSession := ⟨"a", ⟨⟨100, false, false, false⟩, false, .empty⟩⟩
    let input := Text.ofString "Definition P := Prop."
    ∃ fault table, (s.execute .empty true input).2.2.value =
        .error (Journal.appendFailure "a" fault) ∧
      (s.execute .empty true input).1 = ⟨"a", { s.session with table := table }⟩ ∧
      table.names = ["P"] ∧ (s.execute .empty true input).2.1.texts "a" = [] := by
  intro s input
  have hfailed : (s.execute .empty true input).2.2.value.isOk = false := by decide +kernel
  have hnames : (s.execute .empty true input).1.session.table.names = ["P"] := by decide +kernel
  cases hvalue : (s.execute .empty true input).2.2.value with
  | ok output => simp [hvalue, Except.isOk, Except.toBool] at hfailed
  | error e =>
    obtain ⟨hjournal, hunchanged, hchanged⟩ := execute_failure hvalue
    -- a session that stayed as it was would have no names
    obtain ⟨fault, rfl⟩ : ∃ fault, e = Journal.appendFailure "a" fault := by
      by_contra hother
      rw [hunchanged fun fault he => hother ⟨fault, he⟩] at hnames
      cases hnames
    obtain ⟨command, table, _, _, hsession, _, _⟩ := hchanged fault rfl
    rw [hsession] at hnames
    refine ⟨fault, table, rfl, hsession, hnames, ?_⟩
    rw [hjournal]
    rfl

end RecordedSession
end ProofKernel
