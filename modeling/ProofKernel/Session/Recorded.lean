import ProofKernel.Journal
import ProofKernel.Session

/-!
# Recorded sessions

A session whose commands are recorded in a journal, and which can be resumed from it.

* `RecordedSession.start` and `RecordedSession.resume` open one.
* `RecordedSession.execute` runs a command and, when it changed the table, records it.

A command runs before it is recorded.  When it cannot be recorded, the command fails, and its effect
on the table of the running session stays.
-/

set_option autoImplicit false
namespace ProofKernel

/-- A session with its identifier in a journal. -/
structure RecordedSession where
  id : String
  session : Session

namespace RecordedSession

/-- Opens a session under a new identifier.  Returns the journal that knows it. -/
def start (options : Options) (j : Journal) (cancelled : Bool) (r : Journal.Record) :
    Traced (Except Failure (RecordedSession × Journal)) :=
  let opened := Session.start options r.withPrelude true
  match opened.value with
  | .error e => ⟨opened.log, .error e⟩
  | .ok s =>
    match j.create cancelled r with
    | .error fault => ⟨.empty, .error (Journal.creationFailure r.id fault)⟩
    | .ok j => ⟨opened.log, .ok (⟨r.id, s⟩, j)⟩

/-- The place of a command in the record of a session. -/
def replayLabel (id : String) (number : Nat) : String :=
  "replaying command " ++ toString number ++ " of session " ++ id ++ ": "

/-- Builds a session again by executing its commands. -/
def resume (options : Options) (j : Journal) (cancelled : Bool) (id : String) :
    Traced (Except Failure RecordedSession) :=
  match j.session cancelled id, j.commands cancelled id with
  | .error fault, _ | _, .error fault => ⟨.empty, .error fault.failure⟩
  | .ok info, .ok texts =>
    let opened := Session.start options info.record.withPrelude true
    match opened.value >>= fun s => s.replay (replayLabel id) 1 texts with
    | .error e => ⟨.empty, .error e⟩
    | .ok s => ⟨.one (.sessionResumed texts.length), .ok ⟨id, s⟩⟩

/-- Reads a command, runs it and records it. -/
def execute (s : RecordedSession) (j : Journal) (cancelled : Bool) (input : Text) :
    RecordedSession × Journal × Traced (Except Failure String) :=
  match parseCommand input with
  | .error e => (s, j, ⟨.empty, .error (.script e)⟩)
  | .ok command =>
    let (session, result) := s.session.run command.statement
    let s := { s with session := session }
    if result.value.isOk && command.statement.changesTable then
      match j.append cancelled s.id command.source with
      | .error fault => (s, j, ⟨result.log, .error (Journal.appendFailure s.id fault)⟩)
      | .ok j => (s, j, result)
    else (s, j, result)

end RecordedSession

end ProofKernel
