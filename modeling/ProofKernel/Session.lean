import ProofKernel.Failure
import ProofKernel.Prelude
import ProofKernel.Script.Parser

/-!
# Sessions

A session executes commands one after the other on a symbol table of its own.  A command that is
rejected leaves the table as it was.

* `Statement.run` executes a statement on a table.
* `Session.start` opens a session, `Session.execute` reads and runs a command.
-/

set_option autoImplicit false
namespace ProofKernel

/-- Executes a statement: the table after it, and what it prints. -/
def Statement.run (options : Options) (table : SymbolTable) :
    Statement → Verdict (SymbolTable × String)
  | .declare d => do
    let table ← d.publish options (.ofTable table)
    return (table, "")
  | .check t => do
    let type ← infer options (.ofTable table) t
    return (table, t.render ++ " : " ++ type.render)
  | .eval t => do
    let _ ← infer options (.ofTable table) t
    let value ← normalize options table t
    return (table, value.render)
  | .hint name => do
    let table ← Verdict.ofExcept (table.addHint name)
    return (table, "")

/-- A session. -/
structure Session where
  options : Options
  withPrelude : Bool
  table : SymbolTable

namespace Session

/-- Opens a session.  `persistent` says whether its commands are journaled. -/
def start (options : Options) (withPrelude persistent : Bool) : Traced (Except Failure Session) :=
  let verdict := initialTable options withPrelude
  match verdict.outcome with
  | .error e => ⟨verdict.log, .error (.labelled "loading prelude: " (.kernel e))⟩
  | .ok table =>
    ⟨verdict.log ++ .one (.sessionStarted withPrelude persistent),
      .ok ⟨options, withPrelude, table⟩⟩

/-- Runs a statement: the session after it, and what it prints. -/
def run (s : Session) (statement : Statement) : Session × Traced (Except Failure String) :=
  let verdict := statement.run s.options s.table
  match verdict.outcome with
  | .ok (table, output) => ({ s with table := table }, ⟨verdict.log, .ok output⟩)
  | .error e =>
    (s, ⟨verdict.log ++ .one (.commandRejected statement.render e.message), .error (.kernel e)⟩)

/-- Reads a command and runs it. -/
def execute (s : Session) (input : Text) : Session × Traced (Except Failure String) :=
  match parseCommand input with
  | .error e => (s, ⟨.empty, .error (.script e)⟩)
  | .ok command => s.run command.statement

/-- Executes commands up to the first that fails; the failure is labelled with its number. -/
def replay (s : Session) (label : Nat → String) : Nat → List Text → Except Failure Session
  | _, [] => .ok s
  | i, input :: rest =>
    let (s, result) := s.execute input
    match result.value with
    | .error e => .error (.labelled (label i) e)
    | .ok _ => s.replay label (i + 1) rest

end Session

end ProofKernel
