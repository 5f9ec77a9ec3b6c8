import ProofKernel.Session.Recorded
import ProofKernel.Text.Class

/-!
# Conversations

A session that is driven by lines of input.  A command may go over several lines, and is complete
with a line that ends in a period.

* `Repl.feed` takes a line, `Repl.run` takes a whole input.
* `Repl.prompt` is what asks for the next line.
-/

set_option autoImplicit false
namespace ProofKernel

/-- A session, its place in a journal if it is recorded, and the lines of a command that is not
complete yet. -/
structure Repl where
  session : Session
  record : Option (String × Journal)
  pending : Text

namespace Repl

/-- Executes a command, and records it if the session is recorded. -/
def execute (r : Repl) (input : Text) : Repl × Except Failure String :=
  match r.record with
  | none =>
    let (session, result) := r.session.execute input
    ({ r with session := session }, result.value)
  | some (id, journal) =>
    let (s, journal, result) := RecordedSession.execute ⟨id, r.session⟩ journal false input
    ({ r with session := s.session, record := some (id, journal) }, result.value)

/-- What is printed for the result of a command. -/
def report : Except Failure String → String
  | .error e => "Error: " ++ e.message ++ "\n"
  | .ok output => if output.isEmpty then "" else output ++ "\n"

/-- A text without the white space at its two ends. -/
def trim (line : Text) : Text :=
  ((line.dropWhile (·.holds isBlank)).reverse.dropWhile (·.holds isBlank)).reverse

/-- Takes a line.  Returns nothing when the line ends the conversation, else what is printed. -/
def feed (r : Repl) (line : Text) : Option (Repl × String) :=
  let line := trim line
  if r.pending.isEmpty && line.isEmpty then some (r, "")
  else if r.pending.isEmpty && [":quit", ":q"].any (fun word => line == Text.ofString word) then
    none
  else
    let pending := r.pending ++ line ++ [.char '\n']
    if line.getLast? == some (.char '.') then
      let (r, result) := { r with pending := [] }.execute pending
      some (r, report result)
    else some ({ r with pending := pending }, "")

/-- What asks for a line. -/
def prompt (r : Repl) (interactive : Bool) : String :=
  if !interactive then "" else if r.pending.isEmpty then "> " else ". "

/-- The longest line that is taken, in bytes. -/
def longestLine : Nat :=
  65535

/-- The lines of an input.  What follows the last line break is a line unless it is empty. -/
def lines (input : Text) : List Text :=
  let pieces := input.splitOn (.char '\n')
  if pieces.getLast?.all List.isEmpty then pieces.dropLast else pieces

/-- What becomes of a conversation with a line. -/
inductive Turn where
  /-- The line ends the conversation. -/
  | quit
  | tooLong
  | goesOn (r : Repl) (output : String)

/-- The wording for a line that is too long. -/
def tooLong : String :=
  "bufio.Scanner: token too long"

/-- Takes a line, and asks for the next. -/
def turn (r : Repl) (interactive : Bool) (line : Text) : Turn :=
  if longestLine < line.width then .tooLong
  else
    match r.feed line with
    | none => .quit
    | some (r, output) => .goesOn r (output ++ r.prompt interactive)

/-- Takes lines until one ends the conversation, or is too long.  Returns what is printed, and why
it stopped early. -/
def runLines (interactive : Bool) : Repl → List Text → Repl × String × Option String
  | r, [] => (r, "", none)
  | r, line :: rest =>
    match r.turn interactive line with
    | .quit => (r, "", none)
    | .tooLong => (r, "", some tooLong)
    | .goesOn r output =>
      let (final, more, stop) := runLines interactive r rest
      (final, output ++ more, stop)

/-- Takes an input to its end. -/
def run (r : Repl) (interactive : Bool) (input : Text) : Repl × String × Option String :=
  let (final, output, stop) := r.runLines interactive (lines input)
  (final, r.prompt interactive ++ output, stop)

end Repl

end ProofKernel
