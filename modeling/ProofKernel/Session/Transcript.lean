import ProofKernel.Repl
import ProofKernel.Text.Quoted
import ProofKernel.Trace

/-!
# Transcripts

The commands of a script, each with what a session answers.

* `Session.transcript` runs commands one after the other and writes them down.
* `Entry.line` writes an entry of a log on one line: its severity, where it comes from, what
  happened and its fields, divided by tabulators.  The fields are an object of JSON.
-/

set_option autoImplicit false
namespace ProofKernel

/-! ## Logs as lines of text -/

namespace Console

/-- A character between the quotes of JSON.  Only quotes, backslashes and control characters are
escaped. -/
def escape (c : Char) : List Char :=
  if c == '"' || c == '\\' then ['\\', c]
  else if c == '\n' then ['\\', 'n']
  else if c == '\r' then ['\\', 'r']
  else if c == '\t' then ['\\', 't']
  else if c.toNat < 0x20 then '\\' :: 'u' :: Quoted.hex 4 c.toNat
  else [c]

/-- A text of JSON. -/
def text (s : String) : String :=
  "\"" ++ String.ofList (s.toList.flatMap escape) ++ "\""

/-- The value of a field. -/
def value : FieldValue → String
  | .text s => text s
  | .flag b => toString b
  | .number n => toString n
  | .names l => "[" ++ ", ".intercalate (l.map text) ++ "]"

/-- The fields of an entry. -/
def object (fields : List (String × FieldValue)) : String :=
  "\x7b" ++ ", ".intercalate (fields.map fun (key, v) => text key ++ ": " ++ value v) ++ "\x7d"

end Console

/-- An entry as a line, of a session with an identifier.  The identifier is shown with the entries
of the session itself, which have no origin. -/
def Entry.line (e : Entry) (id : String) : String :=
  let fields := if e.origin.isEmpty then ("session", .text id) :: e.fields else e.fields
  let origin := if e.origin.isEmpty then [] else [e.origin]
  let parts := [e.severity.name.map Char.toUpper] ++ origin ++ [e.message] ++
    if fields.isEmpty then [] else [Console.object fields]
  "\t".intercalate parts ++ "\n"

/-- A log as lines. -/
def Log.lines (log : Log) (id : String) : String :=
  String.join (log.toList.map fun event => event.entry.line id)

/-! ## Transcripts -/

/-- A transcript, and whether a command failed. -/
structure Transcript where
  text : Text
  failed : Bool

/-- One transcript after another. -/
def Transcript.append (a b : Transcript) : Transcript :=
  ⟨a.text ++ b.text, a.failed || b.failed⟩

instance : Append Transcript :=
  ⟨Transcript.append⟩

namespace Session

/-- Runs a command.  What happened on the way is shown between the command and its answer. -/
def transcribe (s : Session) (showLog : Log → String) (c : Command) : Session × Transcript :=
  let (s, result) := s.run c.statement
  let failed := match result.value with
    | .ok _ => false
    | .error _ => true
  (s, ⟨Text.ofString "> " ++ c.source ++
    Text.ofString ("\n" ++ showLog result.log ++ Repl.report result.value), failed⟩)

/-- Runs commands one after the other. -/
def transcript (s : Session) (showLog : Log → String) : List Command → Transcript
  | [] => ⟨[], false⟩
  | c :: rest =>
    let (s, t) := s.transcribe showLog c
    t ++ s.transcript showLog rest

end Session

end ProofKernel
