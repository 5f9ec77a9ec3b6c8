import ProofKernel.Form.Multipart
import ProofKernel.Script.Collection
import ProofKernel.Session.Transcript
import ProofKernel.Settings
import ProofKernel.Text.ByteOrder
import ProofKernel.Web.Page

/-!
# The service

What is answered to requests over the web.

* `Web.index` is the page on which a script can be edited.
* `Web.check` runs the script of a form in a session of its own, and answers with the transcript.
-/

set_option autoImplicit false
namespace ProofKernel
namespace Web

/-- An answer: its status, what kind of contents it has, and the contents. -/
structure Response where
  status : Nat
  contentType : String
  body : Text

/-- The kind of contents of everything but pages. -/
def plain : String :=
  "text/plain; charset=utf-8"

/-- The answer to a request that makes no sense. -/
def refusal (message : Text) : Response :=
  ⟨400, plain, message ++ [.char '\n']⟩

/-- The page on which a script can be edited. -/
def index : Response :=
  ⟨200, "text/html; charset=utf-8", Text.ofString (Page.render Page.sample)⟩

/-- The name of the script of a form.  A name must have the extension of scripts, and no folder. -/
def scriptName? (form : Form) : Option Text :=
  let name := form.value "filename"
  if name.isEmpty then some (Text.ofString ("main" ++ scriptExtension))
  else if (Text.ofString scriptExtension).isSuffixOf name && !name.any (·.is '/') then some name
  else none

/-- Options with everything traced. -/
def traced (options : Options) : Options :=
  { options with traceChecker := true, traceReduce := true, traceGuard := true }

/-- Runs commands in a new session with an identifier, and writes down what happens. -/
def transcript (s : Settings) (id : String) (trace : Bool) (commands : List Command) : Response :=
  let options := if trace then traced s.options else s.options
  let showLog (log : Log) : String := if trace then log.lines id else ""
  let opened := Session.start options s.withPrelude false
  match opened.value with
  | .error e => ⟨500, plain, Text.ofString (e.message ++ "\n")⟩
  | .ok session =>
    ⟨200, plain, Text.ofString (showLog opened.log) ++ (session.transcript showLog commands).text⟩

/-- Checks the script of a form.  The field `code` holds the script, `filename` its name, and with
the field `trace` the transcript shows what happened on the way. -/
def checkForm (s : Settings) (id : String) (form : Form) : Response :=
  match scriptName? form with
  | none => refusal (Text.ofString "invalid filename")
  | some name =>
    match parseScript "" (Text.ofFile (Symbol.encode (form.value "code"))) with
    | .error e => refusal (name ++ Text.ofString (":" ++ e.message))
    | .ok script => transcript s id (!(form.value "trace").isEmpty) script.commands

/-- Checks the script in a message of a media type. -/
def check (s : Settings) (id : String) (type message : Text) : Response :=
  match Form.ofMessage type message with
  | .error fault => refusal fault.message
  | .ok form => checkForm s id form

end Web
end ProofKernel
