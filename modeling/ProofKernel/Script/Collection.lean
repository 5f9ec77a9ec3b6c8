import ProofKernel.Host
import ProofKernel.Text.Symbol

/-!
# Scripts in a folder

* `findScripts` finds the script files of a folder.
* `expectation?` is what a script says of itself that is meant to fail, in a comment of the form
  `(* expect: Kind *)`.
-/

set_option autoImplicit false
namespace ProofKernel

/-- The extension of script files. -/
def scriptExtension : String :=
  ".v"

/-- The names of script files among those in a folder: files with the extension whose names begin
with `start`, in order. -/
def scriptNames (start : String) (entries : List (String × Bool)) : List String :=
  ((entries.filter fun (name, isFolder) =>
    !isFolder && name.startsWith start && Path.extension name == scriptExtension).map
      Prod.fst).mergeSort fun a b => a ≤ b

/-- The paths of the script files of a folder. -/
def findScripts {m : Type → Type} [Monad m] [Host m] (folder start : String) :
    m (Except FileError (List String)) := do
  return (← Host.listFolder folder).map fun entries =>
    (scriptNames start entries).map (Path.join folder)

/-! ## Expectations -/

namespace Expectation

/-- White space inside the comment: blank, tabulator, form feed and the line breaks of ASCII. -/
def isGap (c : Char) : Bool :=
  c == ' ' || c == '\t' || c == '\n' || c == '\x0c' || c == '\r'

/-- A text without the white space in front of it. -/
def skipGap (text : Text) : Text :=
  text.dropWhile (·.holds isGap)

/-- What follows `start` in a text that starts with it. -/
def after? (start : String) (text : Text) : Option Text :=
  if text.startsWith start then some (text.drop start.length) else none

/-- The kind named by a comment at the head of a text. -/
def read? (text : Text) : Option String := do
  let text ← after? "(*" text
  let text ← after? "expect:" (skipGap text)
  let text := skipGap text
  let kind := text.takeWhile (·.holds Char.isAlpha)
  guard !kind.isEmpty
  let _ ← after? "*)" (skipGap (text.drop kind.length))
  return Text.toString kind

end Expectation

/-- The kind of failure a script expects. -/
def expectation? : Text → Option String
  | [] => none
  | s :: rest => (Expectation.read? (s :: rest)).or (expectation? rest)

end ProofKernel
