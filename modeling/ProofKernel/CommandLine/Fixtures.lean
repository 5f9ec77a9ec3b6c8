import ProofKernel.CommandLine.Run
import ProofKernel.Script.Collection
import ProofKernel.Session.Transcript

/-!
# Scripts of a folder

As examples, every script of a folder is replayed through a session of its own, and the transcript
printed.  As fixtures they are tests: those named `pass_…` must check, and those named `fail_…` must
fail with the kind of error that they announce.

* `runExamples` replays the scripts of a folder.
* `judge` says what became of a fixture.
-/

set_option autoImplicit false
namespace ProofKernel
namespace CommandLine

variable {m : Type → Type} [Monad m] [Host m]

/-! ## Examples -/

/-- The options of programs that read no settings. -/
def plainOptions : Options :=
  .withFuel 0 false

/-- The end of a program whose folder cannot be listed. -/
def brokenOff (e : FileError) : Reply :=
  ⟨[], Text.ofString ("panic: " ++ e.message ++ "\n"), 2⟩

/-- The transcript of a script. -/
def replayScript (path : String) : m Transcript := do
  let heading : Transcript := ⟨Text.ofString ("=== " ++ path ++ " ===\n"), false⟩
  let broken (e : Failure) : Transcript :=
    ⟨Text.ofString ("Error: " ++ e.message ++ "\n"), true⟩
  match ← readScript path with
  | .error e => return heading ++ broken e
  | .ok script =>
    match (Session.start plainOptions true false).value with
    | .error e => return heading ++ broken e
    | .ok s => return heading ++ s.transcript (fun _ => "") script.commands

/-- Replays the scripts of the folder that the arguments name. -/
def runExamples (args : List String) : m Reply := do
  match ← findScripts (args.headD "examples") "" with
  | .error e => return brokenOff e
  | .ok paths =>
    let parts ← paths.mapM replayScript
    let whole := parts.foldl Transcript.append ⟨[], false⟩
    return ⟨whole.text, [], if whole.failed then 1 else 0⟩

/-! ## Fixtures -/

/-- What became of a fixture. -/
inductive Judgement where
  | skipped
  | passed
  | failedAsExpected (e : Failure)
  | noExpectation
  | passedUnexpectedly (kind : String)
  | failedOtherwise (kind : String) (e : Failure)
  | failedUnexpectedly (e : Failure)

namespace Judgement

/-- Whether a fixture is not as it should be. -/
def isBad : Judgement → Bool
  | skipped | passed | failedAsExpected _ => false
  | _ => true

/-- The first line of the wording of a failure. -/
def firstLine (e : Failure) : String :=
  String.ofList (e.message.toList.takeWhile (· != '\n'))

/-- What is printed about a fixture. -/
def line (name : String) : Judgement → String
  | skipped => "skip " ++ name ++ "\n"
  | passed => "ok   " ++ name ++ "\n"
  | failedAsExpected e => "ok   " ++ name ++ " (" ++ firstLine e ++ ")\n"
  | noExpectation => "FAIL " ++ name ++ ": no expect comment\n"
  | passedUnexpectedly kind => "FAIL " ++ name ++ ": expected " ++ kind ++ "\n"
  | failedOtherwise kind e =>
    "FAIL " ++ name ++ ": expected " ++ kind ++ ", got " ++ firstLine e ++ "\n"
  | failedUnexpectedly e => "FAIL " ++ name ++ ": unexpected error:\n" ++ e.message ++ "\n"

end Judgement

/-- Judges a fixture by its name, how it failed if it did, and what it expects. -/
def judge (name : String) (failed : Option Failure) (expected : Option String) : Judgement :=
  if name.startsWith "fail_" then
    match expected, failed with
    | none, _ => .noExpectation
    | some kind, none => .passedUnexpectedly kind
    | some kind, some e => if e.hasKind kind then .failedAsExpected e else .failedOtherwise kind e
  else if name.startsWith "pass_" then
    match failed with
    | none => .passed
    | some e => .failedUnexpectedly e
  else .skipped

/-- How a script fails. -/
def scriptFailure (path : String) : m (Option Failure) := do
  match ← readScript path with
  | .error e => return some e
  | .ok script =>
    match ((Package.mk [script]).check plainOptions true false).value with
    | .error e => return some e
    | .ok report => return report.failure?

/-- What a script expects. -/
def scriptExpectation (path : String) : m (Option String) := do
  match ← Host.readFile path with
  | .error _ => return none
  | .ok bytes => return expectation? (Text.ofFile bytes)

/-- Judges the script at a path. -/
def judgeScript (path : String) : m (String × Judgement) := do
  let name := Path.name path
  return (name, judge name (← scriptFailure path) (← scriptExpectation path))

/-- Checks the fixtures of the folder that the arguments name. -/
def runFixtures (args : List String) : m Reply := do
  match ← findScripts (args.headD "tests") "" with
  | .error e => return brokenOff e
  | .ok paths =>
    let judged ← paths.mapM judgeScript
    let bad := (judged.filter fun (_, j) => j.isBad).length
    let output := String.join (judged.map fun (name, j) => j.line name)
    if bad == 0 then return ⟨Text.ofString output, [], 0⟩
    else
      return ⟨Text.ofString (output ++ toString bad ++ " of " ++ toString paths.length ++
        " fixtures failed\n"), [], 1⟩

end CommandLine
end ProofKernel
