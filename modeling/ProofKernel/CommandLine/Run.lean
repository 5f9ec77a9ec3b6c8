import ProofKernel.Batch
import ProofKernel.CommandLine.Completion
import ProofKernel.Host
import ProofKernel.Repl
import ProofKernel.Settings
import ProofKernel.Text.ByteOrder
import ProofKernel.Watch

/-!
# Running the kernel from the command line

What the commands do, on any host.

* `CommandLine.start` finds the command, reads its flags and its settings, and runs it.  A
  conversation and a watch go on after that; everything else is finished.
* `CommandLine.run` runs a command to its end on a given input.
-/

set_option autoImplicit false
namespace ProofKernel

/-- The script in a file. -/
def readScript {m : Type → Type} [Monad m] [Host m] (path : String) :
    m (Except Failure Script) := do
  match ← Host.readFile path with
  | .error e => return .error (.external e.message)
  | .ok bytes => return (parseScript path (Text.ofFile bytes)).mapError Failure.script

namespace CommandLine

/-- What a program printed, and how it ended. -/
structure Reply where
  output : Text
  errors : Text
  exit : Nat

/-- How a command goes on. -/
inductive Next where
  | done
  | failed (message : Text)
  /-- The command line names no command, and that was said already. -/
  | unknown
  /-- A conversation, whose journal is kept at a path. -/
  | converse (repl : Repl) (path : String)
  /-- Wait for changes of files, and check them again. -/
  | watch (watcher : Watcher) (settings : Settings) (paths : List String)

/-- What a command printed, and how it goes on. -/
structure Progress where
  output : String
  errors : Text
  next : Next

variable {m : Type → Type} [Monad m] [Host m]

/-! ## Settings -/

/-- The settings of a file.  A file that is not there has none. -/
def loadSettings (path : String) : m (Except Text Settings) := do
  let env ← Host.environment
  let processors ← Host.processors
  let load (file : Option String) : Except Text Settings :=
    (Settings.load processors env file).mapError SettingsError.message
  match ← Host.readFile path with
  | .ok bytes =>
    match (Symbol.decode bytes).toString? with
    | some text => return load (some text)
    | none => return .error (SettingsError.message
      (.malformed (.plain "invalid leading UTF-8 octet")))
  | .error e =>
    if e.fault = .absent then return load none
    else return .error (Text.ofString ("failed to read config: " ++ e.message))

/-- The file of the settings when no flag names one. -/
def settingsPath : m String := do
  return (← Host.environment).get "KERNEL_CONFIG" "kernel.yaml"

/-- The settings of a command, from its flags, a file and the environment. -/
def settingsOf (i : Invocation) : m (Except Text Settings) := do
  let named := i.text "config" ""
  let path ← if named.isEmpty then settingsPath else pure named
  match ← loadSettings path with
  | .error e => return .error e
  | .ok s =>
    let s := if i.isOn "no-prelude" then { s with withPrelude := false } else s
    return .ok (if i.isOn "verbose" then { s with level := Text.ofString "debug" } else s)

/-! ## Commands -/

/-- A command that failed. -/
def failure (message : String) : Progress :=
  ⟨"", [], .failed (Text.ofString message)⟩

/-- A command that is finished. -/
def success (output : String) : Progress :=
  ⟨output, [], .done⟩

/-- Checks files together. -/
def checkFiles (s : Settings) (paths : List String) : m (Except Failure Report) := do
  let rec readAll : List String → m (Except Failure (List Script))
    | [] => return .ok []
    | path :: rest => do
      match ← readScript path with
      | .error e => return .error e
      | .ok script => return (← readAll rest).map (script :: ·)
  match ← readAll paths with
  | .error e => return .error e
  | .ok scripts => return ((Package.mk scripts).check s.options s.withPrelude false).value

/-- A text on a line of its own, unless it is empty. -/
def line (text : String) : String :=
  if text.isEmpty then "" else text ++ "\n"

/-- Checks files and prints what their commands print. -/
def runCheck (s : Settings) (paths : List String) : m Progress := do
  match ← checkFiles s paths with
  | .error e => return failure e.message
  | .ok report =>
    let output := String.join (report.outcomes.map fun o => line o.render)
    let failed := report.failed.length
    if failed == 0 then return success output
    else
      let message := toString failed ++ " of " ++ toString report.outcomes.length ++
        " commands failed"
      return ⟨output, [], .failed (Text.ofString message)⟩

/-- The table that a term is evaluated in. -/
def loadTable (s : Settings) (paths : List String) : m (Except Failure SymbolTable) := do
  if paths.isEmpty then
    return (initialTable s.options s.withPrelude).outcome.mapError Failure.kernel
  else
    match ← checkFiles s paths with
    | .error e => return .error e
    | .ok report =>
      match report.failure? with
      | some e => return .error e
      | none => return .ok report.table

/-- Prints the normal form of a term and its type. -/
def runEval (s : Settings) (paths args : List String) : m Progress := do
  match ← loadTable s paths with
  | .error e => return failure e.message
  | .ok table =>
    match parseTerm (Text.ofString (" ".intercalate args)) with
    | .error e => return failure e.message
    | .ok t =>
      match (infer s.options (.ofTable table) t).outcome with
      | .error e => return failure e.message
      | .ok type =>
        let value := (normalize s.options table t).value
        return success (value.render ++ " : " ++ type.render ++ "\n")

/-- The path of the journal: that of the flag, or else that of the settings. -/
def journalPath (s : Settings) (i : Invocation) : String :=
  let named := i.text "db" ""
  if named.isEmpty then s.store.toString else named

/-- Opens a session that is not recorded. -/
def converse (s : Settings) : Progress :=
  match (Session.start s.options s.withPrelude false).value with
  | .error e => failure e.message
  | .ok session => ⟨"", [], .converse ⟨session, none, []⟩ ""⟩

/-- Opens a recorded session: a new one, or one that is resumed. -/
def converseRecorded (s : Settings) (path resumed : String) : m Progress := do
  match ← Host.openJournal path with
  | .error e => return failure e.message
  | .ok journal =>
    if resumed.isEmpty then
      let id ← Host.newId
      let clock ← Host.clock
      let record : Journal.Record := ⟨id, s.withPrelude, clock.stamp⟩
      match (RecordedSession.start s.options journal false record).value with
      | .error e => return failure e.message
      | .ok (session, journal) =>
        Host.saveJournal path journal
        return ⟨"", Text.ofString ("session " ++ id ++ "\n"),
          .converse ⟨session.session, some (id, journal), []⟩ path⟩
    else
      match (RecordedSession.resume s.options journal false resumed).value with
      | .error e => return failure e.message
      | .ok session =>
        return ⟨"", Text.ofString ("session " ++ resumed ++ "\n"),
          .converse ⟨session.session, some (resumed, journal), []⟩ path⟩

/-- Starts a conversation. -/
def runConverse (s : Settings) (i : Invocation) : m Progress := do
  let path := journalPath s i
  let resumed := i.text "resume" ""
  if path.isEmpty then
    if resumed.isEmpty then return converse s
    else return failure "--resume needs a journal (--db or store.path)"
  else converseRecorded s path resumed

/-- Lists the sessions of a journal. -/
def runSessions (s : Settings) (i : Invocation) : m Progress := do
  let path := journalPath s i
  if path.isEmpty then return failure "no journal configured (--db or store.path)"
  else
    match ← Host.openJournal path with
    | .error e => return failure e.message
    | .ok journal =>
      match journal.sessions false with
      | .error e => return failure e.failure.message
      | .ok sessions =>
        return success (String.join (sessions.map fun x =>
          x.record.id ++ "  " ++ x.record.created ++ "  " ++ toString x.commands ++
            " commands  prelude=" ++ toString x.record.withPrelude ++ "\n"))

/-- Writes the default settings into a file. -/
def runWriteSettings (i : Invocation) : m Progress := do
  let path ← match i.args with
    | path :: _ => pure path
    | [] => settingsPath
  if (← Host.isPresent path) && !i.isOn "force" then
    return failure (path ++ " already exists (use --force to overwrite)")
  else
    let folder := Path.folder path
    let made : Except FileError Unit ←
      if folder == "." then pure (.ok ()) else Host.makeFolders folder
    match made with
    | .error e => return failure ("failed to create config directory: " ++ e.message)
    | .ok () =>
      let text := (Settings.default (← Host.processors)).render
      match ← Host.writeFile path text.toUTF8.toList with
      | .error e => return failure ("failed to write config: " ++ e.message)
      | .ok () => return success ("wrote " ++ path ++ "\n")

/-- Prints the settings. -/
def showSettings (s : Settings) : Progress :=
  success ("prelude: " ++ toString s.withPrelude ++ "\nnormalize.fuel: " ++ toString s.fuel ++
    "\ncheck.parallelism: " ++ toString s.parallelism ++ "\nlogging.level: " ++
    s.level.toString ++ "\nstore.path: " ++ quoteText s.store ++ "\n")

/-- Checks watched files and prints what failed. -/
def recheck (s : Settings) (paths : List String) : m String := do
  match ← checkFiles s paths with
  | .error e => return "Error: " ++ e.message ++ "\n"
  | .ok report =>
    let clock ← Host.clock
    return String.join (report.failed.map fun o => o.render ++ "\n") ++
      "-- " ++ clock.time ++ ": " ++ toString report.outcomes.length ++
      " commands, " ++ toString report.failed.length ++ " failed\n"

/-- Checks files, and prepares to watch them. -/
def runWatch (s : Settings) (paths : List String) : m Progress := do
  let watcher := Watcher.ofPaths (← Host.workingFolder) paths
  let output ← recheck s paths
  let rec firstMissing : List String → m (Option String)
    | [] => return none
    | folder :: rest => do
      if ← Host.isPresent folder then firstMissing rest else return some folder
  match ← firstMissing watcher.folders with
  | some folder => return ⟨output, [], .failed (Text.ofString (Watcher.missing folder))⟩
  | none => return ⟨output, [], .watch watcher s paths⟩

/-- Explains the command that words name. -/
def explain (words : List String) : Progress :=
  match find Program.root words with
  | .ok (r, _) => success r.help
  | .error _ =>
    let topic := " ".intercalate (words.map quoteRaw)
    let usage := Program.root.usage false
    ⟨"", Text.ofString ("Unknown help topic [" ++ topic ++ "]\n" ++ usage), .done⟩

/-- Says which words may come next. -/
def runComplete (words : List String) (withMeanings : Bool) : m Progress := do
  let wished := ((← Host.environment) "KERNEL_COMPLETION_DESCRIPTIONS").bind truth?
  let answer := Completion.ofWords Program.hiddenRoot words.dropLast (words.getLast?.getD "")
  return ⟨answer.render (withMeanings && wished.getD true), answer.remarks, .done⟩

/-- Runs an action with its settings. -/
def act (action : Action) (s : Settings) (i : Invocation) : m Progress :=
  match action with
  | .converse => runConverse s i
  | .checkFiles => runCheck s i.args
  | .evalTerm => runEval s (i.texts "load") i.args
  | .watchFiles => runWatch s i.args
  | .listSessions => runSessions s i
  | .writeSettings => runWriteSettings i
  | .showSettings => return showSettings s
  | .explain => return explain i.args
  | .complete withMeanings => runComplete i.args withMeanings
  | .integrate shell => return success (integrationScript shell (!i.isOn "no-descriptions"))

/-! ## Programs -/

/-- What is printed for an error, once by the command and once by the program. -/
def errorLines (message : Text) : Text :=
  Text.ofString "Error: " ++ message ++ [.char '\n'] ++ message ++ [.char '\n']

/-- The command that words name.  Those for shells are found only when they are meant. -/
def findCommand (words : List String) : Except (Route × String) (Route × List String) :=
  match find Program.hiddenRoot words with
  | .ok (r, rest) =>
    if Completion.readsNoFlags r.spec then .ok (r, rest) else find Program.root words
  | .error _ => find Program.root words

/-- Runs a command with its settings, if they can be used. -/
def perform (r : Route) (action : Action) (i : Invocation) : m Progress := do
  match r.badArgs? i.args with
  | some message => return failure message
  | none =>
    match ← settingsOf i with
    | .error message => return ⟨"", [], .failed message⟩
    | .ok s => act action s i

/-- Finds a command and runs it. -/
def start (words : List String) : m Progress := do
  match findCommand words with
  | .error (r, message) =>
    return ⟨"", Text.ofString ("Error: " ++ message ++ "\nRun '" ++ r.path ++
      " --help' for usage.\n" ++ message ++ "\n"), .unknown⟩
  | .ok (r, words) =>
    match r.spec.action with
    | some (.complete withMeanings) => perform r (.complete withMeanings) ⟨[], words⟩
    | action =>
      match Flag.parse (r.flags ++ [r.helpFlag]) words, action with
      | .error e, _ => return failure e.message
      | .ok _, none => return success r.help
      | .ok i, some action => if i.isOn "help" then return success r.help else perform r action i

/-- The end of a command that printed something, with or without an error. -/
def finish (output : String) (errors : Text) : Option Text → Reply
  | none => ⟨Text.ofString output, errors, 0⟩
  | some message => ⟨Text.ofString output, errors ++ errorLines message, 1⟩

/-- Runs a command to its end.  A conversation reads the whole input, and a watch is interrupted at
once. -/
def run (words : List String) (interactive : Bool) (input : Text) : m Reply := do
  let p ← start words
  match p.next with
  | .done | .watch .. => return finish p.output p.errors none
  | .failed message => return finish p.output p.errors (some message)
  | .unknown => return ⟨Text.ofString p.output, p.errors, 1⟩
  | .converse repl path =>
    let (repl, output, stop) := repl.run interactive input
    match repl.record with
    | some (_, journal) => Host.saveJournal path journal
    | none => pure ()
    return finish (p.output ++ output) p.errors (stop.map Text.ofString)

end CommandLine
end ProofKernel
