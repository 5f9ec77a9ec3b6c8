import ProofKernel.CommandLine.Fixtures
import Std.Time

/-!
# The programs

The machine the programs run on, and the loops that go on until the user ends them.

* `kernel` is the program itself; under the names `tests` and `example` it checks fixtures and
  replays examples.
-/

set_option autoImplicit false
namespace ProofKernel

/-! ## The machine -/

/-- What an error of the machine says about a file. -/
def FileFault.ofError : IO.Error → FileFault
  | .inappropriateType _ code _ => if code == 20 then .notFolder else .isFolder
  | .alreadyExists .. => .alreadyThere
  | .permissionDenied .. => .refused
  | _ => .absent

/-- Tries an operation on a file. -/
def attempt {α : Type} (operation path : String) (act : IO α) : IO (Except FileError α) := do
  match ← act.toBaseIO with
  | .ok a => return .ok a
  | .error e =>
    let fault := FileFault.ofError e
    let tried := if fault = .isFolder && operation == "open" then "read" else operation
    return .error ⟨tried, path, fault⟩

/-- The contents of a file. -/
def readBytes (path : String) : IO (Except FileError (List UInt8)) :=
  attempt "open" path do return (← IO.FS.readBinFile path).toList

/-- The variables that have a meaning. -/
def knownVariables : List String :=
  ["KERNEL_CONFIG", "KERNEL_LOG_LEVEL", "KERNEL_STORE", "KERNEL_FUEL",
    "KERNEL_COMPLETION_DESCRIPTIONS"]

/-- A random identifier, in groups of hexadecimal digits. -/
def randomId (bytes : List UInt8) : String :=
  let marked := (bytes.zip (List.range 16)).map fun (b, i) =>
    if i == 6 then b % 16 + 0x40 else if i == 8 then b % 64 + 0x80 else b
  let group (start size : Nat) : String :=
    String.ofList (((marked.drop start).take size).flatMap fun b => Quoted.hex 2 b.toNat)
  "-".intercalate [group 0 4, group 4 2, group 6 2, group 8 2, group 10 6]

/-- Writes a journal into its file, if it has one that may be written. -/
def storeJournal (address : String) (journal : Journal) : IO Unit := do
  match Address.place address with
  | .error _ | .ok .memory | .ok (.file _ .readOnly) => return ()
  | .ok (.file path _) => IO.FS.writeFile path journal.stored

/-- Reads a journal from a file that may be used in some way. -/
def loadFile (path : String) (access : Address.Access) :
    IO (Except Directory.JournalError Journal) := do
  match ← readBytes path with
  | .error ⟨_, _, .absent⟩ =>
    if access = .create then
      IO.FS.writeFile path Journal.empty.stored
      return .ok .empty
    else return .error .unopenable
  | .error _ => return .error .unopenable
  | .ok [] =>
    if access = .readOnly then return .error .readOnly
    else
      IO.FS.writeFile path Journal.empty.stored
      return .ok .empty
  | .ok bytes =>
    match Journal.ofStored? (Symbol.decode bytes).toString with
    | some journal => return .ok { journal with isReadOnly := access == .readOnly }
    | none => return .error .notJournal

/-- Reads the journal at an address. -/
def loadJournal (address : String) : IO (Except Directory.JournalError Journal) := do
  if address == Address.memoryName then return .ok .empty
  let folder := Path.folder address
  match ← attempt "mkdir" folder (IO.FS.createDirAll folder) with
  | .error e => return .error (.folder e)
  | .ok () =>
    match Address.place address with
    | .error flaw => return .error (.badAddress flaw)
    | .ok .memory => return .ok .empty
    | .ok (.file path access) => loadFile path access

/-- The number of processors of the machine. -/
def countProcessors : IO Nat := do
  match ← readBytes "/proc/cpuinfo" with
  | .error _ => return 1
  | .ok bytes =>
    let lines := (Symbol.decode bytes).splitOn (.char '\n')
    return max 1 (lines.filter (Text.startsWith · "processor")).length

instance : Host IO where
  readFile := readBytes
  writeFile path bytes := attempt "open" path (IO.FS.writeBinFile path ⟨bytes.toArray⟩)
  listFolder path := attempt "open" path do
    let entries ← ((← IO.currentDir) / path).readDir
    let named ← entries.toList.mapM fun e => do return (e.fileName, ← e.path.isDir)
    return named.mergeSort fun a b => a.1 ≤ b.1
  makeFolders path := attempt "mkdir" path (IO.FS.createDirAll path)
  isPresent path := do return (← attempt "open" path (IO.FS.Handle.mk path .read)).isOk
  openJournal := loadJournal
  saveJournal := storeJournal
  environment := do
    let values ← knownVariables.mapM fun name => do return (name, ← IO.getEnv name)
    return fun name => (values.lookup name).bind id
  processors := countProcessors
  workingFolder := do return (← IO.currentDir).toString
  clock := do
    let now ← Std.Time.PlainDateTime.now
    return ⟨now.format "uuuu-MM-dd HH:mm:ss", now.format "HH:mm:ss"⟩
  newId := do return randomId (← IO.getRandomBytes 16).toList

/-! ## Loops -/

/-- Writes a text. -/
def writeOut (output : IO.FS.Stream) (text : Text) : IO Unit := do
  output.write ⟨(Symbol.encode text).toArray⟩
  output.flush

/-- Prints a text. -/
def display (text : Text) : IO Unit := do
  writeOut (← IO.getStdout) text

/-- The next line of an input, without its line break. -/
partial def nextLine (input : IO.FS.Stream) (line : List UInt8) : IO (Option Text) := do
  match (← input.read 1).toList with
  | [] => return if line.isEmpty then none else some (Symbol.decode line.reverse)
  | 0x0A :: _ => return some (Symbol.decode line.reverse)
  | bytes => nextLine input (bytes ++ line)

/-- Takes lines of an input until the conversation ends. -/
partial def converse (input : IO.FS.Stream) (interactive : Bool) (repl : Repl) (path : String) :
    IO (Option Text) := do
  match ← nextLine input [] with
  | none => return none
  | some line =>
    match repl.turn interactive line with
    | .quit => return none
    | .tooLong => return some (Text.ofString Repl.tooLong)
    | .goesOn repl output =>
      display (Text.ofString output)
      match repl.record with
      | some (_, journal) => storeJournal path journal
      | none => pure ()
      converse input interactive repl path

/-- Checks files again whenever one of them has other contents. -/
partial def keepWatching (watcher : Watcher) (s : Settings) (paths : List String)
    (seen : List (String × Option (List UInt8))) : IO Unit := do
  IO.sleep 200
  let now ← watcher.paths.mapM fun path => do return (path, (← readBytes path).toOption)
  let events : List FileEvent := (now.filter fun (path, contents) =>
    contents.isSome && seen.lookup path != some contents).map fun (path, _) => ⟨path, [.write]⟩
  if events.any watcher.concerns && !seen.isEmpty then
    display (Text.ofString (← CommandLine.recheck s paths))
  keepWatching watcher s paths now

/-- Prints what a program printed, and ends as it did. -/
def conclude (reply : CommandLine.Reply) : IO UInt32 := do
  display reply.output
  writeOut (← IO.getStderr) reply.errors
  return UInt32.ofNat reply.exit

/-- Runs the kernel. -/
def runKernel (args : List String) : IO UInt32 := do
  let p ← CommandLine.start (m := IO) args
  match p.next with
  | .done => conclude (CommandLine.finish p.output p.errors none)
  | .failed message => conclude (CommandLine.finish p.output p.errors (some message))
  | .unknown => conclude ⟨Text.ofString p.output, p.errors, 1⟩
  | .converse repl path =>
    writeOut (← IO.getStderr) p.errors
    let input ← IO.getStdin
    let interactive ← input.isTty
    display (Text.ofString (p.output ++ repl.prompt interactive))
    let stop ← converse input interactive repl path
    conclude (CommandLine.finish "" [] stop)
  | .watch watcher s paths =>
    display (Text.ofString p.output)
    keepWatching watcher s paths []
    return 0

end ProofKernel

open ProofKernel in
/-- Runs the program under whose name it was started. -/
def main (args : List String) : IO UInt32 := do
  match Path.name (← IO.appPath).toString with
  | "tests" => conclude (← CommandLine.runFixtures (m := IO) args)
  | "example" => conclude (← CommandLine.runExamples (m := IO) args)
  | _ => runKernel args
