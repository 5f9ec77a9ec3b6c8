import ProofKernel.Directory
import ProofKernel.Environment

/-!
# The outside

What a program asks of the machine it runs on: files, journals, the environment, the clock and new
identifiers.

* `Host` lists the questions; a program is written for any host.
* `World` is a machine as a value, and `Simulated` the host that answers from it.
-/

set_option autoImplicit false
namespace ProofKernel

/-- A reading of the clock, as it is displayed. -/
structure Clock where
  /-- Date and time. -/
  stamp : String
  /-- The time alone. -/
  time : String
deriving DecidableEq

/-- A machine that programs run on. -/
class Host (m : Type → Type) where
  readFile (path : String) : m (Except FileError (List UInt8))
  writeFile (path : String) (bytes : List UInt8) : m (Except FileError Unit)
  /-- The names in a folder, in order, each with whether it is a folder. -/
  listFolder (path : String) : m (Except FileError (List (String × Bool)))
  makeFolders (path : String) : m (Except FileError Unit)
  isPresent (path : String) : m Bool
  openJournal (address : String) : m (Except Directory.JournalError Journal)
  saveJournal (address : String) (journal : Journal) : m Unit
  environment : m Environment
  processors : m Nat
  workingFolder : m String
  clock : m Clock
  newId : m String

/-- A machine as a value. -/
structure World where
  directory : Directory
  folder : String
  environment : Environment
  processors : Nat
  clock : Clock
  /-- The identifiers that were not given out yet. -/
  ids : List String

/-- Programs that run on a machine that is a value. -/
abbrev Simulated : Type → Type := StateM World

namespace Simulated

/-- Answers a question about files. -/
def ask {α : Type} (question : Directory → String → α) : Simulated α := do
  let w ← get
  return question w.directory w.folder

/-- Changes the files, unless that fails. -/
def change (operation : Directory → String → Except FileError Directory) :
    Simulated (Except FileError Unit) := do
  let w ← get
  match operation w.directory w.folder with
  | .error e => return .error e
  | .ok d =>
    set { w with directory := d }
    return .ok ()

instance : Host Simulated where
  readFile path := ask fun d folder => d.read folder path
  writeFile path bytes := change fun d folder => d.write folder path bytes
  listFolder path := ask fun d folder => d.list folder path
  makeFolders path := change fun d folder => d.makeFolders folder path
  isPresent path := ask fun d folder => d.isPresent folder path
  openJournal path := do
    let w ← get
    let (d, result) := w.directory.openJournal w.folder path
    set { w with directory := d }
    return result
  saveJournal path journal := do
    let w ← get
    set { w with directory := w.directory.saveJournal w.folder path journal }
  environment := return (← get).environment
  processors := return (← get).processors
  workingFolder := return (← get).folder
  clock := return (← get).clock
  newId := do
    let w ← get
    match w.ids with
    | id :: rest =>
      set { w with ids := rest }
      return id
    | [] => return ""

end Simulated

end ProofKernel
