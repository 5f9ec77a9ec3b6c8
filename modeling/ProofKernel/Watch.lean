import ProofKernel.Path

/-!
# Watching files

Which changes on disk concern a set of files.  Files are watched through their folders, so that a
file that an editor replaces is still followed.

* `Watcher.concerns` says whether an event concerns a watched file.
* `Watcher.folders` are the folders that have to be watched.
-/

set_option autoImplicit false
namespace ProofKernel

/-- What can happen to a file. -/
inductive FileChange where
  | create
  | write
  | remove
  | rename
  | chmod
deriving DecidableEq, Repr

/-- Things that happened to a file at once. -/
structure FileEvent where
  path : String
  changes : List FileChange
deriving DecidableEq

/-- Whether a change can give a file new contents. -/
def FileChange.isRelevant : FileChange → Bool
  | create | write | rename => true
  | remove | chmod => false

/-- The absolute paths of the files that are watched, in order and each once. -/
structure Watcher where
  workingFolder : String
  paths : List String
deriving DecidableEq

namespace Watcher

/-- Names in order, each once. -/
def sorted (names : List String) : List String :=
  (names.mergeSort fun a b => a ≤ b).eraseDups

/-- Watches files, whose paths are given from a folder. -/
def ofPaths (workingFolder : String) (paths : List String) : Watcher :=
  ⟨workingFolder, sorted (paths.map (Path.absolute workingFolder))⟩

/-- Whether an event concerns a watched file. -/
def concerns (w : Watcher) (event : FileEvent) : Bool :=
  event.changes.any FileChange.isRelevant &&
    w.paths.contains (Path.absolute w.workingFolder event.path)

/-- The folders of the watched files, in order and each once. -/
def folders (w : Watcher) : List String :=
  sorted (w.paths.map Path.folder)

/-- The failure to watch a folder that is not there. -/
def missing (folder : String) : String :=
  "watching " ++ folder ++ ": no such file or directory"

end Watcher

end ProofKernel
