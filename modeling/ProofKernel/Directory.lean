import ProofKernel.Journal
import ProofKernel.Journal.Address
import ProofKernel.Path

/-!
# Files and folders

A tree of files, folders and journals, kept by absolute paths.

* `Directory.locate` follows a path, component by component.
* `Directory.read`, `Directory.write`, `Directory.list` and `Directory.makeFolders` are the usual
  operations; each fails with a `FileError` that names what was tried.
* `Directory.openJournal` opens the journal that is kept in a file.
-/

set_option autoImplicit false
namespace ProofKernel

/-! ## Errors -/

/-- Why an operation on a file fails. -/
inductive FileFault where
  | absent
  | notFolder
  | isFolder
  | alreadyThere
  | refused
deriving DecidableEq, Repr

/-- The wording of a fault. -/
def FileFault.message : FileFault → String
  | absent => "no such file or directory"
  | notFolder => "not a directory"
  | isFolder => "is a directory"
  | alreadyThere => "file exists"
  | refused => "permission denied"

/-- An operation that failed, and the path it was tried on. -/
structure FileError where
  operation : String
  path : String
  fault : FileFault
deriving DecidableEq

/-- The wording of an error. -/
def FileError.message (e : FileError) : String :=
  e.operation ++ " " ++ e.path ++ ": " ++ e.fault.message

/-! ## The tree -/

/-- What stands at a path. -/
inductive FileNode where
  | folder
  | file (bytes : List UInt8)
  | journal (journal : Journal)
deriving DecidableEq

/-- What stands at each absolute path; at the root there is a folder. -/
structure Directory where
  nodes : List (String × FileNode)
deriving DecidableEq

namespace Directory

/-- The root alone. -/
def empty : Directory :=
  ⟨[]⟩

/-- What stands at an absolute path. -/
def at? (d : Directory) (place : String) : Option FileNode :=
  if place == "/" then some .folder else d.nodes.lookup place

/-- Puts something at an absolute path. -/
def put (d : Directory) (place : String) (node : FileNode) : Directory :=
  ⟨(place, node) :: d.nodes.filter (·.1 != place)⟩

/-- Follows components from a place.  Everything but the last component must be a folder. -/
def follow (d : Directory) (place : String) : List String → Except FileFault String
  | [] => .ok place
  | part :: rest =>
    match d.at? place with
    | none => .error .absent
    | some .folder =>
      if part == "" || part == "." then d.follow place rest
      else if part == ".." then d.follow (Path.folder place) rest
      else d.follow (Path.join place part) rest
    | some _ => .error .notFolder

/-- The place a path leads to from a folder, and what stands there. -/
def locate (d : Directory) (folder path : String) :
    Except FileFault (String × Option FileNode) := do
  if path.isEmpty then throw .absent
  let start := if Path.isAbsolute path then "/" else folder
  let place ← d.follow start (Path.components path)
  return (place, d.at? place)

/-- Whether anything stands at a path. -/
def isPresent (d : Directory) (folder path : String) : Bool :=
  match d.locate folder path with
  | .ok (_, some _) => true
  | _ => false

/-! ## Operations -/

/-- The bytes a file with a journal starts with. -/
def journalHeader : List UInt8 :=
  "SQLite format 3".toUTF8.toList ++ [0]

/-- The contents of a file. -/
def read (d : Directory) (folder path : String) : Except FileError (List UInt8) :=
  match d.locate folder path with
  | .error fault => .error ⟨"open", path, fault⟩
  | .ok (_, none) => .error ⟨"open", path, .absent⟩
  | .ok (_, some .folder) => .error ⟨"read", path, .isFolder⟩
  | .ok (_, some (.file bytes)) => .ok bytes
  | .ok (_, some (.journal _)) => .ok journalHeader

/-- Writes a file, over what it holds. -/
def write (d : Directory) (folder path : String) (bytes : List UInt8) :
    Except FileError Directory :=
  match d.locate folder path with
  | .error fault => .error ⟨"open", path, fault⟩
  | .ok (_, some .folder) => .error ⟨"open", path, .isFolder⟩
  | .ok (place, _) => .ok (d.put place (.file bytes))

/-- The names in a folder, in order, each with whether it is a folder. -/
def list (d : Directory) (folder path : String) : Except FileError (List (String × Bool)) :=
  match d.locate folder path with
  | .error fault => .error ⟨"open", path, fault⟩
  | .ok (_, none) => .error ⟨"open", path, .absent⟩
  | .ok (place, some .folder) =>
    let inside := d.nodes.filter fun (p, _) => p != place && Path.folder p == place
    .ok ((inside.map fun (p, node) => (Path.name p, node == .folder)).mergeSort
      fun a b => a.1 ≤ b.1)
  | .ok (_, some _) => .error ⟨"open", path, .notFolder⟩

/-- Makes the folders of a path one after the other, from the place where the first starts.  `done`
is the part of the path that was followed, with the slash behind it. -/
def makeEach (d : Directory) (place done : String) : List String → Except FileError Directory
  | [] => .ok d
  | part :: rest =>
    let tried := done ++ part
    let next := if part == "" || part == "." then place
      else if part == ".." then Path.folder place else Path.join place part
    match d.at? next with
    | some .folder => d.makeEach next (tried ++ "/") rest
    | none => (d.put next .folder).makeEach next (tried ++ "/") rest
    | some _ => .error ⟨"mkdir", tried, .notFolder⟩

/-- Makes every folder of a path that is not there. -/
def makeFolders (d : Directory) (folder path : String) : Except FileError Directory :=
  let start := if Path.isAbsolute path then "/" else folder
  d.makeEach start "" (Path.components path)

/-! ## Journals -/

/-- Why the journal in a file cannot be opened. -/
inductive JournalError where
  | folder (error : FileError)
  | badAddress (flaw : Address.Flaw)
  | unopenable
  | notJournal
  /-- There is no journal in the file yet, and none may be written. -/
  | readOnly
deriving DecidableEq

/-- The wording of an error. -/
def JournalError.message : JournalError → String
  | folder error => "failed to create directory: " ++ error.message
  | badAddress flaw => "failed to create tables: " ++ flaw.message
  | unopenable => "failed to create tables: unable to open database file: out of memory (14)"
  | notJournal => "failed to create tables: file is not a database (26)"
  | readOnly => "failed to create tables: attempt to write a readonly database (8)"

/-- Opens the journal in a file that may be used in some way. -/
def openFile (d : Directory) (folder path : String) (access : Address.Access) :
    Directory × Except JournalError Journal :=
  match d.locate folder path with
  | .error _ | .ok (_, some .folder) => (d, .error .unopenable)
  | .ok (place, none) =>
    if access = .create then (d.put place (.journal .empty), .ok .empty)
    else (d, .error .unopenable)
  | .ok (place, some (.file [])) =>
    if access = .readOnly then (d, .error .readOnly)
    else (d.put place (.journal .empty), .ok .empty)
  | .ok (_, some (.file _)) => (d, .error .notJournal)
  | .ok (_, some (.journal j)) => (d, .ok { j with isReadOnly := access == .readOnly })

/-- Opens the journal at an address.  A file that is missing or empty holds one without sessions,
and the folders on the way to it are made: those of the address as it is written. -/
def openJournal (d : Directory) (folder address : String) :
    Directory × Except JournalError Journal :=
  if address == Address.memoryName then (d, .ok .empty)
  else
    match d.makeFolders folder (Path.folder address) with
    | .error e => (d, .error (.folder e))
    | .ok d =>
      match Address.place address with
      | .error flaw => (d, .error (.badAddress flaw))
      | .ok .memory => (d, .ok .empty)
      | .ok (.file path access) => d.openFile folder path access

/-- Keeps a journal in its file, if it has one that may be written. -/
def saveJournal (d : Directory) (folder address : String) (j : Journal) : Directory :=
  match Address.place address with
  | .error _ | .ok .memory | .ok (.file _ .readOnly) => d
  | .ok (.file path _) =>
    match d.locate folder path with
    | .ok (place, _) => d.put place (.journal j)
    | .error _ => d

end Directory

end ProofKernel
