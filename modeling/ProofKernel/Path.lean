/-!
# Paths

Names of files, with components divided by slashes.

* `Path.clean` is the shortest name of the same place.
* `Path.join`, `Path.folder`, `Path.name` and `Path.extension` put paths together and take them
  apart.
* `Path.absolute` is the name of a place from the root.
-/

set_option autoImplicit false
namespace ProofKernel
namespace Path

/-- Whether a path starts at the root. -/
def isAbsolute (path : String) : Bool :=
  path.toList.head? == some '/'

/-- The components of a path. -/
def components (path : String) : List String :=
  (path.toList.splitOn '/').map String.ofList

/-- Adds a component to those before it, which are given last first: `..` takes one away.  Above the
root there is only the root. -/
def push (absolute : Bool) (stack : List String) (part : String) : List String :=
  if part == "" || part == "." then stack
  else if part == ".." then
    match stack with
    | [] => if absolute then [] else [".."]
    | top :: below => if top == ".." then ".." :: stack else below
  else part :: stack

/-- The shortest path to the same place, as far as the names tell. -/
def clean (path : String) : String :=
  let absolute := isAbsolute path
  let parts := ((components path).foldl (push absolute) []).reverse
  let text := "/".intercalate parts
  if absolute then "/" ++ text
  else if text.isEmpty then "." else text

/-- A place below a folder. -/
def join (folder name : String) : String :=
  if folder.isEmpty then (if name.isEmpty then "" else clean name)
  else if name.isEmpty then clean folder
  else clean (folder ++ "/" ++ name)

/-- The characters of a path up to its last slash, and those after it. -/
def splitLast (path : String) : List Char × List Char :=
  let backwards := path.toList.reverse
  ((backwards.dropWhile (· ≠ '/')).reverse, (backwards.takeWhile (· ≠ '/')).reverse)

/-- The folder a path leads through last. -/
def folder (path : String) : String :=
  clean (String.ofList (splitLast path).1)

/-- The last component of a path. -/
def name (path : String) : String :=
  if path.isEmpty then "."
  else
    let bare := (path.toList.reverse.dropWhile (· = '/')).reverse
    if bare.isEmpty then "/" else String.ofList (splitLast (String.ofList bare)).2

/-- The end of the last component, from its last dot on. -/
def extension (path : String) : String :=
  let last := (splitLast path).2.reverse
  if last.contains '.' then String.ofList ('.' :: (last.takeWhile (· ≠ '.')).reverse) else ""

/-- A path from the root to a place that is given from a folder. -/
def absolute (workingFolder path : String) : String :=
  if isAbsolute path then clean path else join workingFolder path

end Path
end ProofKernel
