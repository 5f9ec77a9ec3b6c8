import ProofKernel.CommandLine.Flag

/-!
# Commands of a program

A program is a tree of commands.  The words of a command line that are no flags lead down the tree,
and what is left of them are arguments.

* `Spec` describes a command: how it is used, its flags and its arguments.
* `Spec.find` finds the command that a command line names.
* `Route.usage` and `Route.help` explain a command.
-/

set_option autoImplicit false
namespace ProofKernel

/-! ## Small letters

Of the letters beyond ASCII only those are changed whose small form takes another number of bytes;
the others stay as they are.  This is enough where the result is compared with ASCII words byte by
byte, since a byte beyond ASCII agrees with none of them. -/

/-- Letters beyond ASCII whose small form takes another number of bytes, with that form. -/
def narrowedLetters : List (Nat × Nat) :=
  [(0x0130, 0x0069), (0x023A, 0x2C65), (0x023E, 0x2C66), (0x1E9E, 0x00DF), (0x2126, 0x03C9),
    (0x212A, 0x006B), (0x212B, 0x00E5), (0x2C62, 0x026B), (0x2C64, 0x027D), (0x2C6D, 0x0251),
    (0x2C6E, 0x0271), (0x2C6F, 0x0250), (0x2C70, 0x0252), (0x2C7E, 0x023F), (0x2C7F, 0x0240),
    (0xA78D, 0x0265), (0xA7AA, 0x0266), (0xA7AB, 0x025C), (0xA7AC, 0x0261), (0xA7AD, 0x026C),
    (0xA7AE, 0x026A), (0xA7B0, 0x029E), (0xA7B1, 0x0287), (0xA7B2, 0x029D), (0xA7C5, 0x0282),
    (0xA7CB, 0x0264), (0xA7DC, 0x019B)]

/-- The small form of a letter. -/
def lowerChar (c : Char) : Char :=
  match narrowedLetters.lookup c.toNat with
  | some n => Char.ofNat n
  | none => c.toLower

/-- A text in small letters. -/
def lowered (s : String) : String :=
  s.map lowerChar

namespace CommandLine

/-! ## Commands -/

/-- How many arguments a command takes. -/
inductive Arity where
  | any
  | none
  | atLeast (count : Nat)
  | atMost (count : Nat)
deriving DecidableEq

/-- The shells that can ask for words. -/
inductive Shell where
  | bash
  | zsh
  | fish
  | powershell
deriving DecidableEq

/-- What a command does. -/
inductive Action where
  | converse
  | checkFiles
  | evalTerm
  | watchFiles
  | listSessions
  | writeSettings
  | showSettings
  | explain
  /-- Lists the words that may come next, with or without what they mean. -/
  | complete (withMeanings : Bool)
  /-- Prints a script that makes a shell ask for such words. -/
  | integrate (shell : Shell)
deriving DecidableEq

/-- What the arguments of a command are, as far as a shell can tell. -/
inductive Argument where
  | file
  | nothing
  | command
deriving DecidableEq

/-- A command. -/
structure Spec where
  /-- The name of the command and its arguments. -/
  use : String
  /-- What it does, on one line. -/
  short : String
  /-- What it does, on several lines; empty when one is enough. -/
  long : String
  /-- The flags of its own. -/
  flags : List Flag
  arity : Arity
  argument : Argument := .file
  /-- Whether flags are mentioned where its use is explained. -/
  mentionsFlags : Bool := true
  /-- A command without an action explains itself. -/
  action : Option Action
  /-- The commands below it. -/
  children : List Spec

namespace Spec

/-- The name of a command: the first word of its use. -/
def name (s : Spec) : String :=
  String.ofList (s.use.toList.takeWhile (· != ' '))

end Spec

/-- A command with the names that lead to it, the program's name first, and the flags of the program
that hold for every command. -/
structure Route where
  names : List String
  spec : Spec
  shared : List Flag

namespace Route

/-- The names that lead to a command, as they are typed. -/
def path (r : Route) : String :=
  " ".intercalate r.names

/-- Whether the route leads to the program itself. -/
def isProgram (r : Route) : Bool :=
  r.names.length == 1

/-- The flags that stand for a request to explain a command. -/
def helpFlag (r : Route) : Flag :=
  ⟨"help", some 'h', .switch, "help for " ++ r.spec.name, ""⟩

/-- The flags of a command and of the program. -/
def flags (r : Route) : List Flag :=
  r.spec.flags ++ r.shared

end Route

/-! ## Finding a command -/

/-- Whether a word is a flag whose value is the next word, as far as its name tells.  A flag that is
not known counts as one. -/
def takesNext (flags : List Flag) (word : String) : Bool :=
  match word.toList with
  | '-' :: '-' :: name =>
    !name.contains '=' &&
      !(flags.any fun f => f.name == String.ofList name && f.kind == .switch)
  | ['-', c] => !(flags.any fun f => f.short == some c && f.kind == .switch) && c != '='
  | _ => false

/-- The words that are neither flags nor values of flags. -/
def bareWords (flags : List Flag) : Nat → List String → List String
  | 0, _ => []
  | _ + 1, [] => []
  | fuel + 1, word :: rest =>
    if word == "--" then []
    else if takesNext flags word then
      if rest.length ≤ 1 then [] else bareWords flags fuel (rest.drop 1)
    else if word.isEmpty || word.startsWith "-" then bareWords flags fuel rest
    else word :: bareWords flags fuel rest

/-- The words without the first that is `name` and neither a flag nor the value of one. -/
def withoutFirst (flags : List Flag) (name : String) : Nat → List String → List String
  | 0, words => words
  | _ + 1, [] => []
  | fuel + 1, word :: rest =>
    if word == "--" then word :: rest
    else if takesNext flags word then
      match rest with
      | value :: rest => word :: value :: withoutFirst flags name fuel rest
      | [] => [word]
    else if word == name then rest
    else word :: withoutFirst flags name fuel rest

/-- Follows the words of a command line down the tree, at most `fuel` levels deep. -/
def descend : Nat → Route → List String → Route × List String
  | 0, r, words => (r, words)
  | fuel + 1, r, words =>
    match bareWords r.flags words.length words with
    | [] => (r, words)
    | next :: _ =>
      match r.spec.children.find? (·.name == next) with
      | none => (r, words)
      | some s =>
        descend fuel { r with names := r.names ++ [s.name], spec := s }
          (withoutFirst r.flags next words.length words)

/-- The number of bytes to change, put in or leave out to come from one word to another. -/
def editDistance (a b : List UInt8) : Nat :=
  let nextRow (row : List Nat) (i : Nat) (c : UInt8) : List Nat :=
    let step (state : List Nat × Nat) (entry : (Nat × Nat) × UInt8) : List Nat × Nat :=
      let ((diagonal, above), d) := entry
      let cost := min (min (above + 1) (state.2 + 1)) (diagonal + if c == d then 0 else 1)
      (cost :: state.1, cost)
    (((row.zip (row.drop 1)).zip b).foldl step ([i + 1], i + 1)).1.reverse
  let first := List.range (b.length + 1)
  let last := (a.zipIdx).foldl (fun row (c, i) => nextRow row i c) first
  last.getLast?.getD 0

/-- The commands that may have been meant by a word: those a byte or two away, and those that start
with it.  The one that explains the others is never meant. -/
def suggestions (s : Spec) (word : String) : List String :=
  ((s.children.filter (·.action != some .explain)).map Spec.name).filter fun name =>
    editDistance (lowered word).toUTF8.toList (lowered name).toUTF8.toList ≤ 2 ||
      (lowered name).startsWith (lowered word)

/-- The error for a word that names no command of the program. -/
def unknownCommand (r : Route) (word : String) : String :=
  let meant := suggestions r.spec word
  "unknown command " ++ quote word ++ " for " ++ quote r.path ++
    if meant.isEmpty then ""
    else "\n\nDid you mean this?\n" ++ String.join (meant.map fun name => "\t" ++ name ++ "\n")

/-- The command that a command line names, and its words without those that name it.  A word that
names no command is an error unless it may be an argument. -/
def find (program : Route) (words : List String) : Except (Route × String) (Route × List String) :=
  let (r, rest) := descend words.length program words
  if r.isProgram then
    match bareWords r.flags rest.length rest with
    | [] => .ok (r, rest)
    | word :: _ => .error (r, unknownCommand r word)
  else .ok (r, rest)

/-- What is wrong with the number of arguments. -/
def Route.badArgs? (r : Route) (args : List String) : Option String :=
  match r.spec.arity with
  | .any => none
  | .none =>
    match args with
    | [] => none
    | word :: _ => some ("unknown command " ++ quote word ++ " for " ++ quote r.path)
  | .atLeast count =>
    if args.length < count then
      some ("requires at least " ++ toString count ++ " arg(s), only received " ++
        toString args.length)
    else none
  | .atMost count =>
    if count < args.length then
      some ("accepts at most " ++ toString count ++ " arg(s), received " ++ toString args.length)
    else none

/-! ## Explanations -/

/-- A text filled with blanks up to a width. -/
def padded (width : Nat) (text : String) : String :=
  text.pushn ' ' (width - text.length)

/-- What stands for the value of a flag. -/
def FlagKind.placeholder : FlagKind → String
  | .switch => ""
  | .text => " string"
  | .number => " int"
  | .duration => " duration"
  | .texts => " strings"

/-- How a flag is written. -/
def Flag.form (f : Flag) : String :=
  (match f.short with
    | some c => "  -" ++ c.toString ++ ", --"
    | none => "      --") ++ f.name ++ f.kind.placeholder

/-- A line for each flag, in the order of their names. -/
def flagLines (flags : List Flag) : List String :=
  let sorted := flags.mergeSort fun a b => a.name ≤ b.name
  let width := (sorted.map fun f => f.form.length).foldl max 0
  sorted.map fun f =>
    padded width f.form ++ "   " ++ f.usage ++
      if f.shownDefault.isEmpty then "" else " (default " ++ f.shownDefault ++ ")"

namespace Route

/-- How a command is used.  Its own flags are listed with or without the request for help. -/
def usage (r : Route) (withHelp : Bool) : String :=
  let s := r.spec
  let parents := " ".intercalate r.names.dropLast
  let useLine := (if r.isProgram then "" else parents ++ " ") ++ s.use ++
    if s.mentionsFlags then " [flags]" else ""
  let own := (if r.isProgram then r.shared else s.flags) ++ if withHelp then [r.helpFlag] else []
  let inherited := if r.isProgram then [] else r.shared
  let listed := s.children.mergeSort fun a b => a.name ≤ b.name
  let section_ (title : String) (lines : List String) : String :=
    if lines.isEmpty then "" else "\n\n" ++ title ++ ":\n" ++ "\n".intercalate lines
  "Usage:" ++ (if s.action.isSome then "\n  " ++ useLine else "") ++
    (if s.children.isEmpty then "" else "\n  " ++ r.path ++ " [command]") ++
    section_ "Available Commands"
      (listed.map fun b => "  " ++ padded 11 b.name ++ " " ++ b.short) ++
    section_ "Flags" (flagLines own) ++
    section_ "Global Flags" (flagLines inherited) ++
    (if s.children.isEmpty then ""
      else "\n\nUse \"" ++ r.path ++ " [command] --help\" for more information about a command.") ++
    "\n"

/-- The explanation of a command. -/
def help (r : Route) : String :=
  let about := if r.spec.long.isEmpty then r.spec.short else r.spec.long
  about ++ "\n\n" ++ r.usage true

end Route

end CommandLine
end ProofKernel
