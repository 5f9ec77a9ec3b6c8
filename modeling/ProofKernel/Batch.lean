import ProofKernel.Script.Layers
import ProofKernel.Session

/-!
# Checking files together

The declarations of several files are checked as one unit, whatever their order: layer by layer, all
of a layer against the same table.  Queries and hints run afterwards, in the order of the files.

* `Package` is a list of files, `Package.locate?` finds the file of a command.
* `Package.check` checks all commands and gives a report with one result for each.

Declarations of one layer do not depend on each other, so the order in which they are checked makes
no difference.
-/

set_option autoImplicit false
namespace ProofKernel

/-! ## Packages -/

/-- Scripts that are checked together. -/
structure Package where
  files : List Script
deriving DecidableEq, Inhabited

namespace Package

/-- The commands of all files, in order. -/
def commands (p : Package) : List Command :=
  p.files.flatMap (·.commands)

/-- The file of the command at a position. -/
def locateIn : List Script → Int → Option Script
  | [], _ => none
  | f :: rest, i =>
    if i < f.commands.length then some f else locateIn rest (i - f.commands.length)

/-- The file of the command at a position. -/
def locate? (p : Package) (i : Int) : Option Script :=
  locateIn p.files i

end Package

/-! ## Reports -/

/-- What became of a command. -/
structure Outcome where
  file : String
  command : Command
  output : String
  error : Option KernelError

/-- The place of a command in its file. -/
def Outcome.place (r : Outcome) : String :=
  r.file ++ ":" ++ r.command.position.render ++ ": "

/-- An outcome as it is printed: the output, or the error with its place. -/
def Outcome.render (r : Outcome) : String :=
  match r.error with
  | some e => r.place ++ e.message
  | none => r.output

/-- The outcomes of all commands, and the table that holds every accepted declaration. -/
structure Report where
  outcomes : List Outcome
  table : SymbolTable

namespace Report

/-- The outcomes that are errors. -/
def failed (r : Report) : List Outcome :=
  r.outcomes.filter (·.error.isSome)

/-- All errors of a report as one failure. -/
def failure? (r : Report) : Option Failure :=
  match r.outcomes.filterMap fun o => o.error.map fun e => Failure.labelled o.place (.kernel e) with
  | [] => none
  | failures => some (.all failures)

end Report

/-! ## Checking -/

namespace Batch

/-- Sets aside every declaration that provides a name again: one of the table, or of a declaration
before it that was not set aside itself.  `seen` are the names of those.  The empty name says that
none was found. -/
def rejectDuplicates (table : SymbolTable) :
    List String → List Statement → List (Except KernelError Statement)
  | _, [] => []
  | seen, s :: rest =>
    if s.isDeclaration then
      let again := s.provides.find? fun name => seen.contains name || table.defined name
      match again.filter (· ≠ "") with
      | some name => .error (.alreadyDefined name) :: rejectDuplicates table seen rest
      | none => .ok s :: rejectDuplicates table (seen ++ s.provides) rest
    else .ok s :: rejectDuplicates table seen rest

/-- The errors found so far, by position of the command. -/
abbrev Errors : Type := List (Nat × KernelError)

/-- Checks each declaration of a layer on a fork of the table. -/
def stageLayer (options : Options) (table : SymbolTable) (statements : List (Nat × Declaration)) :
    Traced (List (Nat × Except KernelError SymbolTable)) :=
  statements.mapM fun (i, d) =>
    let verdict := d.stage options (.ofTable table)
    ⟨verdict.log, (i, verdict.outcome)⟩

/-- Publishes the forks of a layer one after the other. -/
def publishLayer (table : SymbolTable) :
    List (Nat × Except KernelError SymbolTable) → SymbolTable × Errors
  | [] => (table, [])
  | (i, .error e) :: rest =>
    let (final, errors) := publishLayer table rest
    (final, (i, e) :: errors)
  | (i, .ok staged) :: rest =>
    match table.publish staged.own with
    | .ok table => publishLayer table rest
    | .error e =>
      let (final, errors) := publishLayer table rest
      (final, (i, e) :: errors)

/-- The declarations at the positions of a layer. -/
def declarationsOf (statements : List Statement) (layer : List Nat) : List (Nat × Declaration) :=
  layer.filterMap fun i => (statements[i]?.bind Statement.declaration?).map fun d => (i, d)

/-- Checks the layers in order. -/
def checkLayers (options : Options) (statements : List Statement) (table : SymbolTable) :
    Nat → List (List Nat) → Traced (SymbolTable × Errors)
  | _, [] => pure (table, [])
  | depth, layer :: rest => do
    let staged ← stageLayer options table (declarationsOf statements layer)
    let (table, errors) := publishLayer table staged
    Traced.note true (.checkedLayer depth layer.length)
    let (table, later) ← checkLayers options statements table (depth + 1) rest
    return (table, errors ++ later)

/-- Runs the queries and hints in order: for each of them its position, and what it prints or why it
fails. -/
def runQueries (options : Options) (table : SymbolTable) :
    List (Nat × Statement) → Traced (SymbolTable × List (Nat × Except KernelError String))
  | [] => pure (table, [])
  | (i, s) :: rest => do
    let verdict := s.run options table
    let (table, result) : SymbolTable × Except KernelError String := match verdict.outcome with
      | .ok (table, output) => (table, .ok output)
      | .error e => (table, .error e)
    Traced.mk verdict.log ()
    let (table, later) ← runQueries options table rest
    return (table, (i, result) :: later)

end Batch

open Batch in
/-- Checks the commands of a package.  A check that is `cancelled` stops where it would start on a
layer or a query. -/
def Package.check (options : Options) (withPrelude cancelled : Bool) (p : Package) :
    Traced (Except Failure Report) :=
  let start := initialTable options withPrelude
  match start.outcome with
  | .error e => ⟨start.log, .error (.labelled "loading prelude: " (.kernel e))⟩
  | .ok table => do
    Traced.mk start.log ()
    let commands := p.commands
    let statements := commands.map (·.statement)
    let kept := rejectDuplicates table [] statements
    match declarationLayers (kept.map Except.toOption) with
    | .error e => return .error e
    | .ok layers =>
      let queries := (statements.zipIdx.filter fun (s, _) => !s.isDeclaration).map Prod.swap
      if cancelled && !(layers.isEmpty && queries.isEmpty) then
        return .error (.external "context canceled")
      else
        let duplicates : Errors := kept.zipIdx.filterMap fun (r, i) =>
          match r with
          | .error e => some (i, e)
          | .ok _ => none
        let (table, rejected) ← checkLayers options statements table 0 layers
        let (table, answers) ← runQueries options table queries
        let errors := duplicates ++ rejected
        let outcomes := commands.zipIdx.map fun (c, i) =>
          let file := ((p.locate? i).map (·.path)).getD ""
          match answers.lookup i with
          | some (.ok output) => ⟨file, c, output, none⟩
          | some (.error e) => ⟨file, c, "", some e⟩
          | none => ⟨file, c, "", errors.lookup i⟩
        let report : Report := ⟨outcomes, table⟩
        Traced.note true (.unitChecked commands.length layers.length report.failed.length)
        return .ok report

end ProofKernel
