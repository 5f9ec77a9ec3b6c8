import ProofKernel.Declaration
import ProofKernel.Script.Token

/-!
# Commands

A script is a list of commands: declarations, queries and hints.

* `Statement` is what a command says; `Command` adds where it stands and how it was written.
* `Statement.provides` and `Statement.requires` are the names a command registers and those it
  needs: a name counts as needed when a term mentions it and the command does not bring it itself.
-/

set_option autoImplicit false
namespace ProofKernel

/-- What a command says. -/
inductive Statement where
  | declare (declaration : Declaration)
  /-- Asks for the type of a term. -/
  | check (term : Term)
  /-- Asks for the normal form of a term. -/
  | eval (term : Term)
  /-- Marks a global for later use by proof search. -/
  | hint (name : String)
deriving DecidableEq, Inhabited

namespace Statement

/-- The declaration a statement makes. -/
def declaration? : Statement → Option Declaration
  | declare d => some d
  | _ => none

/-- Whether the statement registers names. -/
def isDeclaration (s : Statement) : Bool :=
  s.declaration?.isSome

/-- The names a statement registers. -/
def provides : Statement → List String
  | declare d => d.provides
  | _ => []

/-- The names a statement mentions, in the order in which it is written. -/
def mentioned : Statement → List String
  | declare d => d.terms.flatMap fun t => t.globals.toList
  | check t | eval t => t.globals.toList
  | hint name => [name]

/-- The names that are known inside a statement without being declared elsewhere. -/
def ownNames : Statement → List String
  | declare d => d.ownNames
  | _ => []

/-- The names a statement needs, each once. -/
def requires (s : Statement) : List String :=
  s.mentioned.eraseDups.filter fun name => !s.ownNames.contains name

/-- Whether an accepted statement changes the symbol table. -/
def changesTable : Statement → Bool
  | declare _ | hint _ => true
  | check _ | eval _ => false

/-- A statement as it is written. -/
def render : Statement → String
  | declare d => d.render
  | check t => "Check " ++ t.render ++ "."
  | eval t => "Eval " ++ t.render ++ "."
  | hint name => "Hint " ++ name ++ "."

end Statement

/-- A statement in a script. -/
structure Command where
  position : Position
  /-- The command as it was written, its closing period included. -/
  source : Text
  statement : Statement
deriving DecidableEq, Inhabited

/-- A script that was read from a file. -/
structure Script where
  path : String
  commands : List Command
deriving DecidableEq, Inhabited

end ProofKernel
