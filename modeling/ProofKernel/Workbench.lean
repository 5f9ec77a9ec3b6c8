import ProofKernel.Prelude
import ProofKernel.SymbolTable.Forest

/-!
# Workbenches

A place to work on a context by hand: to look at it, to extend it, to open forks, and to register
declarations with or without checking them.

* `Workbench.context` is the context as it is now.
* `Workbench.publish` and `Workbench.keep` put a checked fork into the table, or aside.
-/

set_option autoImplicit false
namespace ProofKernel

/-- The place of a context: a table and local variables. -/
structure Workbench.Scope where
  place : Nat
  locals : List (String × Term)
deriving DecidableEq, Inhabited

/-- Tables, and the scope that is worked on. -/
structure Workbench where
  options : Options
  forest : Forest
  scope : Workbench.Scope

namespace Workbench

/-- A bench over one table, without local variables. -/
def ofTable (options : Options) (table : SymbolTable) : Workbench :=
  ⟨options, Forest.root.setLayer 0 table.own, ⟨0, []⟩⟩

/-- The table that is worked on. -/
def table (w : Workbench) : SymbolTable :=
  w.forest.view w.scope.place

/-- The context that is worked on. -/
def context (w : Workbench) : Context :=
  ⟨w.table, w.scope.locals⟩

/-- Adds a local variable. -/
def extend (w : Workbench) (name : String) (type : Term) : Workbench :=
  { w with scope := { w.scope with locals := (name, type) :: w.scope.locals } }

/-- Opens a fork of the table and goes on there. -/
def fork (w : Workbench) : Workbench :=
  { w with
    forest := w.forest.fork w.scope.place .empty
    scope := { w.scope with place := w.forest.size } }

/-- Puts a fork of the table aside; it stands at the place `w.forest.size`. -/
def keep (w : Workbench) (staged : SymbolTable) : Workbench :=
  { w with forest := w.forest.fork w.scope.place staged.own }

/-- Changes the table that is worked on. -/
def update (w : Workbench) (change : SymbolTable → Except KernelError SymbolTable) :
    Except KernelError Workbench :=
  (w.forest.update w.scope.place change).map fun forest => { w with forest := forest }

/-- Replaces the own layer of the table that is worked on. -/
def setTable (w : Workbench) (table : SymbolTable) : Workbench :=
  { w with forest := w.forest.setLayer w.scope.place table.own }

/-- Publishes the table at a place into the one it was forked from. -/
def commit (w : Workbench) (place : Nat) : Except CommitError Workbench :=
  (w.forest.commit place).map fun forest => { w with forest := forest }

/-- Checks a declaration and registers it. -/
def publish (w : Workbench) (d : Declaration) : Verdict Workbench := do
  let table ← d.publish w.options w.context
  return w.setTable table

end Workbench

end ProofKernel
