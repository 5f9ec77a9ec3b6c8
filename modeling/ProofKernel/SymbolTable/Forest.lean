import ProofKernel.SymbolTable

/-!
# Trees of symbol tables

Several forks of one table may be open at a time, and a fork sees what is published below it while
it is open.  A forest holds every layer with the place of the one it was forked from.

* `Forest.view` is the table at a place, as it is now.
* `Forest.fork` and `Forest.commit` open a table over another one and publish it there.
-/

set_option autoImplicit false
namespace ProofKernel

/-- A layer and the place of the layer below it. -/
structure Forest.Node where
  layer : Layer
  parent : Option Nat
deriving DecidableEq, Inhabited

/-- Symbol tables by place; newest first, so that a node lies behind every node forked from it. -/
structure Forest where
  nodes : List Forest.Node
deriving DecidableEq, Inhabited

/-- Why a table could not be published. -/
inductive CommitError where
  /-- The table was forked from none. -/
  | root
  | clash (error : KernelError)
deriving DecidableEq

/-- The wording of a failed publication. -/
def CommitError.message : CommitError → String
  | root => "commit on a root symbol table"
  | clash error => error.message

namespace Forest

/-- One table without registrations, at place zero. -/
def root : Forest :=
  ⟨[⟨.empty, none⟩]⟩

/-- The number of tables. -/
def size (f : Forest) : Nat :=
  f.nodes.length

/-- The layers seen from a place, nearest first. -/
def layersAt : List Node → Nat → List Layer
  | [], _ => []
  | node :: older, place =>
    if place = older.length then
      node.layer :: match node.parent with
        | some p => layersAt older p
        | none => []
    else layersAt older place

/-- The table at a place. -/
def view (f : Forest) (place : Nat) : SymbolTable :=
  match layersAt f.nodes place with
  | [] => .empty
  | own :: below => ⟨own, below⟩

/-- The place a table was forked from. -/
def parentOf (f : Forest) (place : Nat) : Option Nat :=
  (f.nodes.reverse[place]?).bind (·.parent)

/-- Replaces the layer at a place. -/
def setLayer (f : Forest) (place : Nat) (layer : Layer) : Forest :=
  ⟨(f.nodes.reverse.modify place fun node => { node with layer := layer }).reverse⟩

/-- Opens a layer over the table at a place; it stands at the place `f.size`. -/
def fork (f : Forest) (place : Nat) (layer : Layer) : Forest :=
  ⟨⟨layer, some place⟩ :: f.nodes⟩

/-- Changes the table at a place. -/
def update (f : Forest) (place : Nat) (change : SymbolTable → Except KernelError SymbolTable) :
    Except KernelError Forest :=
  (change (f.view place)).map fun table => f.setLayer place table.own

/-- Publishes the table at a place into the one it was forked from. -/
def commit (f : Forest) (place : Nat) : Except CommitError Forest :=
  match f.parentOf place with
  | none => .error .root
  | some below =>
    match (f.view below).publish (f.view place).own with
    | .error e => .error (.clash e)
    | .ok table => .ok (f.setLayer below table.own)

end Forest

end ProofKernel
