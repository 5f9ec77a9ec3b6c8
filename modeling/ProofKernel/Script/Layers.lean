import ProofKernel.Failure
import ProofKernel.Graph.Countdown
import ProofKernel.Script.Command

/-!
# Layers of declarations

Declarations may stand in any order.  Each goes into the first layer all of whose earlier layers
provide what it needs, so the declarations of one layer do not depend on each other.

* `declarationLayers` sorts the declarations of a list of commands, by their positions in it.
-/

set_option autoImplicit false
namespace ProofKernel

/-- The declarations among statements, with their positions.  A statement that was set aside has no
place in the graph. -/
def declarationsAt (statements : List (Option Statement)) : List (Nat × Statement) :=
  (statements.zipIdx).filterMap fun (s, i) =>
    match s with
    | some s => if s.isDeclaration then some (i, s) else none
    | none => none

/-- The position of the first declaration that provides a name. -/
def provider? (declarations : List (Nat × Statement)) (name : String) : Option Nat :=
  (declarations.find? fun (_, s) => s.provides.contains name).map Prod.fst

/-- Which declarations need which. -/
def dependencyGraph (declarations : List (Nat × Statement)) : Graph Nat :=
  declarations.map fun (i, s) =>
    (i, ((s.requires.filterMap (provider? declarations)).mergeSort fun a b => a ≤ b).eraseDups)

/-- The layers of the declarations, or the names on a cycle of them. -/
def declarationLayers (statements : List (Option Statement)) : Except Failure (List (List Nat)) :=
  let declarations := declarationsAt statements
  let graph := dependencyGraph declarations
  let (layers, complete) := graph.countedLayers
  if complete then .ok layers
  else
    let cycle := graph.cycle?.getD []
    .error (.cycle (cycle.filterMap fun i =>
      ((declarations.lookup i).map Statement.provides).bind List.head?))

end ProofKernel
