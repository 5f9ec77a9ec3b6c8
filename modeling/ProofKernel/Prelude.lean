import ProofKernel.Declaration.Staging

/-!
# The prelude

The globals a session starts with: the types of literals with their arithmetic, truth and falsity,
and the connectives.
-/

set_option autoImplicit false
namespace ProofKernel
namespace Prelude

/-- The types of literals. -/
def literalTypes : List Declaration :=
  ["Int", "Float", "Text"].map fun name => .postulate name (.sort (.type 0))

/-- The operations on whole numbers. -/
def operations : List Declaration :=
  let int : Term := .global "Int"
  Arithmetic.operations.map fun name => .postulate name (.arrow int (.arrow int int))

/-- Truth has one proof, falsity none. -/
def constants : List Declaration :=
  [.family "True" [] (some (.sort .prop)) [("I", .global "True")],
    .family "False" [] (some (.sort .prop)) []]

/-- Negation, conjunction, disjunction and existence. -/
def connectives : List Declaration :=
  let prop : Term := .sort .prop
  let a : Term := .var "A"
  let b : Term := .var "B"
  let p : Term := .var "P"
  let props : Telescope := [("A", prop), ("B", prop)]
  let both : Term := (Term.global "And").apps [a, b]
  let either : Term := (Term.global "Or").apps [a, b]
  let exists_ : Term := (Term.global "Ex").apps [a, p]
  [.definition "Not" (some (.arrow prop prop)) (.lam "P" prop (.arrow p (.global "False"))),
    .family "And" props (some prop) [("conj", .arrow a (.arrow b both))],
    .family "Or" props (some prop) [("left", .arrow a either), ("right", .arrow b either)],
    .family "Ex" [("A", .sort (.type 0)), ("P", .arrow a prop)] (some prop)
      [("witness", .pi "x" a (.arrow (.app p (.var "x")) exists_))]]

/-- The declarations of the prelude, in order. -/
def declarations : List Declaration :=
  literalTypes ++ operations ++ constants ++ connectives

end Prelude

/-- Registers declarations one after the other, up to the first that is rejected.  What was
registered before it stays. -/
def publishAll (options : Options) (Γ : Context) : List Declaration → SymbolTable × Verdict Unit
  | [] => (Γ.table, pure ())
  | d :: rest =>
    let verdict := d.publish options Γ
    match verdict.outcome with
    | .error e => (Γ.table, ⟨verdict.log, .error e⟩)
    | .ok table =>
      let (final, later) := publishAll options { Γ with table := table } rest
      (final, ⟨verdict.log ++ later.log, later.outcome⟩)

/-- Registers the prelude. -/
def loadPrelude (options : Options) (Γ : Context) : SymbolTable × Verdict Unit :=
  publishAll options Γ Prelude.declarations

/-- The table a session starts from. -/
def initialTable (options : Options) (withPrelude : Bool) : Verdict SymbolTable :=
  if withPrelude then
    let (table, verdict) := loadPrelude options (.ofTable .empty)
    ⟨verdict.log, verdict.outcome.map fun _ => table⟩
  else pure .empty

end ProofKernel
