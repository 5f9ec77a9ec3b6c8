import ProofKernel.Term.Printer

/-!
# Kernel errors

Why the kernel rejects a term or a declaration.

* `KernelError.kind` names the cause, `KernelError.message` words it.
-/

set_option autoImplicit false
namespace ProofKernel

/-- A rejection by the kernel. -/
inductive KernelError where
  | unboundVariable (name : String)
  | notAFunction (type : Term)
  | notAnInductive (type : Term)
  | invalidMotive (reason : String)
  | wrongNumberOfCases (expected found : Nat)
  | typeMismatch (expected found : Term)
  | notAType (term : Term)
  | positivityViolation (family constructor reason : String)
  | terminationViolation (self reason : String)
  | cannotInferHole
  | alreadyDefined (name : String)
  | invalidConstructor (family constructor reason : String)
deriving DecidableEq, Inhabited

namespace KernelError

/-- The name of the cause. -/
def kind : KernelError → String
  | unboundVariable _ => "UnboundVariable"
  | notAFunction _ => "NotAFunction"
  | notAnInductive _ => "NotAnInductive"
  | invalidMotive _ => "InvalidMotive"
  | wrongNumberOfCases .. => "WrongNumberOfCases"
  | typeMismatch .. => "TypeMismatch"
  | notAType _ => "NotAType"
  | positivityViolation .. => "PositivityViolation"
  | terminationViolation .. => "TerminationViolation"
  | cannotInferHole => "CannotInferHole"
  | alreadyDefined _ => "AlreadyDefined"
  | invalidConstructor .. => "InvalidConstructor"

/-- The wording of an error. -/
def message : KernelError → String
  | unboundVariable name => "unbound variable: " ++ name
  | notAFunction type => "not a function type: " ++ type.render
  | notAnInductive type => "not an inductive type: " ++ type.render
  | invalidMotive reason => "invalid motive: " ++ reason
  | wrongNumberOfCases expected found =>
    "wrong number of cases: expected " ++ toString expected ++ ", found " ++ toString found
  | typeMismatch expected found =>
    "type mismatch: expected " ++ expected.render ++ ", found " ++ found.render
  | notAType term => "not a type: " ++ term.render
  | positivityViolation family constructor reason =>
    "positivity violation in " ++ family ++ "." ++ constructor ++ ": " ++ reason
  | terminationViolation self reason => "termination violation in " ++ self ++ ": " ++ reason
  | cannotInferHole => "cannot infer the type of a hole"
  | alreadyDefined name => "already defined: " ++ name
  | invalidConstructor family constructor reason =>
    "invalid constructor " ++ family ++ "." ++ constructor ++ ": " ++ reason

end KernelError

end ProofKernel
