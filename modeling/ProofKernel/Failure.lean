import ProofKernel.KernelError
import ProofKernel.Script.Token

/-!
# Failures

Everything that can go wrong with a script, a session or a unit, as one type, so that a cause can be
asked for by its name.

* `Failure.message` words a failure, `Failure.hasKind` asks for a cause.
-/

set_option autoImplicit false
namespace ProofKernel

/-- Why an operation failed. -/
inductive Failure where
  | kernel (error : KernelError)
  | script (error : SyntaxError)
  /-- Declarations that need each other. -/
  | cycle (names : List String)
  /-- There is no session with this identifier. -/
  | noSession (id : String)
  /-- A failure outside scripts and sessions. -/
  | external (message : String)
  /-- A failure with a label in front of its wording. -/
  | labelled (label : String) (inner : Failure)
  /-- Several failures, a line each. -/
  | all (failures : List Failure)
deriving Inhabited

namespace Failure

mutual

/-- The wording of a failure. -/
def message : Failure → String
  | kernel error => error.message
  | script error => error.message
  | cycle names => "cyclic declarations: " ++ " -> ".intercalate names
  | noSession id => "no such session: " ++ id
  | external text => text
  | labelled label inner => label ++ inner.message
  | all failures => "\n".intercalate (messages failures)

/-- The wording of each of several failures. -/
def messages : List Failure → List String
  | [] => []
  | f :: rest => f.message :: messages rest

end

mutual

/-- The names of the causes of a failure. -/
def kinds : Failure → List String
  | kernel error => [error.kind]
  | script _ => ["ParseError"]
  | cycle _ => ["CycleError"]
  | noSession _ => ["NoSession"]
  | external _ => []
  | labelled _ inner => inner.kinds
  | all failures => kindsOfAll failures

/-- The names of the causes of several failures. -/
def kindsOfAll : List Failure → List String
  | [] => []
  | f :: rest => f.kinds ++ kindsOfAll rest

end

/-- The names of the causes a script can be expected to fail with. -/
def expectable : List String :=
  ["UnboundVariable", "NotAFunction", "NotAnInductive", "InvalidMotive", "WrongNumberOfCases",
    "TypeMismatch", "NotAType", "PositivityViolation", "TerminationViolation", "CannotInferHole",
    "AlreadyDefined", "InvalidConstructor", "CycleError", "ParseError"]

/-- Whether a failure has a cause of this name among the expectable ones. -/
def hasKind (f : Failure) (kind : String) : Bool :=
  expectable.contains kind && f.kinds.contains kind

end Failure

end ProofKernel
