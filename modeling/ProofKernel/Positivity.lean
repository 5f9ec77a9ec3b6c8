import ProofKernel.KernelError

/-!
# Strict positivity

In the type of a constructor the inductive type may occur as the type of an argument, applied to
terms that do not mention it, and nowhere else inside the type of an argument.
-/

set_option autoImplicit false
namespace ProofKernel

/-- A constructor under declaration. -/
structure Positivity where
  family : String
  constructor : String

namespace Positivity

/-- Whether a type is the inductive type applied to terms that do not mention it. -/
def isRecursiveArgument (p : Positivity) (t : Term) : Bool :=
  t.head == .global p.family && t.args.all fun a => !a.mentions p.family

/-- Checks the type of a binder. -/
def checkParam (p : Positivity) (type : Term) (place : String) : Except KernelError Unit :=
  if p.isRecursiveArgument type then .ok ()
  else if type.mentions p.family then
    .error (.positivityViolation p.family p.constructor
      ("'" ++ p.family ++ "' occurs in negative position (inside " ++ place ++ " " ++ type.render ++
        ")"))
  else .ok ()

mutual

/-- Checks the type of a constructor. -/
def check (p : Positivity) : Term → Except KernelError Unit
  | .pi _ a b => do
    p.checkParam a "parameter type"
    p.check b
  | .lam _ a b => do
    p.checkParam a "lambda parameter"
    p.check b
  | .app f a => do
    p.check f
    p.check a
  | .elim s m cases => do
    p.check s
    p.check m
    p.checkAll cases
  | .fix _ b => p.check b
  | .sort _ | .var _ | .global _ | .lit _ | .hole => .ok ()

/-- Checks each of a list of terms. -/
def checkAll (p : Positivity) : List Term → Except KernelError Unit
  | [] => .ok ()
  | t :: rest => do
    p.check t
    p.checkAll rest

end

end Positivity

end ProofKernel
