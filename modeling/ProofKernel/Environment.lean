import ProofKernel.Text.Class

/-!
# Environment variables

Settings may come from the environment.  A variable whose value is blank counts as unset.
-/

set_option autoImplicit false
namespace ProofKernel

/-- The value of each variable that is set. -/
abbrev Environment : Type := String → Option String

/-- A value without the blanks around it, unless nothing is left. -/
def trimmed? (value : Option String) : Option String :=
  (value.map trimBlank).filter fun text => !text.isEmpty

/-- A value without the blanks around it, or a fallback where there is none. -/
def setting (value : Option String) (fallback : String) : String :=
  (trimmed? value).getD fallback

/-- The value of a variable, if it is set. -/
def Environment.value? (env : Environment) (name : String) : Option String :=
  trimmed? (env name)

/-- The value of a variable, or a fallback. -/
def Environment.get (env : Environment) (name fallback : String) : String :=
  setting (env name) fallback

end ProofKernel
