import ProofKernel.SymbolTable

/-!
# Typing contexts

The local variables in scope with their types, over a symbol table.
-/

set_option autoImplicit false
namespace ProofKernel

/-- A typing context. -/
structure Context where
  table : SymbolTable
  /-- The local variables, innermost first. -/
  locals : List (String × Term)
deriving DecidableEq, Inhabited

namespace Context

/-- A table without local variables. -/
def ofTable (table : SymbolTable) : Context :=
  ⟨table, []⟩

/-- The context inside a binder. -/
def extend (Γ : Context) (name : String) (type : Term) : Context :=
  { Γ with locals := (name, type) :: Γ.locals }

/-- The type of a local variable: that of the innermost binder of the name. -/
def get? (Γ : Context) (name : String) : Option Term :=
  Γ.locals.lookup name

/-- The names of the local variables. -/
def names (Γ : Context) : List String :=
  Γ.locals.map Prod.fst

/-- The local variables as they are printed, outermost first. -/
def render (Γ : Context) : String :=
  let parts := Γ.locals.reverse.map fun (x, a) => x ++ " : " ++ a.render
  "\x7b" ++ ", ".intercalate parts ++ "\x7d"

end Context

end ProofKernel
