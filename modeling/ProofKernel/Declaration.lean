import ProofKernel.Term.Printer

/-!
# Declarations

What can be added to a symbol table: a definition, a constant without a body, or an inductive type
with its constructors.

* `Declaration.provides` lists the names a declaration registers, in order.
* `Declaration.terms` lists the terms it is made of.
-/

set_option autoImplicit false
namespace ProofKernel

/-- Names with their types, each in the scope of those before it. -/
abbrev Telescope : Type := List (String × Term)

/-- A declaration. -/
inductive Declaration where
  /-- A constant that unfolds to its body.  The type may be left to be inferred. -/
  | definition (name : String) (type : Option Term) (body : Term)
  /-- A constant without a body. -/
  | postulate (name : String) (type : Term)
  /-- An inductive type over parameters.  Without a sort it is a type of the lowest level. -/
  | family (name : String) (params : Telescope) (sort : Option Term) (constructors : Telescope)
deriving DecidableEq, Inhabited

namespace Declaration

/-- The name that is declared. -/
def name : Declaration → String
  | definition name .. | postulate name _ | family name .. => name

/-- The names a declaration registers. -/
def provides : Declaration → List String
  | definition name .. | postulate name _ => [name]
  | family name _ _ constructors => name :: constructors.map Prod.fst

/-- The terms a declaration is made of, in the order in which they are written. -/
def terms : Declaration → List Term
  | definition _ type body => type.toList ++ [body]
  | postulate _ type => [type]
  | family _ params sort constructors =>
    params.map Prod.snd ++ sort.toList ++ constructors.map Prod.snd

/-- The names that are known inside a declaration without being declared elsewhere. -/
def ownNames : Declaration → List String
  | d@(family _ params _ _) => d.provides ++ params.map Prod.fst
  | d => d.provides

/-- A declaration as it is written. -/
def render : Declaration → String
  | definition name none body => "Definition " ++ name ++ " := " ++ body.render ++ "."
  | definition name (some type) body =>
    "Definition " ++ name ++ " : " ++ type.render ++ " := " ++ body.render ++ "."
  | postulate name type => "Axiom " ++ name ++ " : " ++ type.render ++ "."
  | family name params sort constructors =>
    let binders := params.map fun (x, a) => " (" ++ x ++ " : " ++ a.render ++ ")"
    let arity := match sort with
      | some s => " : " ++ s.render
      | none => ""
    let clauses := constructors.map fun (c, a) => " " ++ c ++ " : " ++ a.render
    "Inductive " ++ name ++ String.join binders ++ arity ++ " :=" ++ " |".intercalate clauses ++ "."

end Declaration

end ProofKernel
