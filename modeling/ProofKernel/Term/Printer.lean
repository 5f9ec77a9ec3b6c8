import ProofKernel.Term.Variables

/-!
# Printing terms

A product whose variable is not used is printed as an arrow.  Arrows associate to the right, so a
product is parenthesized to the left of an arrow and inside an application; functions,
applications, matches and fixpoints carry parentheses of their own.
-/

set_option autoImplicit false
namespace ProofKernel
namespace Term

/-- Whether the term is a product. -/
def isPi : Term → Bool
  | pi .. => true
  | _ => false

/-- Parenthesizes the text of a product. -/
def enclose (t : Term) (text : String) : String :=
  if t.isPi then "(" ++ text ++ ")" else text

mutual

/-- A term as it is printed. -/
def render : Term → String
  | sort u => u.render
  | var x => x
  | global x => x
  | pi x a b =>
    if x == placeholder || !occurs x b then a.enclose a.render ++ " -> " ++ b.render
    else "forall " ++ x ++ " : " ++ a.render ++ ", " ++ b.render
  | lam x a b => "(fun " ++ x ++ " : " ++ a.render ++ " => " ++ b.render ++ ")"
  | app f a => "(" ++ f.enclose f.render ++ " " ++ a.enclose a.render ++ ")"
  | elim s m cases =>
    "(match " ++ s.render ++ " return " ++ m.render ++ " with " ++ renderCases cases ++ "end)"
  | fix x b => "(fix " ++ x ++ " => " ++ b.render ++ ")"
  | lit value => value.render
  | hole => "_"

/-- The cases of a match, each after a bar. -/
def renderCases : List Term → String
  | [] => ""
  | c :: rest => "| " ++ c.render ++ " " ++ renderCases rest

end

end Term
end ProofKernel
