import ProofKernel.Positivity
import ProofKernel.Typing

/-!
# Staging declarations

A declaration is checked on a fork of the symbol table, which then holds what it registers and
nothing else.

* `stageDefinition`, `stagePostulate` and `stageFamily` check one kind of declaration each and give
  the fork; `Declaration.stage` checks any.
* `Declaration.publish` publishes the fork at once.
-/

set_option autoImplicit false
namespace ProofKernel

/-! ## Definitions and constants -/

/-- Checks a definition, against its type when one is given.  Returns the fork that holds it, and
its type. -/
def stageDefinition (options : Options) (Γ : Context) (name : String) (type : Option Term)
    (body : Term) : Verdict (SymbolTable × Term) := do
  if Γ.table.defined name then Verdict.reject (.alreadyDefined name)
  let type ← match type with
    | some type => do
      let _ ← inferSort options Γ type
      check options Γ body type
      pure type
    | none => infer options Γ body
  let staged ← Verdict.ofExcept (Γ.table.fork.addDefinition name type body)
  Verdict.note true (.checkedDefinition name type)
  return (staged, type)

/-- Checks the type of a constant without a body. -/
def stagePostulate (options : Options) (Γ : Context) (name : String) (type : Term) :
    Verdict SymbolTable := do
  let _ ← inferSort options Γ type
  Verdict.ofExcept (Γ.table.fork.addPostulate name type)

/-! ## Inductive types -/

mutual

/-- Reads globals with the name of a parameter as that parameter. -/
def Term.bindParams (params : List String) : Term → Term
  | .global x => if x ∈ params then .var x else .global x
  | .sort u => .sort u
  | .var x => .var x
  | .lit value => .lit value
  | .hole => .hole
  | .pi x a b => .pi x (a.bindParams params) (b.bindParams params)
  | .lam x a b => .lam x (a.bindParams params) (b.bindParams params)
  | .app f a => .app (f.bindParams params) (a.bindParams params)
  | .fix x b => .fix x (b.bindParams params)
  | .elim s m cases =>
    .elim (s.bindParams params) (m.bindParams params) (Term.bindParamsAll params cases)

/-- Reads globals with the name of a parameter as that parameter, in each term of a list. -/
def Term.bindParamsAll (params : List String) : List Term → List Term
  | [] => []
  | t :: rest => t.bindParams params :: Term.bindParamsAll params rest

end

/-- The first argument that is not the parameter at its place, with the name of that parameter. -/
def strayArgument? : List Term → Telescope → List String → Option (Term × String)
  | arg :: args, (x, _) :: binders, param :: params =>
    if arg = .var x then strayArgument? args binders params else some (arg, param)
  | _, _, _ => none

/-- Checks that the type of a constructor concludes in the inductive type applied to exactly its
parameters. -/
def checkConclusion (family : String) (params : List String) (constructor : String) (type : Term) :
    Except KernelError Unit :=
  let (binders, conclusion) := type.piChain
  let invalid (reason : String) : Except KernelError Unit :=
    .error (.invalidConstructor family constructor reason)
  if conclusion.head ≠ .global family then
    invalid ("conclusion " ++ conclusion.render ++ " is not " ++ family)
  else if conclusion.args.length ≠ params.length then
    invalid ("conclusion " ++ conclusion.render ++ " must apply " ++ family ++ " to its " ++
      toString params.length ++ " parameters")
  else
    match strayArgument? conclusion.args binders params with
    | some (arg, param) =>
      invalid ("argument " ++ arg.render ++ " of " ++ conclusion.render ++
        " is not the parameter " ++ param)
    | none => .ok ()

/-- Checks that no constructor has its inductive type in negative position. -/
def checkPositivity (family : String) : Telescope → Except KernelError Unit
  | [] => .ok ()
  | (name, type) :: rest => do
    Positivity.check ⟨family, name⟩ type
    checkPositivity family rest

/-- Checks the constructors of an inductive type and registers them on the fork, one after the
other. -/
def addConstructors (options : Options) (Γ : Context) (family : String) (params : List String) :
    Telescope → Verdict SymbolTable
  | [] => return Γ.table
  | (name, type) :: rest => do
    let _ ← inferSort options Γ type
    Verdict.ofExcept (checkConclusion family params name type)
    let table ← Verdict.ofExcept (Γ.table.addConstructor name family type)
    addConstructors options { Γ with table := table } family params rest

/-- Checks an inductive type.  The parameters are put in front of its sort and of the type of every
constructor. -/
def stageFamily (options : Options) (Γ : Context) (name : String) (params : Telescope)
    (sort : Option Term) (constructors : Telescope) : Verdict SymbolTable := do
  let sort := sort.getD (.sort (.type 0))
  match sort with
  | .sort _ => pure ()
  | _ => Verdict.reject (.notAType sort)
  if Γ.table.defined name then Verdict.reject (.alreadyDefined name)
  let names := params.map Prod.fst
  let params := params.map fun (x, a) => (x, a.bindParams names)
  let arity := Term.pis params sort
  let _ ← inferSort options Γ arity
  let polymorphic := constructors.map fun (c, a) => (c, Term.pis params (a.bindParams names))
  Verdict.ofExcept (checkPositivity name polymorphic)
  let table ← Verdict.ofExcept (Γ.table.fork.addFamily name arity)
  let staged ← addConstructors options { Γ with table := table } name names polymorphic
  Verdict.note true (.checkedFamily name arity (constructors.map Prod.fst))
  return staged

/-! ## Any declaration -/

/-- Checks a declaration and returns the fork that holds what it registers. -/
def Declaration.stage (options : Options) (Γ : Context) : Declaration → Verdict SymbolTable
  | .definition name type body => do
    let (staged, _) ← stageDefinition options Γ name type body
    return staged
  | .postulate name type => stagePostulate options Γ name type
  | .family name params sort constructors => stageFamily options Γ name params sort constructors

/-- Checks a declaration and registers it. -/
def Declaration.publish (options : Options) (Γ : Context) (d : Declaration) :
    Verdict SymbolTable := do
  let staged ← d.stage options Γ
  Verdict.ofExcept (Γ.table.publish staged.own)

end ProofKernel
