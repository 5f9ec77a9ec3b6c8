import ProofKernel.Reduction

/-!
# The guard of fixpoints

A fixpoint is accepted when every recursive call passes, in the position of its structural
parameter, a variable that was obtained by matching on that parameter or on something already
smaller.

* `Guard.Scope` says, along one path into the body, whether the fixpoint's name still refers to it,
  which variables are smaller than the structural parameter, and which can be matched on.
* `Guard.walk` visits a term, `checkTermination` a whole fixpoint.
-/

set_option autoImplicit false
namespace ProofKernel
namespace Guard

/-! ## Scopes -/

/-- What is known along one path of the visit. -/
structure Scope where
  /-- Whether the name of the fixpoint refers to it: no binder shadows it. -/
  active : Bool
  /-- The variables that are smaller than the structural parameter. -/
  smaller : NameSet
  /-- The variables whose cases bind smaller ones, with their inductive types. -/
  matchers : NameMap String

namespace Scope

/-- Nothing is known but the fixpoint. -/
def initial : Scope :=
  ⟨true, ∅, []⟩

/-- The scope inside a binder: nothing is known of its variable. -/
def bind (s : Scope) (self name : String) : Scope :=
  ⟨s.active && name != self, s.smaller.erase name, s.matchers.erase name⟩

/-- Matching on the variable gives smaller ones. -/
def decreasing (s : Scope) (name family : String) : Scope :=
  { s with matchers := s.matchers.put name family }

/-- The variable is smaller; if its type is inductive, matching on it gives smaller ones too. -/
def withSmaller (s : Scope) (name : String) (family : Option String) : Scope :=
  { s with
    smaller := s.smaller.insert name
    matchers := match family with
      | some f => s.matchers.put name f
      | none => s.matchers }

end Scope

/-- A fixpoint whose calls are checked. -/
structure Target where
  options : Options
  table : SymbolTable
  self : String
  /-- The position of the structural parameter. -/
  index : Nat

/-- Where a subterm stands. -/
inductive Site where
  | operand
  /-- The function of an application. -/
  | head
  /-- A case of a match on a decreasing variable: for each field of the constructor that is not
  bound yet, the inductive type it belongs to, if any. -/
  | branch (fields : List (Option String))

namespace Target

/-- The guard is violated. -/
def violation {α : Type} (g : Target) (reason : String) : Verdict α :=
  .reject (.terminationViolation g.self reason)

/-- For each field of a constructor, the inductive type that heads its type.  An inductive type
with the empty name does not count. -/
def fieldFamilies (g : Target) (constructor : String) : List (Option String) :=
  match g.table.constructor? constructor with
  | none => []
  | some c =>
    match g.table.family? c.family with
    | none => []
    | some family =>
      (c.type.piChain.1.drop family.params).map fun (_, type) =>
        type.headGlobal?.filter fun name => name != "" && g.table.isFamily name

/-- The constructors of the inductive type a variable is known to be matched at. -/
def constructorsOf (g : Target) (s : Scope) (scrutinee : Term) : List String :=
  match scrutinee with
  | .var x =>
    match s.matchers.get? x with
    | some family => ((g.table.family? family).map (·.constructors)).getD []
    | none => []
  | _ => []

/-- An application whose head is the fixpoint must pass a smaller variable in structural
position. -/
def checkCall (g : Target) (s : Scope) (call : Term) : Verdict Unit :=
  if s.active && call.head == .var g.self then
    match call.args[g.index]? with
    | none =>
      g.violation ("recursive call " ++ call.render ++ " does not reach the structural argument")
    | some arg =>
      let guarded := match arg with
        | .var x => decide (x ∈ s.smaller)
        | _ => false
      if guarded then Verdict.note g.options.traceGuard (.guardedCall call)
      else
        g.violation ("recursive call on " ++ arg.render ++ ", which is not structurally smaller")
  else return ()

/-- The scope inside a binder of a case, and the site of its body.  A binder of a field is smaller,
unless it is a placeholder. -/
def enter (g : Target) (s : Scope) (name : String) : Site → Scope × Site
  | .branch (family :: rest) =>
    let s := s.bind g.self name
    (if name = Term.placeholder then s else s.withSmaller name family, .branch rest)
  | _ => (s.bind g.self name, .operand)

mutual

/-- Checks the recursive calls in a term. -/
def walk (g : Target) (s : Scope) (site : Site) : Term → Verdict Unit
  | .sort _ | .global _ | .lit _ | .hole => return ()
  | .var x =>
    match site with
    | .head => return ()
    | _ =>
      if s.active && x == g.self then
        g.violation (g.self ++ " is used without being applied to its structural argument")
      else return ()
  | .app f a => do
    match site with
    | .head => pure ()
    | _ => g.checkCall s (.app f a)
    g.walk s .head f
    g.walk s .operand a
  | .lam x a b => do
    g.walk s .operand a
    let (s', site') := g.enter s x site
    g.walk s' site' b
  | .pi x a b => do
    g.walk s .operand a
    g.walk (s.bind g.self x) .operand b
  | .fix x b => g.walk (s.bind g.self x) .operand b
  | .elim scrutinee motive cases => do
    g.walk s .operand scrutinee
    g.walk s .operand motive
    g.walkCases s (g.constructorsOf s scrutinee) cases

/-- Checks the recursive calls in the cases of a match, given the constructors they belong to when
the match is on a decreasing variable. -/
def walkCases (g : Target) (s : Scope) (constructors : List String) : List Term → Verdict Unit
  | [] => return ()
  | c :: rest => do
    match constructors with
    | [] => g.walk s .operand c
    | name :: _ => g.walk s (.branch (g.fieldFamilies name)) c
    g.walkCases s constructors.tail rest

end

/-- Checks the binder types of a fixpoint's parameters; the one at `place` zero is the structural
one. -/
def enterParams (g : Target) (s : Scope) (place : Option Nat) : List (String × Term) → Verdict Scope
  | [] => return s
  | (x, type) :: rest => do
    g.walk s .operand type
    let s := s.bind g.self x
    if place = some 0 then
      let family := type.headGlobal?.getD ""
      Verdict.note g.options.traceGuard (.structuralParameter g.self x family)
      g.enterParams (s.decreasing x family) none rest
    else g.enterParams s (place.map (· - 1)) rest

end Target
end Guard

/-- Checks that a fixpoint calls itself on smaller arguments only. -/
def checkTermination (options : Options) (table : SymbolTable) (self : String) (body : Term) :
    Verdict Unit :=
  match table.structuralIndex? body with
  | none => .reject (.terminationViolation self "no inductive parameter to recurse on")
  | some index => do
    let g : Guard.Target := ⟨options, table, self, index⟩
    let (binders, rest) := body.lambdaChain
    let s ← g.enterParams .initial (some index) binders
    g.walk s .operand rest

end ProofKernel
