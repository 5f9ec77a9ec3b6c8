import ProofKernel.Arithmetic
import ProofKernel.Context
import ProofKernel.Substitution
import ProofKernel.Trace

/-!
# Reduction

Terms are reduced one step at a time, outermost redex first: functions are applied, definitions
unfolded, matches on constructors resolved, arithmetic on literals evaluated, and a fixpoint is
unfolded once its structural argument is a constructor.

* `SymbolTable.step?` is one step.
* `normalize` takes steps until there is none or the fuel is used up.
-/

set_option autoImplicit false
namespace ProofKernel

/-! ## Recognizing redexes -/

namespace SymbolTable

/-- A constructor applied to arguments: the position of the constructor in its inductive type, and
the arguments after the parameters. -/
def constructorForm? (table : SymbolTable) (t : Term) : Option (Nat × List Term) := do
  let name ← t.headGlobal?
  let c ← table.constructor? name
  let family ← table.family? c.family
  let index ← family.constructors.findIdx? (· == name)
  return (index, t.args.drop family.params)

/-- The position of the first binder whose type is headed by an inductive type. -/
def structuralIndexOf (table : SymbolTable) (binders : List (String × Term)) : Option Nat :=
  binders.findIdx? fun (_, type) => (type.headGlobal?.map table.isFamily).getD false

/-- The position of the structural argument of a fixpoint with this body. -/
def structuralIndex? (table : SymbolTable) (body : Term) : Option Nat :=
  table.structuralIndexOf body.lambdaChain.1

/-- The value of an operation of the prelude on two literals. -/
def arithmetic? (table : SymbolTable) : Term → Option Term
  | .app (.app (.global operation) (.lit (.int x))) (.lit (.int y)) =>
    if (table.postulate? operation).isSome then
      (Arithmetic.evaluate? operation x y).map fun n => .lit (.int n)
    else none
  | _ => none

/-- A fixpoint whose structural argument is a constructor, unfolded. -/
def deltaStep? (table : SymbolTable) (t : Term) : Option Term :=
  match t.head with
  | .fix self body => do
    let index ← table.structuralIndex? body
    let arg ← t.args[index]?
    let _ ← table.constructorForm? arg
    return (body.substitute self (.fix self body)).apps t.args
  | _ => none

/-! ## One step -/

/-- One reduction step, if there is a redex. -/
def step? (table : SymbolTable) : Term → Option Term
  | .sort _ | .var _ | .lit _ | .hole => none
  | .global name => (table.definition? name).map (·.body)
  | .app f a =>
    (table.arithmetic? (.app f a)).or <|
      match f with
      | .lam x _ b => some (b.substitute x a)
      | _ =>
        (table.deltaStep? (.app f a)).or <|
          ((table.step? f).map fun f' => .app f' a).or <|
            (table.step? a).map fun a' => .app f a'
  | .elim s m cases =>
    (do
      let (index, fields) ← table.constructorForm? s
      let chosen ← cases[index]?
      return chosen.apps fields).or <|
        (table.step? s).map fun s' => .elim s' m cases
  | .lam x a b =>
    ((table.step? a).map fun a' => .lam x a' b).or <| (table.step? b).map fun b' => .lam x a b'
  | .pi x a b =>
    ((table.step? a).map fun a' => .pi x a' b).or <| (table.step? b).map fun b' => .pi x a b'
  | .fix x b => (table.step? b).map fun b' => .fix x b'

end SymbolTable

/-! ## Normal forms -/

/-- Reduces a term for at most `n` steps after those in `log`.  `whole` is the term the reduction
started from. -/
def reduceFrom (options : Options) (table : SymbolTable) (whole : Term) :
    Nat → Term → Log → Traced Term
  | 0, t, log => ⟨log ++ .one (.outOfFuel options.fuel whole), t⟩
  | n + 1, t, log =>
    match table.step? t with
    | none => ⟨log, t⟩
    | some t' => reduceFrom options table whole n t' (log ++ .when options.traceReduce (.step t t'))

/-- Reduces a term until there is no redex or the fuel is used up. -/
def normalize (options : Options) (table : SymbolTable) (t : Term) : Traced Term :=
  reduceFrom options table t options.fuel t .empty

end ProofKernel
