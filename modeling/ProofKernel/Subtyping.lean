import ProofKernel.Reduction

/-!
# Subtyping

Universes are cumulative; a product is contravariant in its domain and covariant in its codomain;
all other types are compared up to bound names.  A hole, or a binder type that was left out, agrees
with everything.

* `Term.agrees` compares two terms up to the names of their bound variables, `Term.agreeAll` two
  lists of terms.
* `Term.le` compares normal forms, `isSubtype` any two types.
-/

set_option autoImplicit false
namespace ProofKernel

/-! ## Equality up to bound names -/

namespace Term

mutual

/-- Whether two terms are equal up to bound names, where a placeholder equals everything. -/
def agrees (t u : Term) : Bool :=
  if t.isPlaceholder || u.isPlaceholder then true
  else
    match t, u with
    | sort u, sort v => u == v
    | var x, var y => x == y
    | global x, global y => x == y
    | lit a, lit b => a.same b
    | app f a, app g b => agrees f g && agrees a b
    | pi x a b, pi y c d | lam x a b, lam y c d =>
      let bodies := align x b y d
      agrees a c && agrees bodies.1 bodies.2
    | fix x b, fix y d =>
      let bodies := align x b y d
      agrees bodies.1 bodies.2
    | elim s m cs, elim s' m' cs' =>
      cs.length == cs'.length && agrees s s' && agrees m m' && agreeAll cs cs'
    | _, _ => false
termination_by 2 * t.size
decreasing_by
  all_goals
    simp only [size, size_align_fst]
    omega

/-- Whether two lists of terms are equal up to bound names, place by place. -/
def agreeAll (ts us : List Term) : Bool :=
  match ts, us with
  | t :: ts, u :: us => agrees t u && agreeAll ts us
  | _, _ => true
termination_by 2 * sizes ts + 1
decreasing_by
  · simp only [sizes]
    omega
  · have := size_pos t
    simp only [sizes]
    omega

end

end Term

/-! ## Subtypes -/

/-- Whether a normal form is a subtype of another one. -/
def Term.le (t u : Term) : Bool :=
  match t, u with
  | .sort u, .sort v => u.le v
  | .pi x a b, .pi y c d =>
    let bodies := align x b y d
    le c a && le bodies.1 bodies.2
  | t, u => t.agrees u
termination_by t.size + u.size
decreasing_by
  all_goals
    simp only [Term.size, Term.size_align_fst, Term.size_align_snd]
    omega

/-- Whether a type is a subtype of another one. -/
def isSubtype (options : Options) (table : SymbolTable) (a b : Term) : Traced Bool := do
  let a' ← normalize options table a
  let b' ← normalize options table b
  let ok := a'.le b'
  Traced.note options.traceChecker (.compared a' b' ok)
  return ok

end ProofKernel
