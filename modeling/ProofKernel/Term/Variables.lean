import ProofKernel.Name.Set
import ProofKernel.Term

/-!
# The names in a term

* `Term.occurs` and `Term.freeVars` are about the variables that are not bound in a term.
* `Term.mentions` and `Term.globals` are about the globals a term refers to.
-/

set_option autoImplicit false
namespace ProofKernel
namespace Term

mutual

/-- Whether the variable `x` occurs free in a term. -/
def occurs (x : String) : Term → Bool
  | sort _ | global _ | lit _ | hole => false
  | var y => y == x
  | pi y a b | lam y a b => occurs x a || (y != x && occurs x b)
  | app f a => occurs x f || occurs x a
  | elim s m cases => occurs x s || occurs x m || occursAny x cases
  | fix y b => y != x && occurs x b

/-- Whether the variable `x` occurs free in one of the terms. -/
def occursAny (x : String) : List Term → Bool
  | [] => false
  | t :: rest => occurs x t || occursAny x rest

end

mutual

/-- The variables that occur free in a term, each as often as it occurs. -/
def freeVars : Term → List String
  | sort _ | global _ | lit _ | hole => []
  | var x => [x]
  | pi x a b | lam x a b => a.freeVars ++ b.freeVars.filter (· != x)
  | app f a => f.freeVars ++ a.freeVars
  | elim s m cases => s.freeVars ++ m.freeVars ++ freeVarsAll cases
  | fix x b => b.freeVars.filter (· != x)

/-- The variables that occur free in a list of terms. -/
def freeVarsAll : List Term → List String
  | [] => []
  | t :: rest => t.freeVars ++ freeVarsAll rest

end

mutual

/-- The globals a term refers to, each as often as it does. -/
def globalRefs : Term → List String
  | sort _ | var _ | lit _ | hole => []
  | global x => [x]
  | pi _ a b | lam _ a b | app a b => a.globalRefs ++ b.globalRefs
  | elim s m cases => s.globalRefs ++ m.globalRefs ++ globalRefsAll cases
  | fix _ b => b.globalRefs

/-- The globals a list of terms refers to. -/
def globalRefsAll : List Term → List String
  | [] => []
  | t :: rest => t.globalRefs ++ globalRefsAll rest

end

/-- The set of the free variables of a term. -/
def freeNames (t : Term) : NameSet :=
  NameSet.ofList t.freeVars

/-- Whether a term refers to a global. -/
def mentions (x : String) (t : Term) : Bool :=
  t.globalRefs.contains x

/-- The set of the globals a term refers to; a binder type that was left out is none. -/
def globals (t : Term) : NameSet :=
  NameSet.ofList (t.globalRefs.filter (· != placeholder))

theorem occursAny_eq_any (x : String) (ts : List Term) : occursAny x ts = ts.any (occurs x) := by
  induction ts with
  | nil => rfl
  | cons t ts ih => simp [occursAny, ih]

theorem mem_freeVarsAll {x : String} {ts : List Term} :
    x ∈ freeVarsAll ts ↔ ∃ t ∈ ts, x ∈ t.freeVars := by
  induction ts with
  | nil => simp [freeVarsAll]
  | cons t ts ih => simp [freeVarsAll, ih]

/-- A variable occurs in a term iff it is listed among its free variables. -/
theorem occurs_iff_mem_freeVars (x : String) (t : Term) :
    occurs x t = true ↔ x ∈ t.freeVars := by
  induction t with
  | elim s m cases ihs ihm ihc =>
    simp only [occurs, freeVars, occursAny_eq_any, Bool.or_eq_true, List.any_eq_true,
      List.mem_append, mem_freeVarsAll, ihs, ihm]
    grind
  | _ => grind [occurs, freeVars]

end Term
end ProofKernel
