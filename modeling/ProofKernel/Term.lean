import ProofKernel.Literal
import ProofKernel.Universe

/-!
# Terms

Terms of the calculus of constructions with inductive types, with named binders.  Types are terms.

* `Term.size` counts the nodes of a term: the measure by which functions on terms end.
* `Term.spine` splits an application into its head and its arguments, `Term.piChain` and
  `Term.lambdaChain` peel leading binders.
* `Term.isPlaceholder` recognizes a binder type that was left out.
-/

set_option autoImplicit false
namespace ProofKernel

/-- A term. -/
inductive Term where
  /-- A universe. -/
  | sort (u : Universe)
  /-- A bound or local variable. -/
  | var (name : String)
  /-- A registered constant. -/
  | global (name : String)
  /-- The product `forall name : type, body`. -/
  | pi (name : String) (type body : Term)
  /-- The function `fun name : type => body`. -/
  | lam (name : String) (type body : Term)
  | app (fn arg : Term)
  /-- `match scrutinee return motive with …`: one function for each constructor. -/
  | elim (scrutinee motive : Term) (cases : List Term)
  /-- The fixpoint `fix self => body`. -/
  | fix (self : String) (body : Term)
  | lit (value : Literal)
  /-- A term left out. -/
  | hole
deriving Inhabited

namespace Term

/-! ## Induction -/

/-- Induction on terms: a property of a `match` may be shown from the property of its cases. -/
@[induction_eliminator, elab_as_elim]
theorem induct {P : Term → Prop}
    (sort : ∀ u, P (.sort u))
    (var : ∀ x, P (.var x))
    (global : ∀ x, P (.global x))
    (pi : ∀ x a b, P a → P b → P (.pi x a b))
    (lam : ∀ x a b, P a → P b → P (.lam x a b))
    (app : ∀ f a, P f → P a → P (.app f a))
    (elim : ∀ s m cases, P s → P m → (∀ c ∈ cases, P c) → P (.elim s m cases))
    (fix : ∀ x b, P b → P (.fix x b))
    (lit : ∀ l, P (.lit l))
    (hole : P .hole) (t : Term) : P t :=
  @Term.rec P (fun cases => ∀ c ∈ cases, P c) sort var global pi lam app elim fix lit hole
    (by simp) (by simp +contextual) t

/-! ## Size -/

mutual

/-- The number of nodes of a term. -/
def size : Term → Nat
  | sort _ | var _ | global _ | lit _ | hole => 1
  | pi _ a b | lam _ a b | app a b => a.size + b.size + 1
  | elim s m cases => s.size + m.size + sizes cases + 1
  | fix _ b => b.size + 1

/-- The number of nodes of a list of terms. -/
def sizes : List Term → Nat
  | [] => 0
  | t :: rest => t.size + sizes rest

end

section

attribute [local simp] size sizes

theorem size_pos (t : Term) : 0 < t.size := by
  cases t <;> simp

theorem size_le_sizes {t : Term} {ts : List Term} (h : t ∈ ts) : t.size ≤ sizes ts := by
  induction ts with
  | nil => cases h
  | cons u us ih =>
    rcases List.mem_cons.1 h with rfl | h
    · simp
    · have := ih h
      simp
      omega

end

/-! ## Equality -/

mutual

/-- Equality of terms, names of binders included. -/
def decEq : (t u : Term) → Decidable (t = u)
  | sort u, sort v => decidable_of_iff (u = v) (by simp)
  | var x, var y => decidable_of_iff (x = y) (by simp)
  | global x, global y => decidable_of_iff (x = y) (by simp)
  | lit a, lit b => decidable_of_iff (a = b) (by simp)
  | hole, hole => isTrue rfl
  | pi x a b, pi y c d =>
    have := decEq a c
    have := decEq b d
    decidable_of_iff (x = y ∧ a = c ∧ b = d) (by simp)
  | lam x a b, lam y c d =>
    have := decEq a c
    have := decEq b d
    decidable_of_iff (x = y ∧ a = c ∧ b = d) (by simp)
  | app a b, app c d =>
    have := decEq a c
    have := decEq b d
    decidable_of_iff (a = c ∧ b = d) (by simp)
  | elim a b cs, elim c d ds =>
    have := decEq a c
    have := decEq b d
    have := decEqs cs ds
    decidable_of_iff (a = c ∧ b = d ∧ cs = ds) (by simp)
  | fix x a, fix y b =>
    have := decEq a b
    decidable_of_iff (x = y ∧ a = b) (by simp)
  | sort _, var _ | sort _, global _ | sort _, pi .. | sort _, lam .. | sort _, app ..
  | sort _, elim .. | sort _, fix .. | sort _, lit _ | sort _, hole
  | var _, sort _ | var _, global _ | var _, pi .. | var _, lam .. | var _, app ..
  | var _, elim .. | var _, fix .. | var _, lit _ | var _, hole
  | global _, sort _ | global _, var _ | global _, pi .. | global _, lam .. | global _, app ..
  | global _, elim .. | global _, fix .. | global _, lit _ | global _, hole
  | pi .., sort _ | pi .., var _ | pi .., global _ | pi .., lam .. | pi .., app ..
  | pi .., elim .. | pi .., fix .. | pi .., lit _ | pi .., hole
  | lam .., sort _ | lam .., var _ | lam .., global _ | lam .., pi .. | lam .., app ..
  | lam .., elim .. | lam .., fix .. | lam .., lit _ | lam .., hole
  | app .., sort _ | app .., var _ | app .., global _ | app .., pi .. | app .., lam ..
  | app .., elim .. | app .., fix .. | app .., lit _ | app .., hole
  | elim .., sort _ | elim .., var _ | elim .., global _ | elim .., pi .. | elim .., lam ..
  | elim .., app .. | elim .., fix .. | elim .., lit _ | elim .., hole
  | fix .., sort _ | fix .., var _ | fix .., global _ | fix .., pi .. | fix .., lam ..
  | fix .., app .. | fix .., elim .. | fix .., lit _ | fix .., hole
  | lit _, sort _ | lit _, var _ | lit _, global _ | lit _, pi .. | lit _, lam .. | lit _, app ..
  | lit _, elim .. | lit _, fix .. | lit _, hole
  | hole, sort _ | hole, var _ | hole, global _ | hole, pi .. | hole, lam .. | hole, app ..
  | hole, elim .. | hole, fix .. | hole, lit _ => isFalse (by simp)

/-- Equality of lists of terms. -/
def decEqs : (ts us : List Term) → Decidable (ts = us)
  | [], [] => isTrue rfl
  | [], _ :: _ | _ :: _, [] => isFalse (by simp)
  | t :: ts, u :: us =>
    have := decEq t u
    have := decEqs ts us
    decidable_of_iff (t = u ∧ ts = us) (by simp)

end

instance : DecidableEq Term := decEq

/-! ## Building and taking apart -/

/-- The name of a binder that is never referred to, and of a type left out. -/
def placeholder : String :=
  "_"

/-- The function type `a -> b`. -/
def arrow (a b : Term) : Term :=
  pi placeholder a b

/-- The application of a term to arguments. -/
def apps (fn : Term) (args : List Term) : Term :=
  args.foldl app fn

/-- The product over binders, outermost first. -/
def pis (binders : List (String × Term)) (body : Term) : Term :=
  binders.foldr (fun (x, a) t => pi x a t) body

/-- The function of binders, outermost first. -/
def lams (binders : List (String × Term)) (body : Term) : Term :=
  binders.foldr (fun (x, a) t => lam x a t) body

/-- The head of an application. -/
def head : Term → Term
  | app f _ => f.head
  | t => t

/-- The arguments of an application, first to last. -/
def args : Term → List Term
  | app f a => f.args ++ [a]
  | _ => []

/-- An application as its head and its arguments. -/
def spine (t : Term) : Term × List Term :=
  (t.head, t.args)

/-- The global at the head of an application. -/
def headGlobal? (t : Term) : Option String :=
  match t.head with
  | global x => some x
  | _ => none

/-- Whether the term stands for one left to be filled in. -/
def isPlaceholder : Term → Bool
  | global x => x == placeholder
  | hole => true
  | _ => false

/-- The leading product binders of a term, and what they bind over. -/
def piChain : Term → List (String × Term) × Term
  | pi x a b =>
    let (binders, rest) := b.piChain
    ((x, a) :: binders, rest)
  | t => ([], t)

/-- The leading function binders of a term, and their body. -/
def lambdaChain : Term → List (String × Term) × Term
  | lam x a b =>
    let (binders, rest) := b.lambdaChain
    ((x, a) :: binders, rest)
  | t => ([], t)

@[simp] theorem apps_append (f : Term) (as bs : List Term) :
    f.apps (as ++ bs) = (f.apps as).apps bs := by
  simp [apps]

/-- A term is the application of its head to its arguments. -/
theorem apps_spine (t : Term) : t.head.apps t.args = t := by
  induction t with
  | app f a ihf _ => rw [head, args, apps_append, ihf]; rfl
  | _ => rfl

/-- A term is the product over its leading binders. -/
theorem pis_piChain (t : Term) : pis t.piChain.1 t.piChain.2 = t := by
  induction t with
  | pi x a b _ ihb => simp only [piChain, pis, List.foldr_cons] at ihb ⊢; rw [ihb]
  | _ => rfl

end Term

end ProofKernel
