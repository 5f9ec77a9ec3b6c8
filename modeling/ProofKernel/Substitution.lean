import ProofKernel.Term.Variables

/-!
# Substitution

Replaces the free occurrences of a variable by a term.  A binder that would capture a variable of
that term gets primes first, as many as it needs to be new.

* `fresh` is a name that is not taken.
* `Term.substitute` and its special case `Term.rename`.
* `Term.size_rename`: renaming keeps the size of a term, so that functions may descend into a
  renamed body.
* `Term.align` brings two bodies under one binder name.
* `Term.betaReduce` contracts the redexes at the head of an application.
-/

set_option autoImplicit false
namespace ProofKernel

/-! ## Fresh names -/

/-- Adds a prime while the name is taken, `n` times at most. -/
def freshWithin (taken : List String) : Nat → String → String
  | 0, name => name
  | n + 1, name => if name ∈ taken then freshWithin taken n (name ++ "'") else name

/-- The first of `base`, `base'`, `base''`, … that is not taken.  There are only as many names to
avoid as `taken` has members, so as many attempts are enough. -/
def fresh (base : String) (taken : List String) : String :=
  freshWithin taken taken.length base

namespace Term

/-! ## Under a binder -/

/-- Substitutes in the body `b` of a binder `y` by means of `go`.  A binder of the name that is
replaced shadows it; one that would capture a variable of the replacement is renamed. -/
def underBinder (go : Term → String → Term → List String → Term) (y : String) (b : Term)
    (x : String) (r : Term) (free : List String) : String × Term :=
  if y = x then (y, b)
  else if free.contains y && occurs x b then
    let y' := fresh y (x :: free ++ b.freeVars)
    (y', go (go b y (.var y') [y']) x r free)
  else (y, go b x r free)

/-- Substitution in a term of at most `n` nodes; `free` are the variables of the replacement. -/
def substituteWithin : Nat → Term → String → Term → List String → Term
  | 0, t, _, _, _ => t
  | n + 1, t, x, r, free =>
    match t with
    | var y => if y = x then r else t
    | sort _ | global _ | lit _ | hole => t
    | pi y a b =>
      let (y', b') := underBinder (substituteWithin n) y b x r free
      pi y' (substituteWithin n a x r free) b'
    | lam y a b =>
      let (y', b') := underBinder (substituteWithin n) y b x r free
      lam y' (substituteWithin n a x r free) b'
    | fix y b =>
      let (y', b') := underBinder (substituteWithin n) y b x r free
      fix y' b'
    | app f a => app (substituteWithin n f x r free) (substituteWithin n a x r free)
    | elim s m cases =>
      elim (substituteWithin n s x r free) (substituteWithin n m x r free)
        (cases.map fun c => substituteWithin n c x r free)

/-- `t` with the free occurrences of `x` replaced by `r`. -/
def substitute (t : Term) (x : String) (r : Term) : Term :=
  substituteWithin t.size t x r r.freeVars

/-- `t` with the free variable `x` renamed to `y`. -/
def rename (t : Term) (x y : String) : Term :=
  if x = y then t else substitute t x (.var y)

/-! ## Size -/

theorem sizes_map {f : Term → Term} {ts : List Term} (h : ∀ t ∈ ts, (f t).size = t.size) :
    sizes (ts.map f) = sizes ts := by
  induction ts with
  | nil => rfl
  | cons t ts ih =>
    simp only [List.map_cons, sizes]
    rw [h t (by simp), ih fun u hu => h u (by simp [hu])]

theorem size_underBinder {go : Term → String → Term → List String → Term}
    (hgo : ∀ t x y free, (go t x (.var y) free).size = t.size) (y : String) (b : Term)
    (x z : String) (free : List String) :
    (underBinder go y b x (.var z) free).2.size = b.size := by
  unfold underBinder
  split
  · rfl
  · split <;> simp [hgo]

theorem size_substituteWithin_var (n : Nat) (t : Term) (x y : String) (free : List String) :
    (substituteWithin n t x (.var y) free).size = t.size := by
  induction n generalizing t x y free with
  | zero => rfl
  | succ n ih =>
    have hb := @size_underBinder (substituteWithin n) (fun t x y free => ih t x y free)
    cases t with
    | var z => simp only [substituteWithin]; split <;> simp [size]
    | sort | global | lit | hole => rfl
    | pi | lam => simp [substituteWithin, size, ih, hb]
    | fix => simp [substituteWithin, size, hb]
    | app => simp [substituteWithin, size, ih]
    | elim => simp only [substituteWithin, size, ih, sizes_map fun t _ => ih t x y free]

/-- Renaming keeps the size of a term. -/
@[simp] theorem size_rename (t : Term) (x y : String) : (t.rename x y).size = t.size := by
  unfold rename
  split
  · rfl
  · exact size_substituteWithin_var ..

/-! ## One name for two binders -/

/-- The bodies of two binders `x` and `y` under a common name: that of the first, unless the second
body uses it otherwise. -/
def align (x : String) (b : Term) (y : String) (c : Term) : Term × Term :=
  if x = y then (b, c)
  else if !occurs x c then (b, c.rename y x)
  else
    let z := fresh x (y :: b.freeVars ++ c.freeVars)
    (b.rename x z, c.rename y z)

@[simp] theorem size_align_fst (x : String) (b : Term) (y : String) (c : Term) :
    (align x b y c).1.size = b.size := by
  unfold align
  split
  · rfl
  · split <;> simp

@[simp] theorem size_align_snd (x : String) (b : Term) (y : String) (c : Term) :
    (align x b y c).2.size = c.size := by
  unfold align
  split
  · rfl
  · split <;> simp

/-! ## Redexes at the head -/

/-- Applies a term to arguments, contracting while it is a function. -/
def applyAll : Term → List Term → Term
  | lam x _ b, a :: rest => applyAll (b.substitute x a) rest
  | t, args => t.apps args

/-- Contracts the redexes at the head of an application. -/
def betaReduce (t : Term) : Term :=
  applyAll t.head t.args

end Term
end ProofKernel
