import ProofKernel.Declaration
import ProofKernel.Guard
import ProofKernel.Subtyping

/-!
# Typing

The rules of the calculus as an algorithm: a type is inferred for a term, or a term is checked
against a type.

* `infer` gives the type of a term, `check` compares it with an expected one, and `inferSort` gives
  the universe of a type.
* `caseType` is the type a case of a match must have.
* A function whose binder type was left out is checked by reading that type off the expected
  product (`openLambda`).
* The type of a fixpoint is read off its binders and the motive of the match under them
  (`fixType`), so that its name is not needed to find it.

The functions call each other on parts of a term, renamed at most.
-/

set_option autoImplicit false
namespace ProofKernel

/-! ## Shapes of types -/

/-- The universe a type reduces to. -/
def asSort (options : Options) (table : SymbolTable) (t : Term) : Traced (Option Universe) := do
  match t with
  | .sort u => return some u
  | _ =>
    match ← normalize options table t with
    | .sort u => return some u
    | _ => return none

/-- The product a type reduces to: its binder, its domain and its codomain. -/
def asPi (options : Options) (table : SymbolTable) (t : Term) :
    Traced (Option (String × Term × Term)) := do
  match t with
  | .pi x a b => return some (x, a, b)
  | _ =>
    match ← normalize options table t with
    | .pi x a b => return some (x, a, b)
    | _ => return none

/-- A normal type as a registered inductive type applied to its parameters. -/
def SymbolTable.familyOf (table : SymbolTable) (type : Term) :
    Except KernelError (Family × List Term) :=
  match type.headGlobal?.bind table.family? with
  | some family =>
    if type.args.length = family.params then .ok (family, type.args)
    else .error (.notAnInductive type)
  | none => .error (.notAnInductive type)

/-! ## Cases -/

/-- Instantiates leading products by arguments, as far as there are products. -/
def Term.instantiate : Term → List Term → Term
  | .pi x _ b, a :: rest => (b.substitute x a).instantiate rest
  | t, _ => t

/-- The leading products of a constructor's type under the names `__arg0`, `__arg1`, …, primed where
they are taken.  `n` bounds the number of products. -/
def Term.openFields : Nat → Term → Nat → List String → Telescope
  | n + 1, .pi x a b, count, taken =>
    let name := fresh ("__arg" ++ toString count) taken
    (name, a) :: (b.substitute x (.var name)).openFields n (count + 1) (name :: taken)
  | _, _, _, _ => []

/-- The type of a case: a product over the fields of the constructor that ends in the motive applied
to the constructed value. -/
def caseType (motive : Term) (name : String) (constructor : Constructor) (params : List Term) :
    Term :=
  let taken := motive.freeVars ++ Term.freeVarsAll params
  let type := constructor.type.instantiate params
  let fields := type.openFields type.piChain.1.length 0 taken
  let value := ((Term.global name).apps params).apps (fields.map fun (x, _) => .var x)
  Term.pis fields (Term.app motive value).betaReduce

/-! ## Motives -/

/-- The motive of a match on a value of a normal type, given the normal type of the motive as it was
written: a type is made a constant function, and a function has to take the value to a type. -/
def effectiveMotive (motive type motiveType : Term) : Verdict Term :=
  match motiveType with
  | .sort _ => return .lam Term.placeholder type motive
  | .pi _ a b =>
    if !a.agrees type then
      .reject (.invalidMotive ("motive parameter " ++ a.render ++
        " doesn't match discriminant type " ++ type.render))
    else
      match b with
      | .sort _ => return motive
      | b => .reject (.invalidMotive ("motive body " ++ b.render ++ " is not a type"))
  | _ => .reject (.invalidMotive ("motive " ++ motive.render ++ " is not a function or type"))

/-- Accepts a subtype of what is expected. -/
def compare (options : Options) (Γ : Context) (expected found : Term) : Verdict Unit := do
  if ← isSubtype options Γ.table found expected then return ()
  .reject (.typeMismatch expected found)

/-! ## Binders whose type was left out -/

/-- The binder, the body and the expected type of the body of a function `fun x => b` that is
checked against a product over `y`.  The binder is renamed when the codomain uses its name
otherwise. -/
def openLambda (Γ : Context) (x : String) (b : Term) (y : String) (codomain : Term) :
    String × Term × Term :=
  if y = x then (x, b, codomain)
  else if Term.occurs x codomain then
    let x' := fresh x (b.freeVars ++ codomain.freeVars ++ Γ.names)
    (x', b.rename x x', codomain.rename y x')
  else (x, b, codomain.rename y x)

theorem size_openLambda (Γ : Context) (x : String) (b : Term) (y : String) (codomain : Term) :
    (openLambda Γ x b y codomain).2.1.size = b.size := by
  unfold openLambda
  split
  · rfl
  · split <;> simp

/-! ## Inference and checking -/

mutual

/-- The type of a term. -/
def infer (options : Options) (Γ : Context) (t : Term) : Verdict Term := do
  let type ← synthesize options Γ t
  Verdict.note options.traceChecker (.inferred t type)
  return type
termination_by 4 * t.size + 1

/-- The type of a term by the rule for its outermost node. -/
def synthesize (options : Options) (Γ : Context) (t : Term) : Verdict Term :=
  match t with
  | .sort u => return .sort u.succ
  | .var x =>
    match Γ.get? x with
    | some type => return type
    | none => .reject (.unboundVariable x)
  | .global x =>
    match Γ.table.type? x with
    | some type => return type
    | none => .reject (.unboundVariable x)
  | .pi x a b => do
    let u ← inferSort options Γ a
    let v ← inferSort options (Γ.extend x a) b
    return .sort (u.max v)
  | .lam x a b => do
    let _ ← inferSort options Γ a
    let type ← infer options (Γ.extend x a) b
    return .pi x a type
  | .app f a => do
    let type ← infer options Γ f
    match ← asPi options Γ.table type with
    | none => .reject (.notAFunction type)
    | some (x, domain, codomain) =>
      check options Γ a domain
      return codomain.substitute x a
  | .elim s m cases => do
    let inferred ← infer options Γ s
    let type ← normalize options Γ.table inferred
    let (family, params) ← Verdict.ofExcept (Γ.table.familyOf type)
    let motiveType ← infer options Γ m
    let motive ← effectiveMotive m type (← normalize options Γ.table motiveType)
    if cases.length ≠ family.constructors.length then
      Verdict.reject (.wrongNumberOfCases family.constructors.length cases.length)
    checkCases options Γ motive params family.constructors cases
    return (Term.app motive s).betaReduce
  | .fix x b => do
    checkTermination options Γ.table x b
    let type ← fixType options Γ b
    Verdict.note options.traceChecker (.fixpoint x type)
    check options (Γ.extend x type) b type
    return type
  | .lit value => return .global value.typeName
  | .hole => .reject .cannotInferHole
termination_by 4 * t.size
decreasing_by
  all_goals
    simp only [Term.size]
    omega

/-- Checks a term against a type. -/
def check (options : Options) (Γ : Context) (t expected : Term) : Verdict Unit := do
  Verdict.note options.traceChecker (.checking t expected)
  match t, expected with
  | t, .hole =>
    let _ ← infer options Γ t
    return ()
  | .hole, expected =>
    match ← asSort options Γ.table expected with
    | some _ => return ()
    | none => .reject (.typeMismatch expected .hole)
  | .lam x a b, expected =>
    if a.isPlaceholder then
      match ← asPi options Γ.table expected with
      | none => .reject (.typeMismatch expected (.pi x a .hole))
      | some (y, domain, codomain) =>
        let opened := openLambda Γ x b y codomain
        check options (Γ.extend opened.1 domain) opened.2.1 opened.2.2
    else compare options Γ expected (← infer options Γ (.lam x a b))
  | t, expected => compare options Γ expected (← infer options Γ t)
termination_by 4 * t.size + 2
decreasing_by
  · omega
  · simp only [Term.size, size_openLambda]
    omega
  · omega
  · omega

/-- The universe of a type. -/
def inferSort (options : Options) (Γ : Context) (t : Term) : Verdict Universe := do
  let type ← infer options Γ t
  match ← asSort options Γ.table type with
  | some u => return u
  | none => .reject (.notAType t)
termination_by 4 * t.size + 2

/-- Checks each case of a match against the type its constructor gives it. -/
def checkCases (options : Options) (Γ : Context) (motive : Term) (params : List Term)
    (constructors : List String) (cases : List Term) : Verdict Unit :=
  match constructors, cases with
  | name :: names, c :: rest => do
    match Γ.table.constructor? name with
    | none => .reject (.unboundVariable name)
    | some constructor =>
      let expected := caseType motive name constructor params
      Verdict.note options.traceChecker (.caseExpected name expected)
      check options Γ c expected
      checkCases options Γ motive params names rest
  | _, _ => return ()
termination_by 4 * Term.sizes cases + 3
decreasing_by
  · simp only [Term.sizes]
    omega
  · have := Term.size_pos c
    simp only [Term.sizes]
    omega

/-- The type of a fixpoint with this body. -/
def fixType (options : Options) (Γ : Context) (body : Term) : Verdict Term :=
  match body with
  | .lam x a b => do
    let _ ← inferSort options Γ a
    let inner ← fixType options (Γ.extend x a) b
    return .pi x a inner
  | .elim s m _ =>
    match m with
    | .lam x _ b => return b.substitute x s
    | m => do
      let motiveType ← infer options Γ m
      match ← asSort options Γ.table motiveType with
      | some _ => return m
      | none => return (Term.app m s).betaReduce
  | body => infer options Γ body
termination_by 4 * body.size + 2
decreasing_by
  · simp only [Term.size]
    omega
  · simp only [Term.size]
    omega
  · simp only [Term.size]
    omega
  · omega

end

end ProofKernel
