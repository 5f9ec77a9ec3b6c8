import ProofKernel.KernelError
import ProofKernel.Name.Map

/-!
# Symbol tables

A symbol table holds the globals that were accepted.  A declaration is checked on a *fork*: a new
layer over the table, which sees everything below and is published, or dropped, as a whole.

* `Layer` holds the registrations made at one place.
* `SymbolTable` is a layer over those it was forked from; queries fall through to them.
* `SymbolTable.commit` publishes the top layer into the one below it, unless a name clashes.
-/

set_option autoImplicit false
namespace ProofKernel

/-! ## Entries -/

/-- An inductive type. -/
structure Family where
  /-- The product over the parameters that ends in a sort. -/
  arity : Term
  /-- The number of parameters. -/
  params : Nat
  /-- The constructors, in order of declaration. -/
  constructors : List String
deriving DecidableEq, Inhabited

/-- A constructor of an inductive type. -/
structure Constructor where
  family : String
  type : Term
deriving DecidableEq, Inhabited

/-- A constant with a body. -/
structure Definition where
  type : Term
  body : Term
deriving DecidableEq, Inhabited

/-! ## Layers -/

/-- The registrations made at one place. -/
structure Layer where
  families : NameMap Family
  constructors : NameMap Constructor
  definitions : NameMap Definition
  /-- The types of constants without a body. -/
  postulates : NameMap Term
  hints : List String
  /-- The names registered here, in order. -/
  order : List String
deriving DecidableEq, Inhabited

namespace Layer

/-- A layer without registrations. -/
def empty : Layer :=
  ⟨[], [], [], [], [], []⟩

/-- The layer with all registrations of another one added. -/
def merge (below above : Layer) : Layer :=
  { families := below.families.merge above.families
    constructors := below.constructors.merge above.constructors
    definitions := below.definitions.merge above.definitions
    postulates := below.postulates.merge above.postulates
    hints := below.hints ++ above.hints
    order := below.order ++ above.order }

end Layer

/-! ## Tables -/

/-- A layer and the layers below it, nearest first. -/
structure SymbolTable where
  own : Layer
  below : List Layer
deriving DecidableEq, Inhabited

namespace SymbolTable

/-- A table without registrations. -/
def empty : SymbolTable :=
  ⟨.empty, []⟩

/-- A new layer over a table. -/
def fork (t : SymbolTable) : SymbolTable :=
  ⟨.empty, t.own :: t.below⟩

/-- All layers, nearest first. -/
def layers (t : SymbolTable) : List Layer :=
  t.own :: t.below

/-! ### Queries -/

def family? (t : SymbolTable) (name : String) : Option Family :=
  t.layers.findSome? (·.families.get? name)

def constructor? (t : SymbolTable) (name : String) : Option Constructor :=
  t.layers.findSome? (·.constructors.get? name)

def definition? (t : SymbolTable) (name : String) : Option Definition :=
  t.layers.findSome? (·.definitions.get? name)

/-- The type of a constant without a body. -/
def postulate? (t : SymbolTable) (name : String) : Option Term :=
  t.layers.findSome? (·.postulates.get? name)

/-- The type of a registered name. -/
def type? (t : SymbolTable) (name : String) : Option Term :=
  ((t.family? name).map (·.arity)).or <|
    ((t.constructor? name).map (·.type)).or <|
      ((t.definition? name).map (·.type)).or (t.postulate? name)

/-- Whether a name is registered. -/
def defined (t : SymbolTable) (name : String) : Bool :=
  (t.type? name).isSome

/-- Whether a name is an inductive type. -/
def isFamily (t : SymbolTable) (name : String) : Bool :=
  (t.family? name).isSome

/-- The registered names, those of the lowest layer first. -/
def names (t : SymbolTable) : List String :=
  t.layers.reverse.flatMap (·.order)

/-- The hints, those of the lowest layer first. -/
def hints (t : SymbolTable) : List String :=
  t.layers.reverse.flatMap (·.hints)

/-! ### Registration -/

/-- The table with a change to its own layer that registers a new name. -/
def register (t : SymbolTable) (name : String) (change : Layer → Layer) :
    Except KernelError SymbolTable :=
  if t.defined name then .error (.alreadyDefined name)
  else
    let own := change t.own
    .ok ⟨{ own with order := own.order ++ [name] }, t.below⟩

/-- Registers an inductive type without constructors. -/
def addFamily (t : SymbolTable) (name : String) (arity : Term) : Except KernelError SymbolTable :=
  t.register name fun own =>
    { own with families := own.families.put name ⟨arity, arity.piChain.1.length, []⟩ }

/-- Registers a constructor.  An inductive type of a lower layer is copied into this one. -/
def addConstructor (t : SymbolTable) (name family : String) (type : Term) :
    Except KernelError SymbolTable :=
  if t.defined name then .error (.alreadyDefined name)
  else
    match t.family? family with
    | none => .error (.notAnInductive (.global family))
    | some f =>
      t.register name fun own =>
        { own with
          families := own.families.put family { f with constructors := f.constructors ++ [name] }
          constructors := own.constructors.put name ⟨family, type⟩ }

/-- Registers a constant with a body. -/
def addDefinition (t : SymbolTable) (name : String) (type body : Term) :
    Except KernelError SymbolTable :=
  t.register name fun own => { own with definitions := own.definitions.put name ⟨type, body⟩ }

/-- Registers a constant without a body. -/
def addPostulate (t : SymbolTable) (name : String) (type : Term) : Except KernelError SymbolTable :=
  t.register name fun own => { own with postulates := own.postulates.put name type }

/-- Marks a registered name as a hint, once. -/
def addHint (t : SymbolTable) (name : String) : Except KernelError SymbolTable :=
  if !t.defined name then .error (.unboundVariable name)
  else if t.hints.contains name then .ok t
  else .ok ⟨{ t.own with hints := t.own.hints ++ [name] }, t.below⟩

/-! ### Publication -/

/-- The table with the registrations of a layer merged into its own, unless one of the names is
taken. -/
def publish (t : SymbolTable) (above : Layer) : Except KernelError SymbolTable :=
  match above.order.find? t.defined with
  | some name => .error (.alreadyDefined name)
  | none => .ok ⟨t.own.merge above, t.below⟩

/-- What a registered name is. -/
inductive Role where
  | family
  | constructor
  | definition
  | postulate
deriving DecidableEq, Repr

/-- The role of a registered name. -/
def role (t : SymbolTable) (name : String) : Role :=
  if t.isFamily name then .family
  else if (t.constructor? name).isSome then .constructor
  else if (t.definition? name).isSome then .definition
  else .postulate

/-- Every registered name with its role and its type, in order of registration. -/
def entries (t : SymbolTable) : List (String × Role × Term) :=
  t.names.filterMap fun name => (t.type? name).map fun type => (name, t.role name, type)

end SymbolTable

end ProofKernel
