import ProofKernel.Proofs.Support.Leaves
import ProofKernel.Proofs.Verdict

/-!
# Tables that agree on a set of names

The kernel asks a table for the names that the terms at hand mention, and then for those that the
answers mention.  So it cannot tell two tables apart that give the same answers on a set of names
that is closed in this way.

* `SymbolTable.registration` is all that a table knows of a name; two tables are `SymbolTable.Alike`
  if they know the same of all names.
* `SymbolTable.Shared` says that two tables agree on a set, and that what they register there stays
  within the set.
* `Verdict.Same` compares the judgements of two runs: they are equal, and a value that is accepted
  has a property.  It is kept by sequencing (`Verdict.Same.bind`).
-/

set_option autoImplicit false
namespace ProofKernel

/-! ## Registrations -/

/-- What a table knows of a name. -/
structure Registration where
  family : Option Family
  constructor : Option Constructor
  definition : Option Definition
  /-- The type of a constant without a body. -/
  postulate : Option Term
deriving DecidableEq

namespace Registration

/-- Nothing is known. -/
def none : Registration :=
  ⟨.none, .none, .none, .none⟩

/-- The type of a name that is registered so. -/
def type? (r : Registration) : Option Term :=
  (r.family.map (·.arity)).or <|
    (r.constructor.map (·.type)).or <| (r.definition.map (·.type)).or r.postulate

/-- What is registered mentions nothing from outside a set, and the constructors of an inductive
type are in it as well as the inductive type of a constructor. -/
structure Over (S : Leaf → Prop) (r : Registration) : Prop where
  family : ∀ f, r.family = some f → f.arity.Over S ∧ ∀ c ∈ f.constructors, S (.global c)
  constructor : ∀ c, r.constructor = some c → c.type.Over S ∧ S (.global c.family)
  definition : ∀ d, r.definition = some d → d.type.Over S ∧ d.body.Over S
  postulate : ∀ A, r.postulate = some A → A.Over S

variable {S S' : Leaf → Prop} {r : Registration}

theorem Over.mono (h : r.Over S) (hS : ∀ l, S l → S' l) : r.Over S' where
  family := fun f hf => ⟨(h.family f hf).1.mono hS, fun c hc => hS _ ((h.family f hf).2 c hc)⟩
  constructor := fun c hc => ⟨(h.constructor c hc).1.mono hS, hS _ (h.constructor c hc).2⟩
  definition := fun d hd => ⟨(h.definition d hd).1.mono hS, (h.definition d hd).2.mono hS⟩
  postulate := fun A hA => (h.postulate A hA).mono hS

/-- What is within two sets is within what they have in common. -/
theorem Over.and {S'' : Leaf → Prop} (h : r.Over S) (h' : r.Over S')
    (hS : ∀ l, S l → S' l → S'' l) : r.Over S'' where
  family := fun f hf => ⟨fun l hl => hS l ((h.family f hf).1 l hl) ((h'.family f hf).1 l hl),
    fun c hc => hS _ ((h.family f hf).2 c hc) ((h'.family f hf).2 c hc)⟩
  constructor := fun c hc =>
    ⟨fun l hl => hS l ((h.constructor c hc).1 l hl) ((h'.constructor c hc).1 l hl),
      hS _ (h.constructor c hc).2 (h'.constructor c hc).2⟩
  definition := fun d hd =>
    ⟨fun l hl => hS l ((h.definition d hd).1 l hl) ((h'.definition d hd).1 l hl),
      fun l hl => hS l ((h.definition d hd).2 l hl) ((h'.definition d hd).2 l hl)⟩
  postulate := fun A hA l hl => hS l (h.postulate A hA l hl) (h'.postulate A hA l hl)

theorem over_none : none.Over S :=
  ⟨nofun, nofun, nofun, nofun⟩

theorem Over.type? {A : Term} (h : r.Over S) (hA : r.type? = some A) : A.Over S := by
  unfold Registration.type? at hA
  rw [Option.or_eq_some_iff, Option.or_eq_some_iff, Option.or_eq_some_iff] at hA
  rcases hA with hA | ⟨_, hA | ⟨_, hA | ⟨_, hA⟩⟩⟩
  · obtain ⟨f, hf, rfl⟩ := Option.map_eq_some_iff.1 hA
    exact (h.family f hf).1
  · obtain ⟨c, hc, rfl⟩ := Option.map_eq_some_iff.1 hA
    exact (h.constructor c hc).1
  · obtain ⟨d, hd, rfl⟩ := Option.map_eq_some_iff.1 hA
    exact (h.definition d hd).1
  · exact h.postulate A hA

theorem type?_eq_none_iff : r.type? = .none ↔ r = none := by
  obtain ⟨f, c, d, A⟩ := r
  simp [Registration.type?, none]

end Registration

namespace SymbolTable

/-- What a table knows of a name. -/
def registration (table : SymbolTable) (name : String) : Registration :=
  ⟨table.family? name, table.constructor? name, table.definition? name, table.postulate? name⟩

theorem type?_registration (table : SymbolTable) (name : String) :
    (table.registration name).type? = table.type? name := rfl

/-- A name is registered iff something is known of it. -/
theorem defined_eq_false_iff {table : SymbolTable} {name : String} :
    table.defined name = false ↔ table.registration name = .none := by
  rw [defined, Option.isSome_eq_false_iff, Option.isNone_iff_eq_none, ← type?_registration,
    Registration.type?_eq_none_iff]

/-- Two tables know the same. -/
def Alike (table table' : SymbolTable) : Prop :=
  ∀ name, table.registration name = table'.registration name

theorem Alike.symm {table table' : SymbolTable} (h : table.Alike table') : table'.Alike table :=
  fun name => (h name).symm

theorem Alike.trans {table table' table'' : SymbolTable} (h : table.Alike table')
    (h' : table'.Alike table'') : table.Alike table'' :=
  fun name => (h name).trans (h' name)

theorem Alike.defined {table table' : SymbolTable} (h : table.Alike table') (name : String) :
    table.defined name = table'.defined name :=
  congrArg (fun r => r.type?.isSome) (h name)

/-! ## Sets of names on which two tables agree -/

/-- Two tables know the same of the names of a set, and what they know stays within the set. -/
structure Shared (S : Leaf → Prop) (table table' : SymbolTable) : Prop where
  agree : ∀ name, S (.global name) → table.registration name = table'.registration name
  entries : ∀ name, S (.global name) → (table.registration name).Over S
  literal : ∀ value : Literal, S (.global value.typeName)

namespace Shared

variable {S : Leaf → Prop} {table table' : SymbolTable} {name : String}

theorem family? (h : Shared S table table') (hname : S (.global name)) :
    table.family? name = table'.family? name :=
  congrArg Registration.family (h.agree name hname)

theorem constructor? (h : Shared S table table') (hname : S (.global name)) :
    table.constructor? name = table'.constructor? name :=
  congrArg Registration.constructor (h.agree name hname)

theorem definition? (h : Shared S table table') (hname : S (.global name)) :
    table.definition? name = table'.definition? name :=
  congrArg Registration.definition (h.agree name hname)

theorem postulate? (h : Shared S table table') (hname : S (.global name)) :
    table.postulate? name = table'.postulate? name :=
  congrArg Registration.postulate (h.agree name hname)

theorem type? (h : Shared S table table') (hname : S (.global name)) :
    table.type? name = table'.type? name :=
  congrArg Registration.type? (h.agree name hname)

theorem isFamily (h : Shared S table table') (hname : S (.global name)) :
    table.isFamily name = table'.isFamily name :=
  congrArg Option.isSome (h.family? hname)

theorem defined (h : Shared S table table') (hname : S (.global name)) :
    table.defined name = table'.defined name :=
  congrArg Option.isSome (h.type? hname)

end Shared
end SymbolTable

/-! ## Two runs side by side -/

namespace Verdict

variable {α β : Type} {P P' : α → Prop} {Q : β → Prop}

/-- Two judgements are the same, and a value that they accept has a property. -/
structure Same (P : α → Prop) (v w : Verdict α) : Prop where
  eq : v = w
  value : ∀ a, v.outcome = .ok a → P a

namespace Same

theorem pure {a : α} (h : P a) : Same P (Pure.pure a) (Pure.pure a) := by
  refine ⟨rfl, fun b hb => ?_⟩
  cases hb
  exact h

theorem reject (e : KernelError) : Same P (Verdict.reject e) (Verdict.reject e) :=
  ⟨rfl, nofun⟩

theorem ofExcept {x : Except KernelError α} (h : ∀ a, x = .ok a → P a) :
    Same P (Verdict.ofExcept x) (Verdict.ofExcept x) :=
  ⟨rfl, h⟩

theorem refl (v : Verdict α) : Same (fun _ => True) v v :=
  ⟨rfl, fun _ _ => trivial⟩

/-- **Judgements that follow the same ones are the same**, if they are so after every value that has
the property. -/
theorem bind {v w : Verdict α} {f g : α → Verdict β} (h : Same P v w)
    (hfg : ∀ a, P a → Same Q (f a) (g a)) : Same Q (v >>= f) (w >>= g) := by
  obtain ⟨rfl, hP⟩ := h
  constructor
  · obtain ⟨log, outcome⟩ := v
    cases outcome with
    | error e => rfl
    | ok a =>
      show Verdict.mk (log ++ (f a).log) (f a).outcome = ⟨log ++ (g a).log, (g a).outcome⟩
      rw [(hfg a (hP a rfl)).eq]
  · intro b hb
    obtain ⟨a, ha, hb⟩ := bind_eq_ok_iff.1 hb
    exact (hfg a (hP a ha)).value b hb

theorem note_bind {on : Bool} {e : Event} {f g : Unit → Verdict β} (h : Same Q (f ()) (g ())) :
    Same Q (Verdict.note on e >>= f) (Verdict.note on e >>= g) :=
  bind (refl _) fun _ _ => h

/-- What cannot be rejected is compared by its value. -/
theorem lift_bind {x y : Traced α} {f g : α → Verdict β} (hxy : x = y)
    (h : Same Q (f x.value) (g x.value)) :
    Same Q ((liftM x : Verdict α) >>= f) ((liftM y : Verdict α) >>= g) := by
  subst hxy
  refine bind (P := fun a => a = x.value) ⟨rfl, fun a ha => ?_⟩ fun a ha => ha ▸ h
  cases ha
  rfl

end Same
end Verdict
end ProofKernel
