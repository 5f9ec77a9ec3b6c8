import ProofKernel.Proofs.Arithmetic
import ProofKernel.Proofs.Session.Filling

/-!
# Folding arithmetic expressions

An expression of literals and operations is normalized by folding it from the leaves up.  An
operation that is not defined stays, and so does everything above it, while the rest is folded all
the same.

* `Arithmetic.Expression` are the expressions; `Expression.fold` folds one with the exact results of
  its operations.
* `SymbolTable.Computes` is what a table has to know of the operations.  A table that contains the
  prelude does (`SymbolTable.Computes.of_extends`).
* `Arithmetic.Expression.exists_steps?_fold`: an expression is folded within as many steps as it has
  operators.
* `Arithmetic.Expression.normalize_toTerm`: **an expression is normalized to what it folds to**.
-/

set_option autoImplicit false
namespace ProofKernel

/-! ## Expressions -/

namespace Arithmetic

/-- Binary applications of operations to literals. -/
inductive Expression where
  | literal (n : Int64)
  | apply (o : Operation) (l r : Expression)
deriving DecidableEq, Repr

namespace Expression

/-- An operation with its arguments. -/
def operate (o : Operation) (l r : Term) : Term :=
  .app (.app (.global o.name) l) r

/-- The term of an expression. -/
def toTerm : Expression → Term
  | literal n => .lit (.int n)
  | apply o l r => operate o l.toTerm r.toTerm

/-- The number of operators. -/
def operators : Expression → Nat
  | literal _ => 0
  | apply _ l r => l.operators + r.operators + 1

/-- An operation on two folded expressions: the exact result if both are literals and the operation
is defined on them. -/
def combine (o : Operation) : Expression → Expression → Expression
  | literal x, literal y =>
    match o.result? x y with
    | some z => literal z
    | none => apply o (literal x) (literal y)
  | l, r => apply o l r

/-- An expression folded from the leaves up. -/
def fold : Expression → Expression
  | literal n => literal n
  | apply o l r => combine o l.fold r.fold

end Expression

end Arithmetic

/-! ## Steps of an operation -/

namespace SymbolTable

open Arithmetic Expression

/-- The operations are constants without a body. -/
def Computes (table : SymbolTable) : Prop :=
  ∀ o : Operation,
    (table.postulate? o.name).isSome = true ∧ table.definition? o.name = none

variable {table : SymbolTable} {o : Operation} {l l' r r' : Term} {k : Nat}

theorem Computes.arithmetic? (h : table.Computes) (o : Operation) (x y : Int64) :
    table.arithmetic? (operate o (.lit (.int x)) (.lit (.int y))) =
      (o.result? x y).map fun n => .lit (.int n) := by
  rw [operate, SymbolTable.arithmetic?, if_pos (h o).1, evaluate?_name]

/-- An operation is not evaluated before its arguments are literals. -/
theorem arithmetic?_operate (h : ∀ x y, ¬ (l = .lit (.int x) ∧ r = .lit (.int y))) :
    table.arithmetic? (operate o l r) = none := by
  rw [operate, SymbolTable.arithmetic?]
  rintro - x y ⟨⟩
  exact h x y ⟨rfl, rfl⟩

/-- An operation is evaluated, or else its first argument takes a step, or else its second. -/
theorem Computes.step?_operate (h : table.Computes) (o : Operation) (l r : Term) :
    table.step? (operate o l r) = (table.arithmetic? (operate o l r)).or
      (((table.step? l).map fun l' => operate o l' r).or
        ((table.step? r).map fun r' => operate o l r')) := by
  have hname : table.step? (.global o.name) = none := by
    rw [step?, (h o).2]
    rfl
  have hinner : table.step? (.app (.global o.name) l) =
      (table.step? l).map fun l' => .app (.global o.name) l' := by
    rw [step?_app (by rintro _ _ _ ⟨⟩), hname]
    rfl
  rw [operate, step?_app (by rintro _ _ _ ⟨⟩), hinner, Option.map_map]
  rfl

theorem not_lit_of_step? (h : table.step? l = some l') (x : Literal) : l ≠ .lit x := by
  rintro rfl
  cases h

/-- The first argument is reduced. -/
theorem Computes.steps?_left (h : table.Computes) (hl : table.steps? k l = some l') :
    table.steps? k (operate o l r) = some (operate o l' r) := by
  induction k generalizing l with
  | zero =>
    cases hl
    rfl
  | succ k ih =>
    obtain ⟨l₁, hstep, hrest⟩ := Option.bind_eq_some_iff.1 hl
    have harith : table.arithmetic? (operate o l r) = none :=
      arithmetic?_operate fun x _ hxy => not_lit_of_step? hstep _ hxy.1
    rw [steps?, h.step?_operate, harith, hstep]
    exact ih hrest

/-- The second argument is reduced after the first one. -/
theorem Computes.steps?_right (h : table.Computes) (hl : table.step? l = none)
    (hr : table.steps? k r = some r') :
    table.steps? k (operate o l r) = some (operate o l r') := by
  induction k generalizing r with
  | zero =>
    cases hr
    rfl
  | succ k ih =>
    obtain ⟨r₁, hstep, hrest⟩ := Option.bind_eq_some_iff.1 hr
    have harith : table.arithmetic? (operate o l r) = none :=
      arithmetic?_operate fun _ y hxy => not_lit_of_step? hstep _ hxy.2
    rw [steps?, h.step?_operate, harith, hl, hstep]
    exact ih hrest

end SymbolTable

/-! ## Folding by steps -/

namespace Arithmetic
namespace Expression

variable {table : SymbolTable} {o : Operation} {l r : Expression}

/-- An operation on normal forms is evaluated in one step, or it is a normal form. -/
theorem step?_combine (h : table.Computes) (hl : table.step? l.toTerm = none)
    (hr : table.step? r.toTerm = none) :
    table.step? (combine o l r).toTerm = none ∧
      (combine o l r = apply o l r ∨
        table.step? (apply o l r).toTerm = some (combine o l r).toTerm) := by
  have hstep : table.step? (apply o l r).toTerm = table.arithmetic? (apply o l r).toTerm := by
    rw [toTerm, h.step?_operate, hl, hr]
    exact Option.or_none
  have hstuck (harith : table.arithmetic? (apply o l r).toTerm = none) :
      table.step? (apply o l r).toTerm = none := hstep.trans harith
  cases l with
  | apply =>
    exact ⟨hstuck (SymbolTable.arithmetic?_operate fun _ _ hxy => nomatch hxy.1), .inl rfl⟩
  | literal x =>
    cases r with
    | apply =>
      exact ⟨hstuck (SymbolTable.arithmetic?_operate fun _ _ hxy => nomatch hxy.2), .inl rfl⟩
    | literal y =>
      have harith : table.arithmetic? (apply o (literal x) (literal y)).toTerm =
          (o.result? x y).map fun n => .lit (.int n) := h.arithmetic? o x y
      rw [hstep, harith, combine]
      cases hresult : o.result? x y with
      | none =>
        rw [hresult] at harith
        exact ⟨hstuck harith, .inl rfl⟩
      | some z => exact ⟨rfl, .inr rfl⟩

/-- **What an expression folds to is a normal form.** -/
theorem step?_fold (h : table.Computes) (e : Expression) : table.step? e.fold.toTerm = none := by
  induction e with
  | literal => rfl
  | apply o l r ihl ihr => exact (step?_combine h ihl ihr).1

/-- **An expression is folded within as many steps as it has operators.** -/
theorem exists_steps?_fold (h : table.Computes) (e : Expression) :
    ∃ k ≤ e.operators, table.steps? k e.toTerm = some e.fold.toTerm := by
  induction e with
  | literal => exact ⟨0, Nat.le_refl 0, rfl⟩
  | apply o l r ihl ihr =>
    obtain ⟨m, hm, hleft⟩ := ihl
    obtain ⟨n, hn, hright⟩ := ihr
    have hl := step?_fold h l
    -- first the left argument, then the right one
    have hargs : table.steps? (m + n) (apply o l r).toTerm =
        some (apply o l.fold r.fold).toTerm := by
      rw [SymbolTable.steps?_add, toTerm, h.steps?_left hleft]
      exact h.steps?_right hl hright
    rcases (step?_combine h hl (step?_fold h r)).2 with hstuck | hstep
    · refine ⟨m + n, Nat.le_succ_of_le (Nat.add_le_add hm hn), ?_⟩
      rw [hargs, fold, hstuck]
    · refine ⟨m + n + 1, Nat.succ_le_succ (Nat.add_le_add hm hn), ?_⟩
      rw [SymbolTable.steps?_add, hargs, Option.bind_some, SymbolTable.steps?, hstep]
      rfl

end Expression
end Arithmetic

/-! ## Tables with the prelude -/

open Arithmetic

/-- What the prelude registers for an operation. -/
theorem Session.Reachable.registration_operation {options : Options} {allowed : Statement → Prop}
    {s : Session} (h : Reachable options true allowed s) (o : Operation) :
    s.table.registration o.name =
      ⟨none, none, none,
        some (.arrow (.global "Int") (.arrow (.global "Int") (.global "Int")))⟩ := by
  have hname : o.name ∈ Prelude.declarations.flatMap (·.provides) := by
    cases o <;> decide
  refine h.registration_eq nofun hname fun d hd hmem T => ?_
  have honly : ∀ o : Operation, ∀ d ∈ Prelude.declarations, o.name ∈ d.provides →
      d = .postulate o.name (.arrow (.global "Int") (.arrow (.global "Int") (.global "Int"))) := by
    rintro (_ | _ | _ | _ | _) <;> decide
  rw [honly o d hd hmem]
  cases o <;> rfl

namespace SymbolTable

variable {options : Options} {prelude table : SymbolTable}

/-- A table that contains the prelude knows the operations. -/
theorem Computes.of_extends (hprelude : (initialTable options true).outcome = .ok prelude)
    (htable : prelude.Extends table) : table.Computes := by
  intro o
  have hstart : Session.Reachable options true (fun _ => True) ⟨options, true, prelude⟩ :=
    @Session.Reachable.start _ _ _ false _ (by simp [Session.start, hprelude])
  have hreg := hstart.registration_operation o
  have hdefined : prelude.defined o.name = true := by
    rw [← Bool.not_eq_false, defined_eq_false_iff, hreg]
    rintro ⟨⟩
  have htable := (htable _ hdefined).trans hreg
  exact ⟨by rw [show table.postulate? o.name = _ from congrArg Registration.postulate htable]; rfl,
    congrArg Registration.definition htable⟩

end SymbolTable

namespace Arithmetic
namespace Expression

/-- **Arithmetic normalizes exactly.**  In a table that contains the prelude, an expression is
normalized to what it folds to, if there is a unit of fuel for each operator. -/
theorem normalize_toTerm {options₀ options : Options} {prelude table : SymbolTable}
    (hprelude : (initialTable options₀ true).outcome = .ok prelude)
    (htable : prelude.Extends table) (e : Expression) (hfuel : e.operators ≤ options.fuel) :
    (normalize options table e.toTerm).value = e.fold.toTerm := by
  have hcomputes := SymbolTable.Computes.of_extends hprelude htable
  obtain ⟨k, hk, hsteps⟩ := exists_steps?_fold hcomputes e
  rw [SymbolTable.value_normalize]
  exact SymbolTable.reduce_eq_of_steps? hsteps (step?_fold hcomputes e) (Nat.le_trans hk hfuel)

/-- An operation that overflows stays, and so does what is applied to it; the rest is folded. -/
theorem normalize_toTerm_overflow :
    let options : Options := ⟨5, false, false, false⟩
    let overflow : Expression := .apply .add (.literal Int64.maxValue) (.literal 1)
    let e : Expression := .apply .mul (.apply .mul (.literal 6) (.literal 7))
      (.apply .mod (.apply .sub (.literal 4) (.literal 9)) overflow)
    ∃ prelude, (initialTable options true).outcome = .ok prelude ∧
      (normalize options prelude e.toTerm).value =
        operate .mul (.lit (.int 42)) (operate .mod (.lit (.int (-5))) overflow.toTerm) := by
  intro options overflow e
  obtain ⟨prelude, hprelude, -⟩ := Verdict.exists_ok_of_any (v := initialTable options true)
    (P := fun _ => True) (by decide +kernel)
  refine ⟨prelude, hprelude, ?_⟩
  have hfold : e.fold = .apply .mul (.literal 42) (.apply .mod (.literal (-5)) overflow) := by
    decide
  rw [normalize_toTerm hprelude (SymbolTable.Extends.refl prelude) e (by decide), hfold]
  rfl

end Expression
end Arithmetic
end ProofKernel
