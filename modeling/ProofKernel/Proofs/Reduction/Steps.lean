import ProofKernel.Reduction

/-!
# Sequences of reduction steps

Normalization takes steps until there is none or the fuel is used up.  This file counts the steps,
so that the two ways in which it can end are told apart.

* `SymbolTable.reduce` is what normalization computes, without the log (`value_normalize`).
* `SymbolTable.steps?` is the term after a number of steps; `Normalizes` says that a normal form is
  reached in time, `SymbolTable.Diverges` that there is always another step.
* `SymbolTable.diverges_of_loop`: a term that comes back to itself diverges.
-/

set_option autoImplicit false
namespace ProofKernel
namespace SymbolTable

variable {table : SymbolTable} {t u : Term}

/-! ## Normalization without its log -/

/-- The term after at most so many steps. -/
def reduce (table : SymbolTable) : Nat → Term → Term
  | 0, t => t
  | n + 1, t =>
    match table.step? t with
    | none => t
    | some t' => table.reduce n t'

theorem value_reduceFrom (options : Options) (whole : Term) (n : Nat) (t : Term) (log : Log) :
    (reduceFrom options table whole n t log).value = table.reduce n t := by
  induction n generalizing t log with
  | zero => rfl
  | succ n ih =>
    rw [reduceFrom, reduce]
    cases table.step? t with
    | none => rfl
    | some t' => exact ih t' _

@[simp] theorem value_normalize (options : Options) (table : SymbolTable) (t : Term) :
    (normalize options table t).value = table.reduce options.fuel t :=
  value_reduceFrom ..

/-- A term without redexes is its own normal form. -/
theorem reduce_of_step?_eq_none (h : table.step? t = none) (n : Nat) : table.reduce n t = t := by
  cases n with
  | zero => rfl
  | succ n => rw [reduce, h]

/-! ## Applications -/

theorem step?_app_lam (x : String) (a b c : Term) :
    table.step? (.app (.lam x a b) c) = some (b.substitute x c) := by
  simp [step?, arithmetic?]

/-- An application of something else than a function. -/
theorem step?_app {f : Term} (hf : ∀ x a b, f ≠ .lam x a b) (a : Term) :
    table.step? (.app f a) = (table.arithmetic? (.app f a)).or
      ((table.deltaStep? (.app f a)).or (((table.step? f).map fun f' => .app f' a).or
        ((table.step? a).map fun a' => .app f a'))) := by
  rw [step?]
  exact hf

/-! ## Counting steps -/

/-- The term after exactly so many steps, if there are as many. -/
def steps? (table : SymbolTable) : Nat → Term → Option Term
  | 0, t => some t
  | n + 1, t => (table.step? t).bind (table.steps? n)

theorem steps?_add (m n : Nat) (t : Term) :
    table.steps? (m + n) t = (table.steps? m t).bind (table.steps? n) := by
  induction m generalizing t with
  | zero => rw [Nat.zero_add]; rfl
  | succ m ih =>
    rw [Nat.succ_add, steps?, steps?, Option.bind_assoc]
    exact Option.bind_congr fun t' _ => ih t'

theorem reduce_of_steps? {k : Nat} (h : table.steps? k t = some u) (n : Nat) :
    table.reduce (k + n) t = table.reduce n u := by
  induction k generalizing t with
  | zero => rw [Nat.zero_add, Option.some.inj h]
  | succ k ih =>
    obtain ⟨t', ht, hu⟩ := Option.bind_eq_some_iff.1 h
    rw [Nat.succ_add, reduce, ht]
    exact ih hu

/-- A normal form that is reached within the fuel is the result. -/
theorem reduce_eq_of_steps? {k n : Nat} (h : table.steps? k t = some u)
    (hu : table.step? u = none) (hk : k ≤ n) : table.reduce n t = u := by
  obtain ⟨m, rfl⟩ := Nat.exists_eq_add_of_le hk
  rw [reduce_of_steps? h, reduce_of_step?_eq_none hu]

end SymbolTable

/-- Normalization ends in a normal form before the fuel is used up. -/
def Normalizes (options : Options) (table : SymbolTable) (t u : Term) : Prop :=
  table.step? u = none ∧ ∃ n < options.fuel, table.steps? n t = some u

theorem Normalizes.value {options : Options} {table : SymbolTable} {t u : Term}
    (h : Normalizes options table t u) : (normalize options table t).value = u := by
  obtain ⟨hu, n, hn, ht⟩ := h
  rw [SymbolTable.value_normalize]
  exact SymbolTable.reduce_eq_of_steps? ht hu (Nat.le_of_lt hn)

/-! ## Reduction without end -/

namespace SymbolTable

variable {table : SymbolTable} {t u : Term}

/-- There is always another step. -/
def Diverges (table : SymbolTable) (t : Term) : Prop :=
  ∀ n, (table.steps? n t).isSome

theorem isSome_steps?_of_add {m n : Nat} (h : (table.steps? (m + n) t).isSome) :
    (table.steps? m t).isSome := by
  rw [steps?_add] at h
  cases hm : table.steps? m t with
  | none => simp [hm] at h
  | some u => rfl

theorem Diverges.of_steps? {k : Nat} (h : table.steps? k t = some u) (hu : table.Diverges u) :
    table.Diverges t := by
  intro n
  refine isSome_steps?_of_add (n := k) ?_
  rw [Nat.add_comm, steps?_add, h]
  exact hu n

/-- **A term that comes back to itself after some steps diverges.** -/
theorem diverges_of_loop {k : Nat} (h : table.steps? (k + 1) t = some t) : table.Diverges t := by
  have hloop : ∀ m, table.steps? (m * (k + 1)) t = some t := by
    intro m
    induction m with
    | zero => rw [Nat.zero_mul]; rfl
    | succ m ih => rw [Nat.succ_mul, steps?_add, ih]; exact h
  intro n
  refine isSome_steps?_of_add (n := n * k) ?_
  rw [show n + n * k = n * (k + 1) by rw [Nat.mul_succ, Nat.add_comm], hloop]
  rfl

/-- Whatever the fuel, normalization of a term that diverges stops where there is another step. -/
theorem Diverges.step?_reduce (h : table.Diverges t) (n : Nat) :
    table.step? (table.reduce n t) ≠ none := by
  obtain ⟨u, hu⟩ := Option.isSome_iff_exists.1 (h n)
  have hr : table.reduce n t = u := reduce_of_steps? hu 0
  have hs := h (n + 1)
  rw [steps?_add, hu] at hs
  intro hnone
  rw [hr] at hnone
  simp [steps?, hnone] at hs

end SymbolTable
end ProofKernel
