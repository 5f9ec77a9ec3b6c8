import ProofKernel.Arithmetic
import Mathlib.Algebra.Ring.Int.Defs
import Mathlib.Algebra.Ring.Nat

/-!
# Exact arithmetic

The operations on whole numbers look at results that have already wrapped around: a sum at the
signs, a product at the quotient by one of its factors.  This file shows that nothing is lost by
that.

* `Arithmetic.Operation` are the operations, with their results among the integers
  (`Operation.exact`) and with what it takes for them to be defined (`Operation.Defined`).
* `Arithmetic.evaluate?_eq_some_iff`: **an operation on words has a result iff it is defined, and
  then it is the exact one**.
* `Arithmetic.Operation.result?` is that result, as the integers give it.

The argument is linear for sums and differences.  A product that wraps around is off by a multiple
of `2 ^ 64`; if a division gave back its factor, that multiple would be a remainder, which is
smaller than the divisor (`fits_mul_of_div_eq`).
-/

set_option autoImplicit false
namespace ProofKernel
namespace Arithmetic

/-! ## Words -/

/-- The integers that are words of 64 bits. -/
def Fits (n : Int) : Prop :=
  -2 ^ 63 ≤ n ∧ n ≤ 2 ^ 63 - 1

instance (n : Int) : Decidable (Fits n) :=
  inferInstanceAs (Decidable (_ ∧ _))

variable {x y z r : Int64} {n : Int}

theorem fits_toInt (x : Int64) : Fits x.toInt :=
  ⟨x.le_toInt, Int.le_sub_one_of_lt x.toInt_lt⟩

/-- An integer wraps around to itself iff it is a word. -/
theorem bmod_eq_self_iff : n.bmod (2 ^ 64) = n ↔ Fits n := by
  rw [Fits, Int.bmod_def]
  split <;> omega

theorem toInt_ofInt (h : Fits n) : (Int64.ofInt n).toInt = n :=
  Int64.toInt_ofInt_of_le h.1 (Int.lt_of_le_sub_one h.2)

/-- A wrapped result that counts iff the exact one fits is the exact one. -/
theorem guarded_eq_some_iff {p : Prop} [Decidable p] (hr : r.toInt = n.bmod (2 ^ 64))
    (hp : p ↔ Fits n) : (if p then some r else none) = some z ↔ Fits n ∧ z.toInt = n := by
  by_cases h : Fits n
  · rw [if_pos (hp.2 h), Option.some_inj, ← Int64.toInt_inj, hr, bmod_eq_self_iff.2 h, eq_comm]
    exact (and_iff_right h).symm
  · rw [if_neg (mt hp.1 h)]
    exact iff_of_false nofun fun hn => h hn.1

/-! ## Sums and differences -/

theorem add?_eq_some_iff :
    add? x y = some z ↔ Fits (x.toInt + y.toInt) ∧ z.toInt = x.toInt + y.toInt := by
  rw [add?, ← ite_not]
  refine guarded_eq_some_iff (Int64.toInt_add x y) ?_
  have hx := fits_toInt x
  have hy := fits_toInt y
  simp only [Bool.or_eq_true, Bool.and_eq_true, decide_eq_true_eq, Int64.lt_iff_toInt_lt,
    Int64.le_iff_toInt_le, Int64.toInt_add, Int64.toInt_zero, Int.bmod_def, Fits] at *
  split <;> omega

theorem sub?_eq_some_iff :
    sub? x y = some z ↔ Fits (x.toInt - y.toInt) ∧ z.toInt = x.toInt - y.toInt := by
  rw [sub?, ← ite_not]
  refine guarded_eq_some_iff (Int64.toInt_sub x y) ?_
  have hx := fits_toInt x
  have hy := fits_toInt y
  simp only [Bool.or_eq_true, Bool.and_eq_true, decide_eq_true_eq, Int64.lt_iff_toInt_lt,
    Int64.le_iff_toInt_le, Int64.toInt_sub, Int64.toInt_zero, Int.bmod_def, Fits] at *
  split <;> omega

/-! ## Products -/

theorem toInt_neg_one : (-1 : Int64).toInt = -1 := rfl

/-- A quotient of words is exact, but for the one that wraps around. -/
theorem toInt_div (h : ¬ (x = Int64.minValue ∧ y = -1)) :
    (x / y).toInt = x.toInt.tdiv y.toInt := by
  by_cases hx : x = Int64.minValue
  · exact Int64.toInt_div_of_ne_right x y fun hy => h ⟨hx, hy⟩
  · exact Int64.toInt_div_of_ne_left x y hx

/-- If a division gives back the factor of a wrapped product, the product has not wrapped around. -/
theorem fits_mul_of_div_eq (hy : y ≠ 0) (hexact : ¬ (x * y = Int64.minValue ∧ y = -1))
    (h : x * y / y = x) : Fits (x.toInt * y.toInt) := by
  have hquotient : (x * y).toInt.tdiv y.toInt = x.toInt := by rw [← toInt_div hexact, h]
  have hmod : y.toInt * x.toInt + (x * y).toInt.tmod y.toInt = (x * y).toInt := by
    rw [← hquotient]
    exact Int.mul_tdiv_add_tmod ..
  have hwrapped : (x * y).toInt + (2 ^ 64 : Nat) * (x.toInt * y.toInt).bdiv (2 ^ 64) =
      x.toInt * y.toInt := by
    rw [Int64.toInt_mul]
    exact Int.bmod_add_bdiv ..
  -- the product is off by a remainder, and by a multiple of `2 ^ 64`
  have hsmall : ((x * y).toInt.tmod y.toInt).natAbs < y.toInt.natAbs := by
    rw [Int.natAbs_tmod]
    refine Nat.mod_lt _ (Int.natAbs_pos.2 fun h0 => hy (Int64.toInt_inj.1 h0))
  have hfits := fits_toInt y
  have hr := fits_toInt (x * y)
  rw [Int.mul_comm] at hmod
  rw [Fits] at *
  omega

/-- The test of a product. -/
theorem mul_test_iff (hy : y ≠ 0) :
    (x * y / y == x && !(x == -1 && y == .minValue) && !(y == -1 && x == .minValue)) = true ↔
      Fits (x.toInt * y.toInt) := by
  simp only [Bool.and_eq_true, Bool.not_eq_true', Bool.and_eq_false_iff, beq_iff_eq,
    beq_eq_false_iff_ne]
  constructor
  · rintro ⟨⟨hdiv, -⟩, hmin⟩
    refine fits_mul_of_div_eq hy ?_ hdiv
    rintro ⟨hr, rfl⟩
    -- the quotient wraps around as well, so that the factor is the least word
    rw [hr] at hdiv
    exact hmin.elim (absurd rfl) (absurd hdiv.symm)
  · intro h
    have hr : (x * y).toInt = x.toInt * y.toInt := by
      rw [Int64.toInt_mul, bmod_eq_self_iff.2 h]
    have hexact : ¬ (x * y = Int64.minValue ∧ y = -1) := by
      rintro ⟨hmin, rfl⟩
      rw [hmin, toInt_neg_one, Int64.toInt_minValue] at hr
      have := fits_toInt x
      rw [Fits] at this
      omega
    have hne : ∀ {a b : Int64}, ¬ Fits (a.toInt * b.toInt) → ¬ (x = a ∧ y = b) := by
      rintro a b hab ⟨rfl, rfl⟩
      exact hab h
    refine ⟨⟨?_, not_and_or.1 (hne (by decide))⟩,
      not_and_or.1 fun hboth => hne (by decide) hboth.symm⟩
    rw [← Int64.toInt_inj, toInt_div hexact, hr]
    exact Int.mul_tdiv_cancel _ fun h0 => hy (Int64.toInt_inj.1 h0)

theorem mul?_eq_some_iff :
    mul? x y = some z ↔ Fits (x.toInt * y.toInt) ∧ z.toInt = x.toInt * y.toInt := by
  rw [mul?]
  split
  · next hzero =>
    have hprod : x.toInt * y.toInt = 0 := by
      rw [Bool.or_eq_true, beq_iff_eq, beq_iff_eq] at hzero
      rcases hzero with rfl | rfl <;> simp
    rw [hprod, Option.some_inj, ← Int64.toInt_inj, eq_comm]
    exact (and_iff_right (by decide)).symm
  · next hzero =>
    refine guarded_eq_some_iff (Int64.toInt_mul x y) (mul_test_iff fun hy => hzero ?_)
    rw [hy, beq_self_eq_true, Bool.or_true]

/-! ## Divisions -/

theorem divides_iff : divides x y = true ↔ y.toInt ≠ 0 ∧ ¬ (x.toInt = -2 ^ 63 ∧ y.toInt = -1) := by
  rw [divides, Bool.and_eq_true, bne_iff_ne, Bool.not_eq_true', Bool.and_eq_false_iff,
    beq_eq_false_iff_ne, beq_eq_false_iff_ne, ← not_and_or, Ne, ← Int64.toInt_inj,
    ← Int64.toInt_inj, ← Int64.toInt_inj]
  exact Iff.rfl

theorem div?_eq_some_iff : div? x y = some z ↔
    (y.toInt ≠ 0 ∧ ¬ (x.toInt = -2 ^ 63 ∧ y.toInt = -1)) ∧ z.toInt = x.toInt.tdiv y.toInt := by
  rw [div?, ← divides_iff]
  split
  · next h =>
    have hexact : ¬ (x = Int64.minValue ∧ y = -1) := by
      rintro ⟨rfl, rfl⟩
      exact absurd h (by decide)
    rw [Option.some_inj, ← Int64.toInt_inj, toInt_div hexact, eq_comm]
    exact (and_iff_right h).symm
  · next h => exact iff_of_false nofun fun hz => h hz.1

theorem mod?_eq_some_iff : mod? x y = some z ↔
    (y.toInt ≠ 0 ∧ ¬ (x.toInt = -2 ^ 63 ∧ y.toInt = -1)) ∧ z.toInt = x.toInt.tmod y.toInt := by
  rw [mod?, ← divides_iff]
  split
  · next h =>
    rw [Option.some_inj, ← Int64.toInt_inj, Int64.toInt_mod, eq_comm]
    exact (and_iff_right h).symm
  · next h => exact iff_of_false nofun fun hz => h hz.1

/-! ## The operations -/

/-- The operations on whole numbers. -/
inductive Operation where
  | add
  | sub
  | mul
  | div
  | mod
deriving DecidableEq, Repr

namespace Operation

/-- The name of an operation in the prelude. -/
def name : Operation → String
  | add => "add"
  | sub => "sub"
  | mul => "mul"
  | div => "div"
  | mod => "mod"

/-- The result of an operation among the integers.  The quotient is truncated toward zero, and the
remainder has the sign of the dividend. -/
def exact : Operation → Int → Int → Int
  | add, x, y => x + y
  | sub, x, y => x - y
  | mul, x, y => x * y
  | div, x, y => x.tdiv y
  | mod, x, y => x.tmod y

/-- Whether an operation on two words is defined: a sum, a difference or a product if it is a word,
a division if it is not by zero and does not leave the words. -/
def Defined : Operation → Int → Int → Prop
  | add, x, y => Fits (x + y)
  | sub, x, y => Fits (x - y)
  | mul, x, y => Fits (x * y)
  | div, x, y | mod, x, y => y ≠ 0 ∧ ¬ (x = -2 ^ 63 ∧ y = -1)

instance : (o : Operation) → (x y : Int) → Decidable (o.Defined x y)
  | add, _, _ | sub, _, _ | mul, _, _ => inferInstanceAs (Decidable (Fits _))
  | div, _, _ | mod, _, _ => inferInstanceAs (Decidable (_ ∧ _))

end Operation

/-- **Arithmetic on words is exact.**  An operation has a result iff it is defined, and the result
is the one among the integers. -/
theorem evaluate?_eq_some_iff (o : Operation) :
    evaluate? o.name x y = some z ↔
      o.Defined x.toInt y.toInt ∧ z.toInt = o.exact x.toInt y.toInt := by
  cases o with
  | add => exact add?_eq_some_iff
  | sub => exact sub?_eq_some_iff
  | mul => exact mul?_eq_some_iff
  | div => exact div?_eq_some_iff
  | mod => exact mod?_eq_some_iff

/-! ## The exact result -/

namespace Operation

/-- The word of the exact result, where the operation is defined. -/
def result? (o : Operation) (x y : Int64) : Option Int64 :=
  if o.Defined x.toInt y.toInt then some (.ofInt (o.exact x.toInt y.toInt)) else none

/-- The exact result of a defined operation is a word. -/
theorem fits_exact {o : Operation} (h : o.Defined x.toInt y.toInt) :
    Fits (o.exact x.toInt y.toInt) := by
  cases o with
  | add | sub | mul => exact h
  | div =>
    rw [exact, ← toInt_div fun hxy => h.2 ⟨congrArg Int64.toInt hxy.1, congrArg Int64.toInt hxy.2⟩]
    exact fits_toInt _
  | mod =>
    rw [exact, ← Int64.toInt_mod]
    exact fits_toInt _

theorem result?_eq_some_iff {o : Operation} :
    o.result? x y = some z ↔ o.Defined x.toInt y.toInt ∧ z.toInt = o.exact x.toInt y.toInt := by
  rw [result?]
  split
  · next h =>
    rw [Option.some_inj, ← Int64.toInt_inj, toInt_ofInt (fits_exact h), eq_comm]
    exact (and_iff_right h).symm
  · next h => exact iff_of_false nofun fun hz => h hz.1

end Operation

/-- An operation of the prelude gives the exact result. -/
theorem evaluate?_name (o : Operation) (x y : Int64) : evaluate? o.name x y = o.result? x y :=
  Option.ext fun _ => (evaluate?_eq_some_iff o).trans Operation.result?_eq_some_iff.symm

end Arithmetic
end ProofKernel
