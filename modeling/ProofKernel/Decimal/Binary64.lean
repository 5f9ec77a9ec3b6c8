/-!
# Binary floating-point numbers

A number of the IEEE 754 format binary64, held by its bits so that every fact about it is one about
natural numbers.

* `Binary64.parts?` splits a finite number into `m · 2 ^ q`.
* `Binary64.ofDecimal?` is the number nearest to a decimal fraction, ties to the even significand.
* `Binary64.same` is numeric equality: a NaN equals nothing, and the two zeros are equal.
-/

set_option autoImplicit false
namespace ProofKernel

/-- A binary64 number. -/
structure Binary64 where
  bits : UInt64
deriving DecidableEq, Repr, Inhabited

namespace Binary64

/-- Whether the sign bit is set. -/
def isNegative (x : Binary64) : Bool :=
  0x8000000000000000 ≤ x.bits

/-- The bits other than the sign. -/
def magnitude (x : Binary64) : Nat :=
  x.bits.toNat % Nat.pow 2 63

/-- The magnitude of infinity; the magnitudes above it are the NaNs. -/
def infinity : Nat :=
  0x7FF0000000000000

def isNaN (x : Binary64) : Bool :=
  infinity < x.magnitude

/-- Numeric equality. -/
def same (x y : Binary64) : Bool :=
  !x.isNaN && !y.isNaN && (x.bits == y.bits || (x.magnitude == 0 && y.magnitude == 0))

/-- The number with a sign and a magnitude. -/
def ofMagnitude (negative : Bool) (magnitude : Nat) : Binary64 :=
  ⟨UInt64.ofNat (magnitude + if negative then Nat.pow 2 63 else 0)⟩

/-- The exponent of the least positive number. -/
def leastExponent : Int :=
  -1074

/-- A finite magnitude as `m · 2 ^ q`. -/
def split (magnitude : Nat) : Nat × Int :=
  let exponent := magnitude / Nat.pow 2 52
  let fraction := magnitude % Nat.pow 2 52
  if exponent = 0 then (fraction, leastExponent)
  else (fraction + Nat.pow 2 52, leastExponent + (exponent - 1 : Nat))

/-- The significand and the exponent of a finite number, its sign apart. -/
def parts? (x : Binary64) : Option (Nat × Int) :=
  if x.magnitude < infinity then some (split x.magnitude) else none

/-- A quotient rounded to the nearest natural number, ties to even. -/
def roundDiv (num den : Nat) : Nat :=
  let q := num / den
  let twice := 2 * (num % den)
  if twice < den || (twice == den && q % 2 == 0) then q else q + 1

/-- `num / den` scaled by `2 ^ (-q)`, as a fraction again. -/
def scale (num den : Nat) (q : Int) : Nat × Nat :=
  if q ≤ 0 then (num * Nat.pow 2 q.natAbs, den) else (num, den * Nat.pow 2 q.natAbs)

/-- The exponent at which a positive fraction has a significand of 53 bits, or the least one. -/
def exponentOf (num den : Nat) : Int :=
  let guess : Int := (num.log2 : Int) - (den.log2 : Int) - 52
  let (n, d) := scale num den guess
  let exact := if n < d * Nat.pow 2 52 then guess - 1 else guess
  max exact leastExponent

/-- The magnitude nearest to a positive fraction, unless it lies past the greatest finite one.  The
significand carries into the exponent when it is rounded up to a power of two. -/
def nearest? (num den : Nat) : Option Nat :=
  let q := exponentOf num den
  let (n, d) := scale num den q
  let magnitude := (q - leastExponent).toNat * Nat.pow 2 52 + roundDiv n d
  if magnitude < infinity then some magnitude else none

/-- The number nearest to `digits · 10 ^ exponent`, unless it lies past the greatest finite one.
Powers of ten far outside the format are settled without being computed. -/
def ofDecimal? (negative : Bool) (digits : Nat) (exponent : Int) : Option Binary64 :=
  let places : Int := (Nat.toDigits 10 digits).length + exponent
  if digits = 0 || places < -330 then some (ofMagnitude negative 0)
  else if 310 < places then none
  else
    (if 0 ≤ exponent then nearest? (digits * Nat.pow 10 exponent.natAbs) 1
      else nearest? digits (Nat.pow 10 exponent.natAbs)).map (ofMagnitude negative)

end Binary64

end ProofKernel
