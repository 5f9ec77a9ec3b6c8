import ProofKernel.Decimal.Binary64

/-!
# Shortest decimals

The decimal with the fewest digits that is nearer to a given binary number than to every other one,
and of those the one nearest to the number.

* `Interval` is the set of reals that round to a number.
* `shortest` finds the digits: on each grid of `1, 2, … 17` significant digits it tries the number's
  two neighbours.
-/

set_option autoImplicit false
namespace ProofKernel
namespace Decimal

/-- The reals that round to a number, all three scaled to whole numbers over one denominator. -/
structure Interval where
  low : Nat
  value : Nat
  high : Nat
  den : Nat
  /-- Whether the two ends belong to the interval. -/
  closed : Bool

/-- The interval of the finite positive number `m · 2 ^ q`.  Below a power of two the neighbour is
half as far away. -/
def Interval.ofParts (m : Nat) (q : Int) : Interval :=
  let below := if m = Nat.pow 2 52 && Binary64.leastExponent < q then 1 else 2
  let factor := if 0 ≤ q then Nat.pow 2 q.natAbs else 1
  let den := if 0 ≤ q then 4 else 4 * Nat.pow 2 q.natAbs
  { low := (4 * m - below) * factor
    value := 4 * m * factor
    high := (4 * m + 2) * factor
    den := den
    closed := m % 2 = 0 }

/-- Whether the fraction `num / den` lies in the interval. -/
def Interval.holds (i : Interval) (num den : Nat) : Bool :=
  let x := num * i.den
  if i.closed then i.low * den ≤ x && x ≤ i.high * den
  else i.low * den < x && x < i.high * den

/-- A decimal: `0.d₁d₂… · 10 ^ point`. -/
structure Digits where
  digits : List Nat
  point : Int
deriving DecidableEq, Repr

/-- The digits of a natural number, greatest first. -/
def digitsOf (n : Nat) : List Nat :=
  (Nat.toDigits 10 n).map fun c => c.toNat - 48

/-- The number of decimal places before the point: `10 ^ (p - 1) ≤ value < 10 ^ p`. -/
def places (num den : Nat) : Int :=
  let guess : Int := ((Nat.toDigits 10 num).length : Int) - (Nat.toDigits 10 den).length
  let power := Nat.pow 10 guess.natAbs
  let reached := if 0 ≤ guess then den * power ≤ num else den ≤ num * power
  if reached then guess + 1 else guess

/-- The decimal with `count` significant digits that lies in the interval, if there is one; of two
the nearer, and of two that are equally near the even one. -/
def onGrid? (i : Interval) (point : Int) (count : Nat) : Option Digits :=
  let unit : Int := point - count
  let power := Nat.pow 10 unit.natAbs
  let (num, den) :=
    if 0 ≤ unit then (i.value, i.den * power) else (i.value * power, i.den)
  let low := num / den
  let rest := num % den
  let inside (n : Nat) : Bool :=
    if 0 ≤ unit then i.holds (n * power) 1 else i.holds n power
  let chosen? : Option Nat :=
    match inside low, inside (low + 1) with
    | true, true =>
      some (if 2 * rest < den || (2 * rest == den && low % 2 == 0) then low else low + 1)
    | true, false => some low
    | false, true => some (low + 1)
    | false, false => none
  chosen?.map fun n =>
    let digits := digitsOf n
    { digits := (digits.reverse.dropWhile (· == 0)).reverse
      point := unit + digits.length }

/-- The shortest decimal that rounds to `m · 2 ^ q`; zero has the digit zero. -/
def shortest (m : Nat) (q : Int) : Digits :=
  if m = 0 then ⟨[0], 1⟩
  else
    let i := Interval.ofParts m q
    let point := places i.value i.den
    ((List.range' 1 17).findSome? (onGrid? i point)).getD ⟨digitsOf m, 0⟩

end Decimal
end ProofKernel
