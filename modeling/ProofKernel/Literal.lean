import ProofKernel.Decimal.Shortest
import ProofKernel.Text.Quoted

/-!
# Literals

Whole numbers of 64 bits, binary floating-point numbers and texts.

* `Literal.typeName` is the global that classifies a literal.
* `Literal.same` is equality of literals, numeric on floats.
* `Literal.render` writes a literal so that it can be read back.
-/

set_option autoImplicit false
namespace ProofKernel

/-- A literal. -/
inductive Literal where
  | int (value : Int64)
  | float (value : Binary64)
  | text (value : String)
deriving DecidableEq, Repr, Inhabited

/-- How a float is written. -/
structure FloatFormat where
  /-- The least exponent of a number written positionally. -/
  least : Int
  /-- The greatest exponent of a number written positionally. -/
  greatest : Int
  /-- The least number of digits of a written exponent. -/
  exponentWidth : Nat
  /-- What follows a number written without a point. -/
  whole : String
  notANumber : String
  infinity : String
  minusInfinity : String

namespace FloatFormat

/-- Digits as characters. -/
def digitChars (digits : List Nat) : List Char :=
  digits.map fun d => Char.ofNat (48 + d)

/-- A decimal without an exponent. -/
def positional (f : FloatFormat) (d : Decimal.Digits) : String :=
  let digits := digitChars d.digits
  let before : List Char :=
    if 0 < d.point then
      digits.take d.point.toNat ++ List.replicate (d.point.toNat - digits.length) '0'
    else ['0']
  let after : List Char := List.replicate (-d.point).toNat '0' ++ digits.drop d.point.toNat
  String.ofList before ++
    if d.digits.length ≤ d.point then f.whole else String.ofList ('.' :: after)

/-- A decimal with one digit before the point and an exponent. -/
def scientific (f : FloatFormat) (d : Decimal.Digits) : String :=
  let exponent := d.point - 1
  let digits := Nat.toDigits 10 exponent.natAbs
  let mark := if exponent < 0 then '-' else '+'
  let tail := 'e' :: mark :: List.replicate (f.exponentWidth - digits.length) '0' ++ digits
  match digitChars d.digits with
  | [] => String.ofList tail
  | [c] => String.ofList (c :: tail)
  | c :: rest => String.ofList (c :: '.' :: rest ++ tail)

/-- A number as it is written. -/
def render (f : FloatFormat) (x : Binary64) : String :=
  match x.parts? with
  | none =>
    if x.isNaN then f.notANumber else if x.isNegative then f.minusInfinity else f.infinity
  | some (m, q) =>
    let d := Decimal.shortest m q
    let mark := if x.isNegative then "-" else ""
    mark ++
      if f.least ≤ d.point - 1 && d.point - 1 ≤ f.greatest then f.positional d
      else f.scientific d

end FloatFormat

namespace Literal

/-- Floats are written positionally from `0.0001` up to six digits before the point, else with an
exponent of two digits or more; a whole number keeps one place. -/
def floatFormat : FloatFormat :=
  { least := -4, greatest := 5, exponentWidth := 2, whole := ".0"
    notANumber := "NaN", infinity := "+Inf", minusInfinity := "-Inf" }

/-- The global that is the type of a literal. -/
def typeName : Literal → String
  | int _ => "Int"
  | float _ => "Float"
  | text _ => "Text"

/-- Equality of literals. -/
def same : Literal → Literal → Bool
  | int a, int b => a == b
  | float a, float b => a.same b
  | text a, text b => a == b
  | _, _ => false

/-- A literal as it is written. -/
def render : Literal → String
  | int value => toString value.toInt
  | float value => floatFormat.render value
  | text value => quote value

end Literal

end ProofKernel
