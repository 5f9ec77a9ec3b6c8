import ProofKernel.Term

/-!
# Arithmetic on whole numbers

The operations of the prelude on literals of 64 bits.  Words wrap around, so that the wrapped result
of an operation is tested before it counts.  Division truncates toward zero and the remainder has
the sign of the dividend.

* `add?`, `sub?` and `mul?` give the result of an operation that does not overflow, `div?` and
  `mod?` that of a division that can be made.
* `evaluate?` is the operation of a name.
-/

set_option autoImplicit false
namespace ProofKernel
namespace Arithmetic

/-- The names of the operations, in the order in which the prelude declares them. -/
def operations : List String :=
  ["add", "sub", "mul", "div", "mod"]

/-- The sum of two words.  It has overflowed if both have a sign that the wrapped sum has not. -/
def add? (x y : Int64) : Option Int64 :=
  let r := x + y
  if (0 < x && 0 < y && r < 0) || (x < 0 && y < 0 && 0 ≤ r) then none else some r

/-- The difference of two words.  It has overflowed if they have different signs and the wrapped
difference has that of the second. -/
def sub? (x y : Int64) : Option Int64 :=
  let r := x - y
  if (0 ≤ x && y < 0 && r < 0) || (x < 0 && 0 < y && 0 ≤ r) then none else some r

/-- The product of two words.  It has overflowed if it cannot be undone by a division; dividing the
least word by `-1` wraps around as well. -/
def mul? (x y : Int64) : Option Int64 :=
  if x == 0 || y == 0 then some 0
  else
    let r := x * y
    if r / y == x && !(x == -1 && y == .minValue) && !(y == -1 && x == .minValue) then some r
    else none

/-- Whether a word can be divided by another one. -/
def divides (x y : Int64) : Bool :=
  y != 0 && !(x == Int64.minValue && y == -1)

/-- The quotient of two words. -/
def div? (x y : Int64) : Option Int64 :=
  if divides x y then some (x / y) else none

/-- The remainder of two words. -/
def mod? (x y : Int64) : Option Int64 :=
  if divides x y then some (x % y) else none

/-- The result of an operation on two words, if the name is one and the result is defined. -/
def evaluate? (operation : String) (x y : Int64) : Option Int64 :=
  match operation with
  | "add" => add? x y
  | "sub" => sub? x y
  | "mul" => mul? x y
  | "div" => div? x y
  | "mod" => mod? x y
  | _ => none

end Arithmetic
end ProofKernel
