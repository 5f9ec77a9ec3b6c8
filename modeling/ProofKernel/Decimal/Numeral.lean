/-!
# Whole numbers as they are written

A numeral is a row of digits of a base.  A numeral with a mark says its base itself: `0b`, `0o` and
`0x` announce the bases 2, 8 and 16, a zero in front the base 8, and underscores may stand between
digits.

* `Numeral.natural` and `Numeral.integer` read a numeral into 64 bits, and say why they cannot.
-/

set_option autoImplicit false
namespace ProofKernel
namespace Numeral

/-- Why a numeral cannot be read. -/
inductive Fault where
  | malformed
  | outOfRange
deriving DecidableEq, Repr

/-- The wording of a fault. -/
def Fault.message : Fault → String
  | malformed => "invalid syntax"
  | outOfRange => "value out of range"

/-- How numerals are written. -/
inductive Style where
  /-- Digits of base ten and nothing else. -/
  | plain
  /-- A mark for the base, and underscores. -/
  | marked
deriving DecidableEq, Repr

/-- The value of a digit of any base. -/
def digit? (c : Char) : Option Nat :=
  if c.isDigit then some (c.toNat - '0'.toNat)
  else if c.isLower then some (c.toNat - 'a'.toNat + 10)
  else if c.isUpper then some (c.toNat - 'A'.toNat + 10)
  else none

/-- The greatest number that fits into 64 bits. -/
def greatest : Nat :=
  Nat.pow 2 64 - 1

/-- Reads digits after the number `n` that those before them stand for. -/
def accumulate (style : Style) (base n : Nat) : List Char → Except Fault Nat
  | [] => .ok n
  | c :: rest =>
    if style = .marked && c == '_' then accumulate style base n rest
    else
      match digit? c with
      | none => .error .malformed
      | some d =>
        if base ≤ d then .error .malformed
        else if greatest < n * base + d then .error .outOfRange
        else accumulate style base (n * base + d) rest

/-- The base a numeral announces, and its digits. -/
def announced : List Char → Nat × List Char
  | '0' :: mark :: d :: rest =>
    match mark.toLower with
    | 'b' => (2, d :: rest)
    | 'o' => (8, d :: rest)
    | 'x' => (16, d :: rest)
    | _ => (8, mark :: d :: rest)
  | '0' :: rest => (8, rest)
  | digits => (10, digits)

/-- Whether every underscore stands between two digits; the mark of the base counts as one.
`afterDigit` says whether the character before is a digit. -/
def separatesDigits (hexadecimal afterDigit : Bool) : List Char → Bool
  | [] => true
  | c :: rest =>
    let isDigit (c : Char) : Bool := c.isDigit || (hexadecimal && (digit? c).any (· < 16))
    if c == '_' then afterDigit && rest.head?.any isDigit && separatesDigits hexadecimal false rest
    else separatesDigits hexadecimal (isDigit c) rest

/-- Whether the underscores of a numeral stand where they may. -/
def underscoresFit : List Char → Bool
  | '0' :: mark :: rest =>
    match mark.toLower with
    | 'b' | 'o' => separatesDigits false true rest
    | 'x' => separatesDigits true true rest
    | _ => separatesDigits false true (mark :: rest)
  | digits => separatesDigits false false digits

/-- A number that fits into 64 bits. -/
def natural (style : Style) (digits : List Char) : Except Fault Nat := do
  if digits.isEmpty then throw .malformed
  match style with
  | .plain => accumulate .plain 10 0 digits
  | .marked =>
    let (base, rest) := announced digits
    let n ← accumulate .marked base 0 rest
    if digits.contains '_' && !underscoresFit digits then throw .malformed
    return n

/-- A number with or without a sign that fits into 64 bits with a sign. -/
def integer (style : Style) (text : List Char) : Except Fault Int := do
  let (negative, digits) := match text with
    | '-' :: rest => (true, rest)
    | '+' :: rest => (false, rest)
    | _ => (false, text)
  let n ← natural style digits
  if negative then
    if Nat.pow 2 63 < n then throw .outOfRange else return -(n : Int)
  else if Nat.pow 2 63 ≤ n then throw .outOfRange
  else return n

end Numeral
end ProofKernel
