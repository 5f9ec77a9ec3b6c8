import ProofKernel.Text.Quoted

/-!
# Percent signs

Bytes written as a percent sign and two hexadecimal digits.

* `Percent.encode` writes every byte of a text so, and `Percent.decode` reads them back.
-/

set_option autoImplicit false
namespace ProofKernel
namespace Percent

/-- The value of a hexadecimal digit. -/
def digit? (b : UInt8) : Option Nat :=
  let c := Char.ofNat b.toNat
  if c.isDigit then some (c.toNat - '0'.toNat)
  else if 'a' ≤ c && c ≤ 'f' then some (c.toNat - 'a'.toNat + 10)
  else if 'A' ≤ c && c ≤ 'F' then some (c.toNat - 'A'.toNat + 10)
  else none

/-- The percent sign. -/
def sign : UInt8 :=
  0x25

/-- Reads every percent sign with the two digits after it as a byte.  There is no result when the
digits are missing. -/
def decodeBytes : List UInt8 → Option (List UInt8)
  | [] => some []
  | b :: rest =>
    if b != sign then (decodeBytes rest).map (b :: ·)
    else
      match rest with
      | high :: low :: rest => do
        let byte := (← digit? high) * 16 + (← digit? low)
        return UInt8.ofNat byte :: (← decodeBytes rest)
      | _ => none

/-- Reads a text with bytes behind percent signs. -/
def decode (text : Text) : Option Text :=
  (decodeBytes (Symbol.encode text)).map Symbol.decode

/-- A byte behind a percent sign. -/
def encodeByte (b : UInt8) : List Char :=
  '%' :: Quoted.hex 2 b.toNat

/-- A text with every byte behind a percent sign. -/
def encode (text : Text) : String :=
  String.ofList ((Symbol.encode text).flatMap encodeByte)

end Percent
end ProofKernel
