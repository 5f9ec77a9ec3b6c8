/-!
# Bytes as letters

Three bytes are written as four of sixty-four characters.  At the end of a text one or two bytes may
be left, which are filled up with signs of their own.

* `Base64.encode` writes bytes, `Base64.decode?` reads them back.  Line breaks are passed over.
-/

set_option autoImplicit false
namespace ProofKernel
namespace Base64

/-- The character of a number below sixty-four. -/
def digit (n : Nat) : Char :=
  if n < 26 then Char.ofNat ('A'.toNat + n)
  else if n < 52 then Char.ofNat ('a'.toNat + (n - 26))
  else if n < 62 then Char.ofNat ('0'.toNat + (n - 52))
  else if n = 62 then '+'
  else '/'

/-- The number of a character. -/
def digit? (c : Char) : Option Nat :=
  if c.isUpper then some (c.toNat - 'A'.toNat)
  else if c.isLower then some (c.toNat - 'a'.toNat + 26)
  else if c.isDigit then some (c.toNat - '0'.toNat + 52)
  else if c == '+' then some 62
  else if c == '/' then some 63
  else none

/-- The sign that fills up the end. -/
def filler : Char := '='

/-- Bytes as characters. -/
def encode : List UInt8 → List Char
  | a :: b :: c :: rest =>
    let n := (a.toNat * 256 + b.toNat) * 256 + c.toNat
    digit (n / 262144) :: digit (n / 4096 % 64) :: digit (n / 64 % 64) :: digit (n % 64) ::
      encode rest
  | [a, b] =>
    let n := (a.toNat * 256 + b.toNat) * 256
    [digit (n / 262144), digit (n / 4096 % 64), digit (n / 64 % 64), filler]
  | [a] =>
    let n := a.toNat * 65536
    [digit (n / 262144), digit (n / 4096 % 64), filler, filler]
  | [] => []

/-- The bytes of characters without line breaks. -/
def decodePacked? : List Char → Option (List UInt8)
  | [] => some []
  | a :: b :: c :: d :: rest => do
    let n := (← digit? a) * 64 + (← digit? b)
    if c == filler then
      guard (d == filler && rest.isEmpty)
      return [UInt8.ofNat (n / 16)]
    else
      let n := n * 64 + (← digit? c)
      if d == filler then
        guard rest.isEmpty
        return [UInt8.ofNat (n / 1024), UInt8.ofNat (n / 4)]
      else
        let n := n * 64 + (← digit? d)
        return UInt8.ofNat (n / 65536) :: UInt8.ofNat (n / 256) :: UInt8.ofNat n ::
          (← decodePacked? rest)
  | _ => none

/-- The bytes that characters stand for. -/
def decode? (chars : List Char) : Option (List UInt8) :=
  decodePacked? (chars.filter fun c => c != '\n' && c != '\r')

end Base64
end ProofKernel
