import ProofKernel.Text.Percent
import ProofKernel.Text.Quoted

/-!
# Quoted-printable text

Text in which a byte may be written as an equals sign with two hexadecimal digits.  An equals sign
at the end of a line joins it with the next, and blanks at the end of a line do not count.

* `QuotedPrintable.decodeLine` reads a line.
-/

set_option autoImplicit false
namespace ProofKernel
namespace QuotedPrintable

/-- Why a line cannot be read. -/
inductive Fault where
  /-- Something stands between an equals sign and the end of its line. -/
  | afterEquals (bytes : List UInt8)
  /-- An equals sign at the end of what an equals sign joins with the next line. -/
  | cutOff
  | badDigit (byte : UInt8)
  | badByte (byte : UInt8)

/-- The wording of a fault. -/
def Fault.message : Fault → String
  | afterEquals bytes =>
    "quotedprintable: invalid bytes after =: " ++ quoteText (Symbol.decode bytes)
  | cutOff => "unexpected EOF"
  | badDigit byte =>
    "quotedprintable: invalid hex byte 0x" ++ String.ofList (Quoted.hex 2 byte.toNat)
  | badByte byte =>
    "quotedprintable: invalid unescaped byte 0x" ++ String.ofList (Quoted.hex 2 byte.toNat) ++
      " in body"

/-- The equals sign. -/
def sign : UInt8 :=
  0x3D

/-- A blank or a tabulator. -/
def isBlankByte (b : UInt8) : Bool :=
  b == 0x20 || b == 0x09

/-- Blanks and the parts of line breaks. -/
def isGap (b : UInt8) : Bool :=
  isBlankByte b || b == 0x0D || b == 0x0A

/-- Whether a byte stands for itself: printable ASCII, blanks, line breaks and all beyond ASCII. -/
def isPlain (b : UInt8) : Bool :=
  (0x20 ≤ b && b ≤ 0x7E) || isGap b || 0x80 ≤ b

/-- Reads the contents of a line.  An equals sign without digits stands for itself, unless it is the
last byte or a line break follows. -/
def decodeContents : List UInt8 → Except Fault (List UInt8)
  | [] => .ok []
  | b :: rest =>
    if b != sign then
      if isPlain b then (decodeContents rest).map (b :: ·) else .error (.badByte b)
    else
      match rest with
      | [] => .error .cutOff
      | [c] =>
        if c == 0x0D || c == 0x0A then .error .cutOff else (decodeContents [c]).map (b :: ·)
      | c :: d :: more =>
        match Percent.digit? c, Percent.digit? d with
        | some high, some low => (decodeContents more).map (UInt8.ofNat (high * 16 + low) :: ·)
        | _, _ =>
          if c == 0x0D || c == 0x0A then .error (.badDigit c)
          else (decodeContents (c :: d :: more)).map (b :: ·)
termination_by bytes => bytes.length

/-- Reads a line with its line break.  At the end of the text an equals sign behind something joins
it with nothing. -/
def decodeLine (line : List UInt8) (isLast : Bool) : Except Fault (List UInt8) := do
  let bare := (line.reverse.dropWhile isGap).reverse
  let ending := line.drop bare.length
  if bare.getLast? == some sign then
    let contents ← decodeContents bare.dropLast
    let ending := ending.dropWhile isBlankByte
    if [0x0A].isPrefixOf ending || [0x0D, 0x0A].isPrefixOf ending ||
        (ending.isEmpty && 1 < bare.length && isLast) then
      return contents
    else throw (.afterEquals ending)
  else
    let break_ : List UInt8 := if ending.getLast? != some 0x0A then []
      else if ending.dropLast.getLast? == some 0x0D then [0x0D, 0x0A] else [0x0A]
    decodeContents (bare ++ break_)

end QuotedPrintable
end ProofKernel
