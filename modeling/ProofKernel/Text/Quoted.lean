import ProofKernel.Text.Printable
import ProofKernel.Text.Symbol

/-!
# Quoted text

Text between quotes, with a backslash before what cannot stand there by itself: the quote and the
backslash, the control characters with a letter of their own, and every other character that does
not show itself, which is written by its code.

* `quote` writes a string between double quotes, and `quoteText` a text.
* `quoteRaw` writes a string between backquotes where that is possible.
* `quoteChar` writes one character between single quotes.
-/

set_option autoImplicit false
namespace ProofKernel
namespace Quoted

/-- A number in lower-case hexadecimal, filled with zeros up to a width. -/
def hex (width n : Nat) : List Char :=
  let digits := Nat.toDigits 16 n
  List.replicate (width - digits.length) '0' ++ digits

/-- The letter that stands for a control character after a backslash. -/
def letter? (c : Char) : Option Char :=
  match c.toNat with
  | 0x07 => some 'a'
  | 0x08 => some 'b'
  | 0x0C => some 'f'
  | 0x0A => some 'n'
  | 0x0D => some 'r'
  | 0x09 => some 't'
  | 0x0B => some 'v'
  | _ => none

/-- A character as it stands between two quotes of the given kind. -/
def escape (mark c : Char) : List Char :=
  if c == mark || c == '\\' then ['\\', c]
  else if isPrintable c then [c]
  else
    match letter? c with
    | some l => ['\\', l]
    | none =>
      if c.toNat < 0x20 || c.toNat == 0x7F then '\\' :: 'x' :: hex 2 c.toNat
      else if c.toNat < 0x10000 then '\\' :: 'u' :: hex 4 c.toNat
      else '\\' :: 'U' :: hex 8 c.toNat

end Quoted

open Quoted in
/-- A string between double quotes. -/
def quote (s : String) : String :=
  String.ofList ('"' :: s.toList.flatMap (escape '"') ++ ['"'])

open Quoted in
/-- A text between double quotes.  A stray byte is written by its value. -/
def quoteText (text : Text) : String :=
  let shown : Symbol → List Char := fun
    | .char c => escape '"' c
    | .stray b => '\\' :: 'x' :: hex 2 b.toNat
  String.ofList ('"' :: text.flatMap shown ++ ['"'])

/-- Whether a text can stand between backquotes, where nothing has another form. -/
def canStandRaw (s : String) : Bool :=
  s.toList.all fun c => c == '\t' ||
    (0x20 ≤ c.toNat && c != '\x60' && c.toNat != 0x7F && c.toNat != 0xFEFF)

/-- A string between backquotes, or between double quotes where that cannot be. -/
def quoteRaw (s : String) : String :=
  if canStandRaw s then "\x60" ++ s ++ "\x60" else quote s

open Quoted in
/-- A character between single quotes. -/
def quoteChar (c : Char) : String :=
  String.ofList ('\'' :: escape '\'' c ++ ['\''])

end ProofKernel
