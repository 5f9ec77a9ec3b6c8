import ProofKernel.Text.Symbol

/-!
# Byte order marks

A script file may start with a byte order mark.  The mark of UTF-16 selects that encoding, and that
of UTF-8 says that the rest is to be taken as it is.  A file without a mark is UTF-8, and what is
not well formed in it reads as U+FFFD.

* `Text.ofFile` is the text of a file.
* `Text.mend` replaces stray bytes, each *maximal subpart* of a character by one U+FFFD.
* `ByteOrder.chars` reads the units of UTF-16.
-/

set_option autoImplicit false
namespace ProofKernel

/-! ## UTF-8 -/

/-- How many of the stray bytes after the stray byte `a` belong to the same broken character. -/
def brokenTail (a : UInt8) (rest : Text) : Nat :=
  let within (s : Option Symbol) (low high : UInt8) : Bool :=
    match s with
    | some (.stray b) => low ≤ b && b ≤ high
    | _ => false
  if 0xE0 ≤ a && a ≤ 0xEF then
    let low : UInt8 := if a == 0xE0 then 0xA0 else 0x80
    let high : UInt8 := if a == 0xED then 0x9F else 0xBF
    if within rest.head? low high then 1 else 0
  else if 0xF0 ≤ a && a ≤ 0xF4 then
    let low : UInt8 := if a == 0xF0 then 0x90 else 0x80
    let high : UInt8 := if a == 0xF4 then 0x8F else 0xBF
    if within rest.head? low high then
      if within rest[1]? 0x80 0xBF then 2 else 1
    else 0
  else 0

/-- A text without stray bytes: the bytes of one broken character together become U+FFFD. -/
def Text.mend : Text → Text
  | [] => []
  | .char c :: rest => .char c :: Text.mend rest
  | .stray a :: rest => .char '\uFFFD' :: Text.mend (rest.drop (brokenTail a rest))
termination_by text => text.length
decreasing_by all_goals simp; try omega

/-! ## UTF-16 -/

/-- Which byte of a unit comes first. -/
inductive ByteOrder where
  | littleEndian
  | bigEndian
deriving DecidableEq, Repr

namespace ByteOrder

/-- The units of UTF-16; a last byte without a partner is no unit. -/
def units (order : ByteOrder) : List UInt8 → List (Option Nat)
  | a :: b :: rest =>
    let unit := match order with
      | littleEndian => b.toNat * 256 + a.toNat
      | bigEndian => a.toNat * 256 + b.toNat
    some unit :: order.units rest
  | [_] => [none]
  | [] => []

/-- Whether a unit is the second half of a pair. -/
def isSecond (unit : Nat) : Bool :=
  0xDC00 ≤ unit && unit ≤ 0xDFFF

/-- Whether a unit is half of a pair. -/
def isHalf (unit : Nat) : Bool :=
  0xD800 ≤ unit && unit ≤ 0xDFFF

/-- The character of two halves.  Two second halves make none. -/
def join (first second : Nat) : Char :=
  if isSecond first then '\uFFFD'
  else Char.ofNat (0x10000 + (first - 0xD800) * 0x400 + (second - 0xDC00))

/-- The character of a unit that stands alone. -/
def lone (unit : Nat) : Char :=
  if isHalf unit then '\uFFFD' else Char.ofNat unit

/-- The characters of a sequence of units.  A half is joined with the second half after it, and
reads as U+FFFD where none follows. -/
def chars : List (Option Nat) → List Char
  | [] => []
  | none :: rest => '\uFFFD' :: chars rest
  | some unit :: some next :: rest =>
    if isHalf unit && isSecond next then join unit next :: chars rest
    else lone unit :: chars (some next :: rest)
  | some unit :: rest => lone unit :: chars rest

end ByteOrder

/-! ## Files -/

/-- The text of a file, without its byte order mark. -/
def Text.ofFile : List UInt8 → Text
  | 0xFF :: 0xFE :: rest => (ByteOrder.chars (ByteOrder.littleEndian.units rest)).map .char
  | 0xFE :: 0xFF :: rest => (ByteOrder.chars (ByteOrder.bigEndian.units rest)).map .char
  | 0xEF :: 0xBB :: 0xBF :: rest => Symbol.decode rest
  | bytes => (Symbol.decode bytes).mend

end ProofKernel
