/-!
# Text as symbols

Input arrives as bytes that need not be well formed UTF-8.  A text is therefore a list of *symbols*:
a character, or a byte that belongs to no character.  No information is lost, so that a piece of
input can be quoted back byte for byte.

* `Symbol.decode` reads bytes, `Symbol.encode` writes them back.
* `Text.toString?` is the text as a string, when it is one.
* `Symbol.shown` is the character a symbol is read as: a stray byte reads as U+FFFD.
-/

set_option autoImplicit false
namespace ProofKernel

/-- A character, or a byte that is part of no character. -/
inductive Symbol where
  | char (c : Char)
  | stray (byte : UInt8)
deriving DecidableEq, Repr, Inhabited

/-- Any sequence of bytes, read as UTF-8 as far as possible. -/
abbrev Text : Type := List Symbol

namespace Symbol

/-- The bytes of a symbol. -/
def bytes : Symbol → List UInt8
  | char c => String.utf8EncodeChar c
  | stray b => [b]

/-- The number of bytes of a symbol. -/
def width : Symbol → Nat
  | char c => c.utf8Size
  | stray _ => 1

/-- The character a symbol is read as. -/
def shown : Symbol → Char
  | char c => c
  | stray _ => '\uFFFD'

/-- The character of a symbol that is one. -/
def char? : Symbol → Option Char
  | char c => some c
  | stray _ => none

/-- Whether the symbol is this character.  A stray byte is no character. -/
def is (s : Symbol) (c : Char) : Bool :=
  match s with
  | char d => d == c
  | stray _ => false

/-- Whether a character symbol satisfies a property of characters. -/
def holds (p : Char → Bool) : Symbol → Bool
  | char c => p c
  | stray _ => false

/-- A byte that continues a character. -/
def isTail (b : UInt8) : Bool :=
  0x80 ≤ b && b ≤ 0xBF

/-- The six low bits of a continuation byte. -/
def tailBits (b : UInt8) : Nat :=
  b.toNat % 64

/-- The character at the head of a sequence of bytes, with what follows it.  Overlong forms,
surrogates and values past U+10FFFF are refused. -/
def decodeChar? : List UInt8 → Option (Char × List UInt8)
  | [] => none
  | a :: rest =>
    if a < 0x80 then some (Char.ofNat a.toNat, rest)
    else if 0xC2 ≤ a && a ≤ 0xDF then
      match rest with
      | b :: rest =>
        if isTail b then some (Char.ofNat (a.toNat % 32 * 64 + tailBits b), rest) else none
      | _ => none
    else if 0xE0 ≤ a && a ≤ 0xEF then
      match rest with
      | b :: c :: rest =>
        let low : UInt8 := if a == 0xE0 then 0xA0 else 0x80
        let high : UInt8 := if a == 0xED then 0x9F else 0xBF
        if low ≤ b && b ≤ high && isTail c then
          some (Char.ofNat ((a.toNat % 16 * 64 + tailBits b) * 64 + tailBits c), rest)
        else none
      | _ => none
    else if 0xF0 ≤ a && a ≤ 0xF4 then
      match rest with
      | b :: c :: d :: rest =>
        let low : UInt8 := if a == 0xF0 then 0x90 else 0x80
        let high : UInt8 := if a == 0xF4 then 0x8F else 0xBF
        if low ≤ b && b ≤ high && isTail c && isTail d then
          let upper := (a.toNat % 8 * 64 + tailBits b) * 64 + tailBits c
          some (Char.ofNat (upper * 64 + tailBits d), rest)
        else none
      | _ => none
    else none

theorem decodeChar?_length {bytes rest : List UInt8} {c : Char}
    (h : decodeChar? bytes = some (c, rest)) : rest.length < bytes.length := by
  unfold decodeChar? at h
  grind

/-- Reads bytes as symbols: a character where one can be read, else one stray byte. -/
def decode (bytes : List UInt8) : Text :=
  match bytes with
  | [] => []
  | b :: tail =>
    match _h : decodeChar? (b :: tail) with
    | some (c, rest) => char c :: decode rest
    | none => stray b :: decode tail
termination_by bytes.length
decreasing_by
  · exact decodeChar?_length _h
  · simp

/-- The bytes of a text. -/
def encode (text : Text) : List UInt8 :=
  text.flatMap bytes

end Symbol

namespace Text

/-- A string as a text. -/
def ofString (s : String) : Text :=
  s.toList.map Symbol.char

/-- A string that is given by its characters is the text of them. -/
theorem ofString_ofList (cs : List Char) : ofString (String.ofList cs) = cs.map Symbol.char := by
  rw [ofString, String.toList_ofList]

theorem ofString_append (s t : String) : ofString (s ++ t) = ofString s ++ ofString t := by
  rw [ofString, String.toList_append, List.map_append]
  rfl

/-- The text as a string, each stray byte read as U+FFFD. -/
def toString (text : Text) : String :=
  String.ofList (text.map Symbol.shown)

/-- The text as a string, unless it has a stray byte. -/
def toString? (text : Text) : Option String :=
  (text.mapM Symbol.char?).map String.ofList

/-- The number of bytes of a text. -/
def width (text : Text) : Nat :=
  text.foldl (fun n s => n + s.width) 0

/-- Whether a text is `start` followed by something. -/
def startsWith (text : Text) (start : String) : Bool :=
  (ofString start).isPrefixOf text

end Text

end ProofKernel
