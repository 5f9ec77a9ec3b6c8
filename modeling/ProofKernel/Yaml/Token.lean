import ProofKernel.Yaml.Source

/-!
# Tokens of YAML

The signs a document is made of.  Where a block starts and ends is not written but follows from the
columns; it is a token all the same.

* `Yaml.Token` is a sign, `Yaml.Placed` a sign with its place.
* `Yaml.takeDirective`, `Yaml.takeName` and `Yaml.takeTag` read the signs made of words.
-/

set_option autoImplicit false
namespace ProofKernel
namespace Yaml

/-- A sign of a document. -/
inductive Token where
  | streamStart
  | streamEnd
  /-- The version of the format. -/
  | version (major minor : Nat)
  /-- What a handle in tags stands for. -/
  | handle (name expansion : String)
  | documentStart
  | documentEnd
  | blockSequenceStart
  | blockMappingStart
  | blockEnd
  | flowSequenceStart
  | flowSequenceEnd
  | flowMappingStart
  | flowMappingEnd
  /-- The dash in front of an item. -/
  | item
  /-- The comma in brackets. -/
  | comma
  | key
  | value
  | alias (name : String)
  | anchor (name : String)
  | tag (handle suffix : String)
  /-- Text, `quoted` unless it is a bare word. -/
  | scalar (quoted : Bool) (text : String)
deriving DecidableEq, Inhabited

/-- A token with the place it starts at and the place behind it. -/
structure Placed where
  token : Token
  start : Mark
  finish : Mark
deriving Inhabited

/-! ## Directives -/

/-- Whether a character may stand in the name of an anchor, a handle or a directive. -/
def isNameChar (c : Char) : Bool :=
  c.isAlphanum || c == '_' || c == '-'

/-- One part of the number of a version: one digit or two. -/
def takeVersionPart (start : Mark) : Read Nat := do
  let digits ← takeRun Char.isDigit ((← ahead).take 2) []
  if startsWith Char.isDigit (← ahead) && digits.length == 2 then
    refuse start "found extremely long version number"
  else if digits.isEmpty then refuse start "did not find expected version number"
  else return digits.foldl (fun n c => n * 10 + (c.toNat - '0'.toNat)) 0

/-- The number of a version. -/
def takeVersion (start : Mark) : Read Token := do
  skipGap
  let major ← takeVersionPart start
  if !startsWith (· == '.') (← ahead) then
    refuse start "did not find expected digit or '.' character"
  else
    skip
    return .version major (← takeVersionPart start)

/-- A handle: a name between exclamation marks.  Without the second mark it is part of a tag, unless
a handle is `wanted`. -/
def takeHandle (wanted : Bool) (start : Mark) : Read (List Char) := do
  need 1
  if !startsWith (· == '!') (← ahead) then refuse start "did not find expected '!'"
  else
    skip
    let name ← takeAll isNameChar
    if startsWith (· == '!') (← ahead) then
      skip
      return '!' :: name ++ ['!']
    else if wanted && !name.isEmpty then refuse start "did not find expected '!'"
    else return '!' :: name

/-- Whether a character may stand in a tag. -/
def isTagChar (c : Char) : Bool :=
  isNameChar c ||
    [';', '/', '?', ':', '@', '&', '=', '+', '$', ',', '.', '!', '~', '*', '\'', '(', ')', '[', ']',
      '%'].contains c

/-- The value of a digit of base sixteen. -/
def hexDigit? (c : Char) : Option Nat :=
  if c.isDigit then some (c.toNat - '0'.toNat)
  else if 'a' ≤ c && c ≤ 'f' then some (c.toNat - 'a'.toNat + 10)
  else if 'A' ≤ c && c ≤ 'F' then some (c.toNat - 'A'.toNat + 10)
  else none

/-- A byte written with a percent sign. -/
def takeByte (start : Mark) : Read UInt8 := do
  need 3
  match ← ahead with
  | '%' :: a :: b :: _ =>
    match hexDigit? a, hexDigit? b with
    | some a, some b =>
      skipMany 3
      return UInt8.ofNat (a * 16 + b)
    | _, _ => refuse start "did not find URI escaped octet"
  | _ => refuse start "did not find URI escaped octet"

/-- The bytes of a character that follow its first one. -/
def takeTailBytes (start : Mark) : Nat → Read (List UInt8)
  | 0 => return []
  | n + 1 => do
    let byte ← takeByte start
    if byte &&& 0xC0 != 0x80 then refuse start "found an incorrect trailing UTF-8 octet"
    else return byte :: (← takeTailBytes start n)

/-- A character written as bytes with percent signs. -/
def takeEscaped (start : Mark) : Read (List UInt8) := do
  let first ← takeByte start
  let tail :=
    if first &&& 0x80 == 0x00 then some 0
    else if first &&& 0xE0 == 0xC0 then some 1
    else if first &&& 0xF0 == 0xE0 then some 2
    else if first &&& 0xF8 == 0xF0 then some 3
    else none
  match tail with
  | some n => return first :: (← takeTailBytes start n)
  | none => refuse start "found an incorrect leading UTF-8 octet"

/-- The characters of a tag. -/
def takeTagText (start : Mark) : Nat → List UInt8 → Read (List UInt8)
  | 0, taken => return taken
  | fuel + 1, taken => do
    need 1
    match ← ahead with
    | '%' :: _ => takeTagText start fuel (taken ++ (← takeEscaped start))
    | c :: _ =>
      if isTagChar c then
        skip
        takeTagText start fuel (taken ++ String.utf8EncodeChar c)
      else return taken
    | [] => return taken

/-- A tag without its handle.  `before` is what was read of it already; without that there must be
something. -/
def takeSuffix (start : Mark) (before : Option (List Char)) : Read String := do
  let size := (← get).size
  let bytes ← takeTagText start (size + 1) []
  if before.isNone && bytes.isEmpty then refuse start "did not find expected tag URI"
  else
    let shown := (String.fromUTF8? ⟨bytes.toArray⟩).getD "\uFFFD"
    return String.ofList (before.getD []) ++ shown

/-- What a handle stands for. -/
def takeHandleMeaning (start : Mark) : Read Token := do
  skipGap
  let name ← takeHandle true start
  need 1
  if !startsWith isGap (← ahead) then refuse start "did not find expected whitespace"
  else
    skipGap
    let expansion ← takeSuffix start none
    need 1
    if !endsWord (← ahead) then refuse start "did not find expected whitespace or line break"
    else return .handle (String.ofList name) expansion

/-- A directive, up to the end of its line. -/
def takeDirective : Read Token := do
  let start ← here
  skip
  let name ← takeAll isNameChar
  if name.isEmpty then refuse start "could not find expected directive name"
  else if !endsWord (← ahead) then refuse start "found unexpected non-alphabetical character"
  else
    let token ←
      if name == "YAML".toList then takeVersion start
      else if name == "TAG".toList then takeHandleMeaning start
      else refuse start "found unknown directive name"
    skipGap
    if startsWith (· == '#') (← ahead) then skipLine
    if !endsLine (← ahead) then refuse start "did not find expected comment or line break"
    else
      need 2
      let _ ← takeBreak
      return token

/-! ## Names and tags -/

/-- The name of an anchor or of a reference to one. -/
def takeName : Read String := do
  let start ← here
  skip
  let name ← takeAll isNameChar
  let text ← ahead
  if name.isEmpty || !(endsWord text ||
      startsWith (['?', ':', ',', ']', '\x7d', '%', '@', '\x60'].contains ·) text) then
    refuse start "did not find expected alphabetic or numeric character"
  else return String.ofList name

/-- A tag: whole in angle brackets, behind a handle, or behind an exclamation mark. -/
def takeTag : Read Token := do
  let start ← here
  need 2
  let (handle, suffix) ← match ← ahead with
    | _ :: '<' :: _ => do
      skipMany 2
      let suffix ← takeSuffix start none
      if !startsWith (· == '>') (← ahead) then refuse start "did not find the expected '>'"
      else
        skip
        pure ("", suffix)
    | _ => do
      let handle ← takeHandle false start
      if 1 < handle.length && handle.getLast? == some '!' then
        pure (String.ofList handle, ← takeSuffix start none)
      else
        let suffix ← takeSuffix start (some (handle.drop 1))
        pure (if suffix.isEmpty then ("", "!") else ("!", suffix))
  need 1
  if !endsWord (← ahead) then refuse start "did not find expected whitespace or line break"
  else return .tag handle suffix

end Yaml
end ProofKernel
