import ProofKernel.Form.Stream
import ProofKernel.Text.Quoted

/-!
# Headers

The lines at the head of a message or of a part of it: fields of the form `Name: value`, up to an
empty line.  A line that starts with a blank continues the field before it.

* `Header.read` reads a header from a stream.
* `Header.value` is the value of a field.
-/

set_option autoImplicit false
namespace ProofKernel

/-- The fields of a header, with the names in lower case. -/
abbrev Header : Type := List (String × Text)

namespace Header

/-- Why a header cannot be read. -/
inductive Fault where
  /-- The stream ends inside the header. -/
  | ended
  /-- The first line starts with a blank. -/
  | initialLine (line : List UInt8)
  | missingColon (line : List UInt8)
  | badLine (line : List UInt8)
  /-- There are too many fields, or the first line starts with a blank and is too long to be
  shown. -/
  | tooLarge

/-- The wording of a fault. -/
def Fault.message : Fault → String
  | ended => "EOF"
  | initialLine line => "malformed MIME header initial line: " ++ quoteText (Symbol.decode line)
  | missingColon line => "malformed MIME header: missing colon: " ++ quoteText (Symbol.decode line)
  | badLine line => "malformed MIME header line: " ++ quoteText (Symbol.decode line)
  | tooLarge => "multipart: message too large"

/-! ## Lines -/

/-- A blank or a tabulator. -/
def isGap (b : UInt8) : Bool :=
  b == 0x20 || b == 0x09

/-- A line without the blanks at its two ends. -/
def trim (line : List UInt8) : List UInt8 :=
  ((line.dropWhile isGap).reverse.dropWhile isGap).reverse

/-- A line without its line break. -/
def bare (line : List UInt8) : List UInt8 :=
  match line.reverse with
  | a :: b :: rest =>
    if a != Stream.lineFeed then line
    else if b == Stream.carriageReturn then rest.reverse
    else (b :: rest).reverse
  | [a] => if a == Stream.lineFeed then [] else line
  | [] => []

/-- Takes a line of any length without its line break; `before` is its start.  There is none at the
end of the stream.  A carriage return at the end of the window may belong to the line break. -/
def readLine (before : List UInt8) : Nat → Stream → Option (List UInt8) × Stream
  | 0, s => (none, s)
  | fuel + 1, s =>
    match s.readLine with
    | (.line line, s) => (some (before ++ bare line), s)
    | (.last [], s) => (none, s)
    | (.last line, s) => (some (before ++ line), s)
    | (.start line, s) =>
      if line.getLast? == some Stream.carriageReturn then
        readLine (before ++ line.dropLast) fuel ⟨Stream.carriageReturn :: s.window, s.later⟩
      else readLine (before ++ line) fuel s

/-- Passes over blanks, and says whether there were any. -/
def skipGaps : Nat → Stream → Bool × Stream
  | 0, s => (false, s)
  | fuel + 1, s =>
    let s := s.primed
    if s.window.head?.any isGap then (true, (skipGaps fuel (s.drop 1)).2) else (false, s)

/-- Adds the lines that continue a line.  Each is joined with one blank. -/
def continued (line : List UInt8) : Nat → Stream → List UInt8 × Stream
  | 0, s => (line, s)
  | fuel + 1, s =>
    match skipGaps (s.bytes.length + 1) s with
    | (false, s) => (line, s)
    | (true, s) =>
      match readLine [] (s.bytes.length + 1) s with
      | (none, s) => (line ++ [0x20], s)
      | (some next, s) => continued (line ++ 0x20 :: trim next) fuel s

/-! ## Fields -/

/-- Characters of field names. -/
def isNameChar (c : Char) : Bool :=
  c.isAlphanum || "!#$%&'*+-.^_\x60|~".toList.contains c

/-- Whether a byte may stand in a value: all but the control characters. -/
def isValueByte (b : UInt8) : Bool :=
  b == 0x09 || (0x20 ≤ b && b != 0x7F)

/-- The colon. -/
def colon : UInt8 :=
  0x3A

/-- The field on a line.  A blank inside the name is let through. -/
def field? (line : List UInt8) : Option (String × Text) :=
  let name := Symbol.decode (line.takeWhile (· != colon))
  let value := (line.dropWhile (· != colon)).drop 1
  if !name.isEmpty && name.all (·.holds fun c => isNameChar c || c == ' ') &&
      value.all isValueByte then
    some (name.toString.map Char.toLower, Symbol.decode (value.dropWhile isGap))
  else none

/-- The greatest number of fields. -/
def mostFields : Nat :=
  10000

/-- Reads fields up to an empty line, fewer than a number of them. -/
def readFields : Nat → Stream → Except Fault (Header × Stream)
  | 0, _ => .error .tooLarge
  | count + 1, s =>
    match readLine [] (s.bytes.length + 1) s with
    | (none, _) => .error .ended
    | (some [], s) => .ok ([], s)
    | (some line, s) =>
      if !line.contains colon then .error (.missingColon line)
      else
        let (whole, s) := continued (trim line) (s.bytes.length + 1) s
        match field? whole with
        | none => .error (.badLine whole)
        | some field =>
          if count = 0 then .error .tooLarge
          else (readFields count s).map fun (fields, s) => (field :: fields, s)

/-- The longest first line that is shown, in bytes. -/
def longestShown : Nat :=
  80

/-- Reads a header. -/
def read (s : Stream) : Except Fault (Header × Stream) :=
  let s := s.primed
  if s.window.head?.any isGap then
    let line := (readLine [] (s.bytes.length + 1) s).1.getD []
    .error (if longestShown < line.length then .tooLarge else .initialLine line)
  else readFields (mostFields + 1) s

/-- The first value of a field, whose name is given in lower case. -/
def value (h : Header) (name : String) : Text :=
  (h.lookup name).getD []

end Header

end ProofKernel
