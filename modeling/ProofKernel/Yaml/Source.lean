/-!
# A stream of characters

A document is read from a stream of characters, from its start to as far as is needed.  What stands
behind the last character that is needed is not looked at, with one exception: characters are
taken in by pieces of a fixed size, and a piece with a character that may not stand in a document is
refused as a whole.

* `Yaml.Source` is what is left of a stream, and `Yaml.Read` a computation that takes from it.
* `Yaml.need` takes in as many characters as the next step has to see.
* `Yaml.skipComment` and `Yaml.skipComments` pass over comments.
-/

set_option autoImplicit false
namespace ProofKernel
namespace Yaml

/-! ## Places and faults -/

/-- A place in a stream, all three counted from zero. -/
structure Mark where
  index : Nat := 0
  line : Nat := 0
  column : Nat := 0
deriving DecidableEq, Inhabited

/-- Why a text is no document. -/
structure Fault where
  /-- The number of the line, where it is known. -/
  line : Option Nat
  reason : String
deriving DecidableEq

namespace Fault

/-- The wording of a fault. -/
def message (f : Fault) : String :=
  let place := match f.line with
    | some line => "line " ++ toString line ++ ": "
    | none => ""
  "yaml: " ++ place ++ f.reason

/-- A fault without a place. -/
def plain (reason : String) : Fault :=
  ⟨none, reason⟩

/-- The first of two lines that is not the first of the stream. -/
def later (context place : Mark) : Option Nat :=
  if context.line != 0 then some context.line
  else if place.line != 0 then some place.line
  else none

/-- A fault in the characters of something that starts at `context`, found at `place`. -/
def ofCharacters (context place : Mark) (reason : String) : Fault :=
  ⟨(later context place).map (· + 1), reason⟩

/-- A fault in the order of things, in one that starts at `context`, found at `place`.  Its line is
counted from zero. -/
def ofOrder (context place : Mark) (reason : String) : Fault :=
  ⟨later context place, reason⟩

end Fault

/-! ## Characters -/

/-- Whether a character is a blank or a tabulator. -/
def isGap (c : Char) : Bool :=
  c == ' ' || c == '\t'

/-- Whether a character breaks a line. -/
def isBreak (c : Char) : Bool :=
  c == '\n' || c == '\r' || c == '\u0085' || c == '\u2028' || c == '\u2029'

/-- Whether a line ends in front of a text. -/
def endsLine : List Char → Bool
  | [] => true
  | c :: _ => isBreak c

/-- Whether a word ends in front of a text. -/
def endsWord : List Char → Bool
  | [] => true
  | c :: _ => isGap c || isBreak c

/-- Whether a text starts with a character that satisfies a property. -/
def startsWith (p : Char → Bool) : List Char → Bool
  | [] => false
  | c :: _ => p c

/-- Whether a character may stand in a document. -/
def isAllowed (c : Char) : Bool :=
  let n := c.toNat
  n == 0x09 || n == 0x0A || n == 0x0D || (0x20 ≤ n && n ≤ 0x7E) || n == 0x85 ||
    (0xA0 ≤ n && n ≤ 0xD7FF) || (0xE000 ≤ n && n ≤ 0xFFFD) || 0x10000 ≤ n

/-- The mark of the byte order, which may stand in front of a document. -/
def orderMark : Char := '\uFEFF'

/-! ## The stream -/

/-- What is left of a stream. -/
structure Source where
  rest : List Char
  mark : Mark
  /-- How many line breaks have been passed since the last character that is no blank. -/
  breaks : Nat
  /-- How many of the next characters have been taken in.  The end counts as one of them. -/
  ready : Nat
  /-- The pieces not taken in: how many characters each has, and whether all of them may stand in a
  document. -/
  pieces : List (Nat × Bool)
  /-- Whether the text taken in last starts with the mark of the byte order. -/
  ordered : Bool
  /-- The number of characters of the whole stream, which bounds every loop over it. -/
  size : Nat

/-- A computation that takes characters from a stream. -/
abbrev Read : Type → Type := StateT Source (Except Fault)

/-- The number of bytes of a piece. -/
def pieceSize : Nat := 512

/-- Cuts a text into pieces.  The open piece has `count` characters in `size` bytes, which are
`allowed` or not. -/
def cutPieces (count size : Nat) (allowed : Bool) : List Char → List (Nat × Bool)
  | [] => if count = 0 then [] else [(count, allowed)]
  | c :: rest =>
    if pieceSize < size + c.utf8Size then
      (count, allowed) :: cutPieces 1 c.utf8Size (isAllowed c) rest
    else cutPieces (count + 1) (size + c.utf8Size) (allowed && isAllowed c) rest

/-- The stream of a text.  A mark of the byte order in front of it is no part of the document, and
no text at all is read as an empty line. -/
def Source.ofText (text : String) : Source :=
  let (chars, before) := match text.toList with
    | c :: rest => if c == orderMark then (rest, c.utf8Size) else (c :: rest, 0)
    | [] => (['\n'], 0)
  ⟨chars, {}, 0, 0, cutPieces 0 before true chars, false, chars.length⟩

/-- Takes in pieces until `count` characters are there, of which `ready` are there already. -/
def takeIn (count ready : Nat) : List (Nat × Bool) → Except Fault (Nat × List (Nat × Bool))
  | [] => .ok (ready + 1, [])
  | (size, allowed) :: more =>
    if !allowed then .error (.plain "control characters are not allowed")
    else if count ≤ ready + size then .ok (ready + size, more)
    else takeIn count (ready + size) more

/-- Makes the next `count` characters available. -/
def need (count : Nat) : Read Unit := do
  let s ← get
  if s.ready < count then
    let (ready, pieces) ← takeIn count s.ready s.pieces
    set { s with ready, pieces, ordered := startsWith (· == orderMark) s.rest }

/-- What stands ahead. -/
def ahead : Read (List Char) :=
  return (← get).rest

/-- Where the stream stands. -/
def here : Read Mark :=
  return (← get).mark

/-- Passes one character. -/
def skip : Read Unit :=
  modify fun s =>
    { s with
      rest := s.rest.drop 1
      mark := ⟨s.mark.index + 1, s.mark.line, s.mark.column + 1⟩
      breaks := if startsWith isGap s.rest then s.breaks else 0
      ready := s.ready - 1 }

/-- Passes a number of characters. -/
def skipMany : Nat → Read Unit
  | 0 => return
  | n + 1 => do
    skip
    skipMany n

/-- Passes a line break, and gives what it stands for: the breaks of text files are one and the
same, the two others stand for themselves. -/
def takeBreak : Read (List Char) := do
  let s ← get
  let passed (count : Nat) (shown : Char) : Read (List Char) := do
    set { s with
      rest := s.rest.drop count
      mark := ⟨s.mark.index + count, s.mark.line + 1, 0⟩
      breaks := s.breaks + 1
      ready := s.ready - count }
    return [shown]
  match s.rest with
  | '\r' :: '\n' :: _ => passed 2 '\n'
  | c :: _ =>
    if c == '\u2028' || c == '\u2029' then passed 1 c
    else if isBreak c then passed 1 '\n'
    else return []
  | [] => return []

/-- Refuses what starts at `context`. -/
def refuse {α : Type} (context : Mark) (reason : String) : Read α := do
  throw (.ofCharacters context (← here) reason)

/-- Takes the characters of `text`, which stands ahead, as long as they satisfy a property.  `taken`
are those before them, last first. -/
def takeRun (p : Char → Bool) : List Char → List Char → Read (List Char)
  | [], taken => do
    need 1
    return taken.reverse
  | c :: rest, taken => do
    need 1
    if p c then
      skip
      takeRun p rest (c :: taken)
    else return taken.reverse

/-- Takes characters as long as they satisfy a property. -/
def takeAll (p : Char → Bool) : Read (List Char) := do
  takeRun p (← ahead) []

/-- Passes the blanks ahead. -/
def skipGap : Read Unit := do
  let _ ← takeAll isGap

/-- Passes the rest of a line. -/
def skipLine : Read Unit := do
  let _ ← takeAll fun c => !isBreak c

/-! ## Comments -/

/-- The greatest distance at which a comment is looked for. -/
def commentReach : Nat := 512

/-- How far ahead the sign of a comment stands, with nothing but characters that satisfy a property
before it.  `distance` is that of the text. -/
def findComment (passed : Char → Bool) : Nat → Nat → List Char → Read (Option Nat)
  | 0, _, _ => return none
  | fuel + 1, distance, text => do
    need (distance + 1)
    match text with
    | c :: rest =>
      if passed c then findComment passed fuel (distance + 1) rest
      else return if c == '#' then some distance else none
    | [] => return none

/-- Passes a comment that ends the line, if there is one. -/
def skipComment : Read Unit := do
  let s ← get
  if s.breaks = 0 then
    if let some distance ← findComment isGap commentReach 0 s.rest then
      skipMany distance
      skipLine

/-- Passes the comment that starts here, and those that follow it with nothing but white space
between them, at most `fuel` in all. -/
def skipComments : Nat → Read Unit
  | 0 => return
  | fuel + 1 => do
    skipLine
    let text ← ahead
    let isSpace (c : Char) : Bool := isGap c || c == '\n' || c == '\r'
    match text with
    | [] => return
    | _ :: rest =>
      if let some distance ← findComment isSpace (commentReach - 1) 1 rest then
        passTo ((← here).index + distance) (distance + 1)
        skipComments fuel
where
  /-- Passes characters and line breaks up to a place. -/
  passTo (index : Nat) : Nat → Read Unit
    | 0 => return
    | fuel + 1 => do
      if (← here).index < index then
        need 2
        if endsLine (← ahead) then
          let _ ← takeBreak
        else skip
        passTo index fuel

end Yaml
end ProofKernel
