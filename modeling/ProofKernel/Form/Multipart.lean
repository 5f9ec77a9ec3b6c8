import ProofKernel.Form.UrlEncoded
import ProofKernel.Form.Header
import ProofKernel.Form.MediaType
import ProofKernel.Form.QuotedPrintable

/-!
# Forms in several parts

A message whose parts are divided by lines that start with two dashes and a *boundary*.  Each part
has a header of its own, which names the field, and then the value.  The line with two dashes more
is the last; what stands before the first and behind the last is passed over.

* `Form.ofMultipart` reads such a message.
* `Form.ofMessage` reads the form of a message, which says with its media type how the form in it is
  written.
* `Multipart.Body` is the value of a part while it is read from the stream of the message.

Lines end in a carriage return and a line feed.  When the first boundary ends in a line feed alone,
all boundaries do.
-/

set_option autoImplicit false
namespace ProofKernel
namespace Multipart

/-! ## Errors -/

/-- Why a message cannot be read. -/
inductive Fault where
  | emptyBoundary
  /-- The message ends where a boundary should stand. -/
  | noBoundary
  /-- The message ends inside a part. -/
  | cutOff
  /-- A line is too long, where a boundary should stand. -/
  | longBoundary
  /-- A line is too long, inside a part. -/
  | longLine
  /-- A line other than a boundary behind a part. -/
  | notBoundary (line : List UInt8)
  /-- A part does not end with its line. -/
  | unexpectedLine (line : List UInt8)
  /-- There are too many parts. -/
  | tooLarge
  | header (fault : Header.Fault)
  | encoding (fault : QuotedPrintable.Fault)

/-- The wording of a fault. -/
def Fault.message : Fault → String
  | emptyBoundary => "multipart: boundary is empty"
  | noBoundary => "multipart: NextPart: EOF"
  | cutOff => "unexpected EOF"
  | longBoundary => "multipart: NextPart: bufio: buffer full"
  | longLine => "bufio: buffer full"
  | notBoundary line =>
    "multipart: expecting a new Part; got line " ++ quoteText (Symbol.decode line)
  | unexpectedLine line =>
    "multipart: unexpected line in Next(): " ++ quoteText (Symbol.decode line)
  | tooLarge => "multipart: message too large"
  | header fault => fault.message
  | encoding fault => fault.message

/-! ## Boundaries -/

/-- How boundaries look: the bytes they start with, and the line break that ends them. -/
structure Boundary where
  dashes : List UInt8
  lineBreak : List UInt8

/-- A dash. -/
def dash : UInt8 :=
  0x2D

/-- What follows `start` in a line, without the blanks there. -/
def restAfter? (start line : List UInt8) : Option (List UInt8) :=
  if start.isPrefixOf line then some ((line.drop start.length).dropWhile Header.isGap) else none

/-- What the bytes behind the dashes of a boundary make of it. -/
inductive Match where
  | boundary
  | text
  /-- More bytes have to be seen. -/
  | open_
deriving DecidableEq

namespace Boundary

/-- The boundary with a name, which ends in a carriage return and a line feed. -/
def ofName (name : Text) : Boundary :=
  ⟨[dash, dash] ++ Symbol.encode name, [Stream.carriageReturn, Stream.lineFeed]⟩

/-- Whether a line is the last boundary.  The message may end without a line break. -/
def isLast (b : Boundary) (line : List UInt8) : Bool :=
  (restAfter? (b.dashes ++ [dash, dash]) line).any fun rest => rest.isEmpty || rest == b.lineBreak

/-- Whether a line is a boundary with another part behind it. -/
def isDivider (b : Boundary) (line : List UInt8) : Bool :=
  restAfter? b.dashes line == some b.lineBreak

/-- The boundary whose lines end in a line feed alone. -/
def short (b : Boundary) : Boundary :=
  { b with lineBreak := [Stream.lineFeed] }

/-- The bytes a boundary behind a line starts with. -/
def mark (b : Boundary) : List UInt8 :=
  b.lineBreak ++ b.dashes

end Boundary

/-- A boundary is followed by a blank, a line break, two dashes or nothing. -/
def matchAfter (rest : List UInt8) (isEnd : Bool) : Match :=
  match rest with
  | [] => if isEnd then .boundary else .open_
  | c :: more =>
    if Header.isGap c || c == Stream.carriageReturn || c == Stream.lineFeed then .boundary
    else if c == dash then
      match more with
      | [] => if isEnd then .text else .open_
      | d :: _ => if d == dash then .boundary else .text
    else .text

/-! ## Values of parts -/

/-- How the value of a part ends. -/
inductive Ending where
  | boundary
  /-- The message ends, and the value with it. -/
  | cutOff
  /-- More would have to be seen than fits the window. -/
  | full
deriving DecidableEq

/-- The first place at which bytes start with others. -/
def indexOf? (start : List UInt8) : List UInt8 → Option Nat
  | [] => if start.isEmpty then some 0 else none
  | b :: rest =>
    if start.isPrefixOf (b :: rest) then some 0 else (indexOf? start rest).map (· + 1)

/-- How many bytes of a window belong to the value that starts or goes on there, and how the value
ends if it ends behind them.  `failure` is why no more can be seen. -/
def scan (b : Boundary) (atStart : Bool) (failure : Option Ending) (window : List UInt8) :
    Nat × Option Ending :=
  let isEnd := failure.isSome
  let behind : Nat × Option Ending :=
    match indexOf? b.mark window with
    | some i =>
      match matchAfter (window.drop (i + b.mark.length)) isEnd with
      | .text => (i + b.mark.length, none)
      | .open_ => (i, none)
      | .boundary => (i, some .boundary)
    | none =>
      if window.isPrefixOf b.mark then (0, failure)
      else
        let tail := (window.reverse.takeWhile (some · != b.mark.head?)).length + 1
        let i := window.length - tail
        if tail ≤ window.length && (window.drop i).isPrefixOf b.mark then (i, none)
        else (window.length, failure)
  if !atStart then behind
  else if b.dashes.isPrefixOf window then
    match matchAfter (window.drop b.dashes.length) isEnd with
    | .text => (b.dashes.length, none)
    | .open_ => (0, none)
    | .boundary => (0, some .boundary)
  else if window.isPrefixOf b.dashes then (0, failure)
  else behind

/-- The value of a part while it is read. -/
structure Body where
  stream : Stream
  /-- How many bytes of the window are known to belong to the value. -/
  known : Nat
  /-- How the value ends behind them, if that is known. -/
  ending : Option Ending
  /-- Whether nothing was taken yet. -/
  atStart : Bool
  /-- Why no more can be fetched. -/
  failure : Option Ending

namespace Body

/-- The value at the head of a stream. -/
def ofStream (s : Stream) : Body :=
  ⟨s, 0, none, true, none⟩

/-- Fetches bytes.  When the window stays as it is, there is a reason. -/
def fetch (v : Body) : Body :=
  let s := v.stream.fill
  let failure := if v.stream.window.length < s.window.length then none
    else if s.window.length < Stream.capacity then some .cutOff
    else some .full
  { v with stream := s, failure := failure }

/-- Looks for bytes of the value, or its end, and fetches what is needed, `fuel` times at most. -/
def look (b : Boundary) : Nat → Body → Body
  | 0, v => v
  | fuel + 1, v =>
    if v.known = 0 && v.ending.isNone then
      let (known, ending) := scan b v.atStart v.failure v.stream.window
      let v := { v with known := known, ending := ending }
      if known = 0 && ending.isNone then look b fuel v.fetch else v
    else v

/-- Takes at most `size` bytes of the value.  The ending comes with the last of them. -/
def read (b : Boundary) (size : Nat) (v : Body) : List UInt8 × Option Ending × Body :=
  let v := look b 4 v
  let count := min size v.known
  let rest := { v with
    stream := v.stream.drop count
    known := v.known - count
    atStart := v.atStart && count == 0 }
  (v.stream.window.take count, if rest.known = 0 then v.ending else none, rest)

/-- Takes the whole value; the pieces so far are given last first. -/
def readAll (b : Boundary) : Nat → List (List UInt8) → Body → List UInt8 × Ending × Stream
  | 0, pieces, v => (pieces.reverse.flatten, .cutOff, v.stream)
  | fuel + 1, pieces, v =>
    match v.read b Stream.capacity with
    | (piece, some ending, v) => ((piece :: pieces).reverse.flatten, ending, v.stream)
    | (piece, none, v) => readAll b fuel (piece :: pieces) v

end Body

/-! ## Quoted-printable values

A value is decoded line by line, through a window of its own. -/

/-- The lines of a value while they are read. -/
structure Lines where
  window : List UInt8
  body : Body
  /-- How the value ends behind the window, if that is known. -/
  ending : Option Ending

/-- Takes the next line, and how the value ends behind it if it does. -/
def Lines.next (b : Boundary) : Nat → Lines → List UInt8 × Option Ending × Lines
  | 0, l => (l.window, some .full, { l with window := [] })
  | fuel + 1, l =>
    match Stream.lineLength? l.window with
    | some count => (l.window.take count, none, { l with window := l.window.drop count })
    | none =>
      if l.ending.isSome then (l.window, l.ending, { l with window := [] })
      else if Stream.capacity ≤ l.window.length then (l.window, some .full, { l with window := [] })
      else
        let (piece, ending, body) := l.body.read b (Stream.capacity - l.window.length)
        Lines.next b fuel ⟨l.window ++ piece, body, ending⟩

/-- Decodes a value up to its end or the first fault; the lines so far are given last first. -/
def decodeLines (b : Boundary) :
    Nat → List (List UInt8) → Lines → Except Fault (List UInt8) × Stream
  | 0, _, l => (.error .cutOff, l.body.stream)
  | fuel + 1, decoded, l =>
    let (line, ending, l) := l.next b (l.body.stream.bytes.length + l.window.length + 1)
    match QuotedPrintable.decodeLine line (ending == some .boundary) with
    | .error fault => (.error (.encoding fault), l.body.stream)
    | .ok contents =>
      match ending with
      | none => decodeLines b fuel (contents :: decoded) l
      | some .boundary => (.ok (contents :: decoded).reverse.flatten, l.body.stream)
      | some .cutOff => (.error .cutOff, l.body.stream)
      | some .full => (.error .longLine, l.body.stream)

/-- Takes the value of a part as its header says.  Returns where the stream was left. -/
def contents (b : Boundary) (h : Header) (s : Stream) : Except Fault (List UInt8) × Stream :=
  let fuel := s.bytes.length + 1
  if MediaType.lower (h.value "content-transfer-encoding") == "quoted-printable" then
    decodeLines b fuel [] ⟨[], .ofStream s, none⟩
  else
    match (Body.ofStream s).readAll b fuel [] with
    | (bytes, .boundary, s) => (.ok bytes, s)
    | (_, .cutOff, s) => (.error .cutOff, s)
    | (_, .full, s) => (.error .longLine, s)

/-! ## Parts -/

/-- Passes over what stands before the first part.  Returns how the boundaries end, and what
follows; nothing when there is no part. -/
def skipPreamble (b : Boundary) : Nat → Stream → Except Fault (Option (Boundary × Stream))
  | 0, _ => .error .noBoundary
  | fuel + 1, s =>
    match s.readLine with
    | (.start _, _) => .error .longBoundary
    | (.last line, _) => if b.isLast line then .ok none else .error .noBoundary
    | (.line line, s) =>
      if b.isDivider line then .ok (some (b, s))
      else if b.short.isDivider line then .ok (some (b.short, s))
      else if b.isLast line then .ok none
      else skipPreamble b fuel s

/-- Reads the boundary behind a part; a number of line breaks may stand before it.  Returns what
follows; nothing when the boundary was the last. -/
def nextPart (b : Boundary) : Nat → Stream → Except Fault (Option Stream)
  | breaks, s =>
    match s.readLine with
    | (.start _, _) => .error .longBoundary
    | (.last line, _) => if b.isLast line then .ok none else .error .noBoundary
    | (.line line, s) =>
      if b.isDivider line then .ok (some s)
      else if b.isLast line then .ok none
      else
        match breaks with
        | 0 => .error (.notBoundary line)
        | breaks + 1 =>
          if line == b.lineBreak then nextPart b breaks s else .error (.unexpectedLine line)

/-- The field that a header names, and whether it is a file. -/
def fieldName? (h : Header) : Option (Text × Bool) := do
  let disposition ← MediaType.read (h.value "content-disposition")
  guard (disposition.name == "form-data")
  let name ← disposition.parameter? "name"
  guard !name.isEmpty
  return (name, !((disposition.parameter? "filename").getD []).isEmpty)

/-- The greatest number of parts. -/
def mostParts : Nat :=
  1000

/-- Reads parts, at most a number of them.  Parts without a name and files are passed over, and a
part without a name may be malformed.  A message that ends inside a header has no part there. -/
def readParts (b : Boundary) : Nat → Stream → Except Fault Form
  | count, s =>
    match Header.read s with
    | .error .ended => .ok []
    | .error fault => .error (.header fault)
    | .ok (header, s) =>
      match count with
      | 0 => .error .tooLarge
      | count + 1 => do
        let (value, s) := contents b header s
        let fields : Form ← match fieldName? header with
          | none => pure []
          | some (name, isFile) =>
            let value ← value
            pure (if isFile then [] else [(name, Symbol.decode value)])
        match ← nextPart b 1 s with
        | none => return fields
        | some s => return fields ++ (← readParts b count s)

end Multipart

/-- The fields of a message whose parts are divided by a boundary. -/
def Form.ofMultipart (boundary message : Text) : Except Multipart.Fault Form := do
  if boundary.isEmpty then throw .emptyBoundary
  let s := Stream.ofBytes (Symbol.encode message)
  match ← Multipart.skipPreamble (.ofName boundary) (s.later.length + 1) s with
  | none => return []
  | some (b, s) => Multipart.readParts b Multipart.mostParts s

/-! ## Forms in messages -/

namespace Form

/-- Why a message has no form that can be read. -/
inductive Fault where
  | noBoundary
  | parts (fault : Multipart.Fault)

/-- The wording of a fault. -/
def Fault.message : Fault → Text
  | noBoundary => Text.ofString "no multipart boundary param in Content-Type"
  | parts fault => Text.ofString fault.message

/-- The form in a message.  A message of another media type has no fields. -/
def ofMessage (type message : Text) : Except Fault Form :=
  match MediaType.read type with
  | none => .ok []
  | some m =>
    if m.name == "application/x-www-form-urlencoded" then .ok (ofUrlEncoded message)
    else if m.name == "multipart/form-data" && m.parameters.isSome then
      match m.parameter? "boundary" with
      | none => .error .noBoundary
      | some boundary => (ofMultipart boundary message).mapError Fault.parts
    else .ok []

end Form
end ProofKernel
