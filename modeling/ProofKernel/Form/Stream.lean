/-!
# Streams of bytes

A message is read from a stream through a window of a fixed size: bytes are fetched into the window
when it does not hold what is asked for, and then as many as it has room for.  How far a reader has
come matters only where something is given up half-way, and where a line does not fit the window.

* `Stream.readLine` takes the next line.
* `Stream.bytes` is all that is left; `bytes_fill` and `bytes_readLine` say that nothing gets lost.
-/

set_option autoImplicit false
namespace ProofKernel

/-- The bytes that were fetched and not taken, and those behind them. -/
structure Stream where
  window : List UInt8
  later : List UInt8
deriving DecidableEq

namespace Stream

/-- The size of the window. -/
def capacity : Nat :=
  4096

/-- A stream from which nothing was fetched. -/
def ofBytes (bytes : List UInt8) : Stream :=
  ⟨[], bytes⟩

/-- All bytes that are left. -/
def bytes (s : Stream) : List UInt8 :=
  s.window ++ s.later

/-- Fetches as many bytes as the window has room for. -/
def fill (s : Stream) : Stream :=
  let room := capacity - s.window.length
  ⟨s.window ++ s.later.take room, s.later.drop room⟩

/-- Fetches bytes when the window is empty. -/
def primed (s : Stream) : Stream :=
  if s.window.isEmpty then s.fill else s

/-- The stream behind the first bytes of the window. -/
def drop (s : Stream) (count : Nat) : Stream :=
  ⟨s.window.drop count, s.later⟩

/-- What a reader of lines finds. -/
inductive Piece where
  /-- A line with its line feed. -/
  | line (bytes : List UInt8)
  /-- The start of a line that does not fit the window. -/
  | start (bytes : List UInt8)
  /-- A last line without a line feed, which may be empty. -/
  | last (bytes : List UInt8)
deriving DecidableEq

/-- The bytes of a piece. -/
def Piece.bytes : Piece → List UInt8
  | line bytes | start bytes | last bytes => bytes

/-- The line feed. -/
def lineFeed : UInt8 :=
  0x0A

/-- The carriage return. -/
def carriageReturn : UInt8 :=
  0x0D

/-- The number of bytes of the first line, if it ends. -/
def lineLength? (bytes : List UInt8) : Option Nat :=
  (bytes.idxOf? lineFeed).map (· + 1)

/-- Fetches bytes when the window holds no whole line. -/
def lineFetched (s : Stream) : Stream :=
  if (lineLength? s.window).isSome then s else s.fill

/-- Takes the first line in the window, or all of it. -/
def takeLine (s : Stream) : Piece × Stream :=
  match lineLength? s.window with
  | some count => (.line (s.window.take count), s.drop count)
  | none =>
    (if s.window.length < capacity then .last s.window else .start s.window, ⟨[], s.later⟩)

/-- Takes the next line. -/
def readLine (s : Stream) : Piece × Stream :=
  s.lineFetched.takeLine

/-! ## Nothing gets lost -/

theorem bytes_fill (s : Stream) : s.fill.bytes = s.bytes := by
  simp [fill, bytes]

theorem bytes_lineFetched (s : Stream) : s.lineFetched.bytes = s.bytes := by
  unfold lineFetched
  split
  · rfl
  · exact bytes_fill s

theorem bytes_takeLine (s : Stream) : s.takeLine.1.bytes ++ s.takeLine.2.bytes = s.bytes := by
  unfold takeLine
  split
  · simp [Piece.bytes, bytes, drop, ← List.append_assoc]
  · split <;> simp [Piece.bytes, bytes]

theorem bytes_readLine (s : Stream) : s.readLine.1.bytes ++ s.readLine.2.bytes = s.bytes := by
  rw [readLine, bytes_takeLine, bytes_lineFetched]

end Stream

end ProofKernel
