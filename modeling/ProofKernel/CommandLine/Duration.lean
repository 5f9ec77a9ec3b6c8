import ProofKernel.Decimal.Binary64
import ProofKernel.Text.Quoted

/-!
# Durations

A duration is a row of decimal numbers, each with a unit, as in `1h30m` or `-1.5s`, and counted in
nanoseconds.

* `Duration.read` reads one.  Its size is bounded: nanoseconds are signed words of 64 bits.
* `Duration.Flaw` says what is wrong with a text that is none.
-/

set_option autoImplicit false
namespace ProofKernel
namespace Duration

/-- Why a text is no duration. -/
inductive Flaw where
  | invalid
  | missingUnit
  | unknownUnit (name : String)
deriving DecidableEq

/-- A text between quotes.  What is not ASCII, and what controls the display, is written byte by
byte. -/
def quoted (text : String) : String :=
  let shown (c : Char) : List Char :=
    if c = '"' || c = '\\' then ['\\', c]
    else if 0x20 ≤ c.toNat && c.toNat < 0x80 then [c]
    else (String.utf8EncodeChar c).flatMap fun b => '\\' :: 'x' :: Quoted.hex 2 b.toNat
  String.ofList ('"' :: text.toList.flatMap shown ++ ['"'])

/-- The wording of a flaw in a text. -/
def Flaw.message (text : String) : Flaw → String
  | invalid => "time: invalid duration " ++ quoted text
  | missingUnit => "time: missing unit in duration " ++ quoted text
  | unknownUnit name => "time: unknown unit " ++ quoted name ++ " in duration " ++ quoted text

/-- The units, in nanoseconds. -/
def units : List (String × Nat) :=
  [("ns", 1), ("us", 1000), ("µs", 1000), ("μs", 1000), ("ms", 1000000), ("s", 1000000000),
    ("m", 60000000000), ("h", 3600000000000)]

/-- The size of the longest duration, which only a negative one can have. -/
def limit : Nat :=
  Nat.pow 2 63

/-- The value of a digit. -/
def digit (c : Char) : Nat :=
  c.toNat - '0'.toNat

/-- The number that digits stand for. -/
def number (digits : List Char) : Nat :=
  digits.foldl (fun n c => n * 10 + digit c) 0

/-- The longest run of first digits whose number is within the limit. -/
def counted (digits : List Char) : List Char :=
  ((List.range (digits.length + 1)).map digits.take).foldl
    (fun best run => if number run ≤ limit then run else best) []

/-- The fraction that is a number of the format binary64 and nearest to another fraction. -/
def rounded (num den : Nat) : Nat × Nat :=
  if num = 0 then (0, 1)
  else
    match Binary64.nearest? num den with
    | none => (num, den)
    | some magnitude =>
      let (m, q) := Binary64.split magnitude
      if q < 0 then (m, Nat.pow 2 q.natAbs) else (m * Nat.pow 2 q.natAbs, 1)

/-- The nanoseconds of the digits behind the point: their number times the value of the last place,
both rounded before and after the product. -/
def fraction (digits : List Char) (unit : Nat) : Nat :=
  let run := counted digits
  let (a, b) := rounded (number run) 1
  let (c, d) := rounded unit (Nat.pow 10 run.length)
  let (num, den) := rounded (a * c) (b * d)
  num / den

/-- Whether a character belongs to a number and not to a unit. -/
def isNumeric (c : Char) : Bool :=
  c.isDigit || c = '.'

/-- The nanoseconds of a number with its unit. -/
def part (text : List Char) : Except Flaw Nat := do
  let before := text.takeWhile Char.isDigit
  let (after, tail) := match text.dropWhile Char.isDigit with
    | '.' :: more => (more.takeWhile Char.isDigit, more.dropWhile Char.isDigit)
    | more => ([], more)
  if before.isEmpty && after.isEmpty || limit < number before then throw .invalid
  let name := String.ofList (tail.takeWhile fun c => !isNumeric c)
  if name.isEmpty then throw .missingUnit
  match units.lookup name with
  | none => throw (.unknownUnit name)
  | some unit =>
    if limit / unit < number before then throw .invalid
    let total := number before * unit + fraction after unit
    if limit < total then throw .invalid
    return total

/-- The sum of the parts, in words of 64 bits. -/
def sum (parts : List (List Char)) : Except Flaw Nat :=
  parts.foldlM (fun total text => do
    let total := (total + (← part text)) % Nat.pow 2 64
    if limit < total then throw .invalid else return total) 0

/-- Reads a duration. -/
def read (text : String) : Except Flaw Int := do
  let (negative, size) := match text.toList with
    | '-' :: rest => (true, rest)
    | '+' :: rest => (false, rest)
    | all => (false, all)
  if size = ['0'] then return 0
  if size.isEmpty then throw .invalid
  let total ← sum (size.splitBy fun a b => isNumeric a || !isNumeric b)
  if negative then return -total
  else if total = limit then throw .invalid
  else return total

end Duration
end ProofKernel
