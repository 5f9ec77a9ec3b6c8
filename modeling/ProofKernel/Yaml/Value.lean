import ProofKernel.Decimal.Binary64
import ProofKernel.Decimal.Numeral
import ProofKernel.Yaml.Value.Date

/-!
# What a scalar of YAML stands for

A word that is written without quotes may stand for nothing, a truth value, a number or a date.
Every other word is text.  A tag says what a scalar is to be read as.

* `Yaml.Value.ofWord` reads a word, and `Yaml.Value.ofTagged?` a scalar with a tag.
* `Yaml.Value.tag` names the kind of a value.
-/

set_option autoImplicit false
namespace ProofKernel
namespace Yaml

/-- The value of a scalar. -/
inductive Value where
  | null
  | bool (value : Bool)
  | int (value : Int)
  | float (value : Binary64)
  | timestamp
  | text (value : String)
deriving DecidableEq

namespace Value

/-- The name of the kind of a value. -/
def tag : Value → String
  | null => "!!null"
  | bool _ => "!!bool"
  | int _ => "!!int"
  | float _ => "!!float"
  | timestamp => "!!timestamp"
  | text _ => "!!str"

/-! ## Numbers -/

/-- The bits of infinity. -/
def infinity (negative : Bool) : Binary64 :=
  .ofMagnitude negative Binary64.infinity

/-- A number that is no number. -/
def notANumber : Binary64 :=
  .ofMagnitude false (Binary64.infinity + 1)

/-- Digits at the head of a text, and what follows them. -/
def spanDigits (text : List Char) : List Char × List Char :=
  (text.takeWhile Char.isDigit, text.dropWhile Char.isDigit)

/-- The number a row of digits stands for. -/
def readDigits (digits : List Char) : Nat :=
  digits.foldl (fun n c => n * 10 + (c.toNat - '0'.toNat)) 0

/-- An exponent with its sign, up to the end of the text. -/
def exponent? (text : List Char) : Option Int :=
  match text with
  | [] => some 0
  | mark :: rest =>
    if mark == 'e' || mark == 'E' then
      let (negative, digits) := match rest with
        | '-' :: digits => (true, digits)
        | '+' :: digits => (false, digits)
        | digits => (false, digits)
      if digits.isEmpty || !digits.all Char.isDigit then none
      else some (if negative then -(readDigits digits : Int) else readDigits digits)
    else none

/-- A decimal fraction with a sign: digits, a point, digits and an exponent, of which there must be
a digit before or behind the point. -/
def decimal? (text : List Char) : Option Binary64 := do
  let (negative, text) := match text with
    | '-' :: rest => (true, rest)
    | '+' :: rest => (false, rest)
    | _ => (false, text)
  let (whole, rest) := spanDigits text
  let (part, rest) := match rest with
    | '.' :: rest => spanDigits rest
    | _ => ([], rest)
  guard !(whole.isEmpty && part.isEmpty)
  let power ← exponent? rest
  Binary64.ofDecimal? negative (readDigits (whole ++ part)) (power - part.length)

/-- A number that starts with its point.  Underscores may stand between digits. -/
def pointed? (text : List Char) : Option Binary64 := do
  guard (Numeral.separatesDigits false false text)
  decimal? (text.filter (· != '_'))

/-- A number with its sign behind the mark of the base. -/
def signedLate? (text : List Char) : Option Int := do
  let (base, digits) ← match text with
    | '0' :: 'b' :: digits => some (2, digits)
    | '0' :: 'o' :: digits => some (8, digits)
    | _ => none
  let (negative, digits) ← match digits with
    | '-' :: digits => some (true, digits)
    | '+' :: digits => some (false, digits)
    | _ => none
  guard !digits.isEmpty
  let n ← (Numeral.accumulate .plain base 0 digits).toOption
  if negative then guard (n ≤ Nat.pow 2 63) else guard (n < Nat.pow 2 63)
  return if negative then -(n : Int) else n

/-- A number with a sign or a digit in front; underscores are passed over. -/
def number? (text : List Char) : Option Value :=
  let plain := text.filter (· != '_')
  match Numeral.integer .marked plain with
  | .ok n => some (.int n)
  | .error _ =>
    match Numeral.natural .marked plain with
    | .ok n => some (.int n)
    | .error _ =>
      match decimal? plain with
      | some x => some (.float x)
      | none => (signedLate? plain).map .int

/-- The floating-point number nearest to a whole number. -/
def ofWhole (n : Int) : Binary64 :=
  (Binary64.ofDecimal? (n < 0) n.natAbs 0).getD (infinity (n < 0))

/-! ## Words -/

/-- The words with a meaning of their own. -/
def words : List (String × Value) :=
  [("", .null), ("~", .null), ("null", .null), ("Null", .null), ("NULL", .null),
    ("true", .bool true), ("True", .bool true), ("TRUE", .bool true),
    ("false", .bool false), ("False", .bool false), ("FALSE", .bool false),
    (".nan", .float notANumber), (".NaN", .float notANumber), (".NAN", .float notANumber),
    (".inf", .float (infinity false)), (".Inf", .float (infinity false)),
    (".INF", .float (infinity false)), ("+.inf", .float (infinity false)),
    ("+.Inf", .float (infinity false)), ("+.INF", .float (infinity false)),
    ("-.inf", .float (infinity true)), ("-.Inf", .float (infinity true)),
    ("-.INF", .float (infinity true))]

/-- The value of a word, where dates are `dated` or are text. -/
def ofWordWith (dated : Bool) (word : String) : Value :=
  match words.lookup word with
  | some value => value
  | none =>
    match word.toList with
    | [] => .null
    | c :: rest =>
      if c == '.' then ((pointed? (c :: rest)).map Value.float).getD (.text word)
      else if c.isDigit || c == '+' || c == '-' then
        if dated && isDate (c :: rest) then .timestamp
        else (number? (c :: rest)).getD (.text word)
      else .text word

/-- The value of a word without quotes. -/
def ofWord (word : String) : Value :=
  ofWordWith true word

/-- The tags with a meaning for scalars. -/
def knownTags : List String :=
  ["!!str", "!!bool", "!!int", "!!float", "!!null", "!!timestamp"]

/-- The value of a scalar with a tag.  A known tag has to fit, where a whole number fits that of
fractions; any other makes it text. -/
def ofTagged? (tag text : String) : Option Value :=
  if tag == "!!str" || !knownTags.contains tag then some (.text text)
  else
    let value := ofWordWith (tag == "!!timestamp") text
    if value.tag == tag then some value
    else
      match value with
      | .int n =>
        if tag == "!!float" && n < (Nat.pow 2 63 : Nat) then some (.float (ofWhole n)) else none
      | _ => none

end Value
end Yaml
end ProofKernel
