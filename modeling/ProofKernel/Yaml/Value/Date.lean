/-!
# Dates

A bare word that is a date, with a time of day or without, stands for a point in time.

* `Yaml.isDate` tells the words that do.
-/

set_option autoImplicit false
namespace ProofKernel
namespace Yaml
namespace Date

/-- The number of a digit. -/
def digitValue (c : Char) : Nat :=
  c.toNat - '0'.toNat

/-- A number of one digit or two at the head of a text, and what follows it. -/
def takeShort? : List Char → Option (Nat × List Char)
  | a :: b :: rest =>
    if !a.isDigit then none
    else if b.isDigit then some (digitValue a * 10 + digitValue b, rest)
    else some (digitValue a, b :: rest)
  | [a] => if a.isDigit then some (digitValue a, []) else none
  | [] => none

/-- Such a number below a bound. -/
def takeBelow? (bound : Nat) (text : List Char) : Option (List Char) := do
  let (n, rest) ← takeShort? text
  guard (n < bound)
  return rest

/-- What follows a character that has to stand at the head of a text. -/
def takeSign? (sign : Char) : List Char → Option (List Char)
  | c :: rest => if c == sign then some rest else none
  | [] => none

/-- The number of days of a month. -/
def monthDays (year month : Nat) : Nat :=
  if month == 2 then
    if year % 4 == 0 && (year % 100 != 0 || year % 400 == 0) then 29 else 28
  else if month == 4 || month == 6 || month == 9 || month == 11 then 30
  else 31

/-- What follows a date at the head of a text. -/
def takeDay? (text : List Char) : Option (List Char) := do
  let year := text.takeWhile Char.isDigit
  guard (year.length = 4)
  let (month, rest) ← takeShort? (← takeSign? '-' (text.drop 4))
  let (day, rest) ← takeShort? (← takeSign? '-' rest)
  guard (1 ≤ month && month ≤ 12)
  guard (1 ≤ day && day ≤ monthDays (year.foldl (fun n c => n * 10 + digitValue c) 0) month)
  return rest

/-- What follows a time of day at the head of a text.  A fraction of the second is parted by a point
or a comma. -/
def takeClock? (text : List Char) : Option (List Char) := do
  let rest ← takeBelow? 24 text
  let rest ← takeBelow? 60 (← takeSign? ':' rest)
  let rest ← takeBelow? 60 (← takeSign? ':' rest)
  match rest with
  | mark :: d :: more =>
    if (mark == '.' || mark == ',') && d.isDigit then return more.dropWhile Char.isDigit
    else return rest
  | _ => return rest

/-- Whether a text is the offset of a time zone. -/
def isZone : List Char → Bool
  | ['Z'] => true
  | [sign, a, b, ':', c, d] =>
    (sign == '+' || sign == '-') && [a, b, c, d].all Char.isDigit &&
      digitValue a * 10 + digitValue b ≤ 24 && digitValue c * 10 + digitValue d ≤ 60
  | _ => false

end Date

open Date in
/-- Whether a text is a date, with a time of day or without. -/
def isDate (text : List Char) : Bool :=
  match takeDay? text with
  | none => false
  | some [] => true
  | some (mark :: rest) =>
    if mark == ' ' then takeClock? (rest.dropWhile (· == ' ')) == some []
    else if mark == 'T' || mark == 't' then (takeClock? rest).any isZone
    else false

end Yaml
end ProofKernel
