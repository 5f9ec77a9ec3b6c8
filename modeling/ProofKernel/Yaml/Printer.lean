import ProofKernel.Text.Base64
import ProofKernel.Text.Quoted
import ProofKernel.Yaml.Source
import ProofKernel.Yaml.Value

/-!
# Writing text as YAML

A text is written as it is where that reads back as the same text, else between single quotes, and
between double quotes where it has characters that must be escaped or would be taken for something
other than text.  Text of several lines is written below its key, and bytes that are no text as
letters.

* `Yaml.writeText` writes a text behind the key of an entry.
-/

set_option autoImplicit false
namespace ProofKernel
namespace Yaml
namespace Printer

/-- Whether a character shows itself.  Characters past U+FFFF count as not showing themselves. -/
def shows (c : Char) : Bool :=
  let n := c.toNat
  n == 0x0A || (0x20 ≤ n && n ≤ 0x7E) || (0xA0 ≤ n && n ≤ 0xD7FF) ||
    (0xE000 ≤ n && n ≤ 0xFFFD && n != 0xFEFF)

/-- Words that older versions of the format took for truth values. -/
def oldTruths : List String :=
  ["y", "Y", "yes", "Yes", "YES", "on", "On", "ON", "n", "N", "no", "No", "NO", "off", "Off", "OFF"]

/-- Whether a text is a number of base sixty, as `1:30`. -/
def isSexagesimal (text : List Char) : Bool :=
  let unsigned := match text with
    | '-' :: rest | '+' :: rest => rest
    | _ => text
  match unsigned.splitOn ':' with
  | first :: second :: rest =>
    let isPart (p : List Char) : Bool :=
      match p with
      | [d] => d.isDigit
      | [a, d] => '0' ≤ a && a ≤ '5' && d.isDigit
      | _ => false
    let parts := second :: rest
    let last := parts.getLast?.getD []
    let lastWhole := last.takeWhile (· != '.')
    let fraction := last.dropWhile (· != '.')
    first.head?.any Char.isDigit && first.all (fun c => c.isDigit || c == '_') &&
      parts.dropLast.all isPart && isPart lastWhole &&
      (fraction.drop 1).all (fun c => c.isDigit || c == '_')
  | _ => false

/-- Whether a text without quotes is read as text. -/
def isWord (text : String) : Bool :=
  Value.ofWord text == .text text && !oldTruths.contains text && !isSexagesimal text.toList

/-- Whether a character, with its neighbours, would be taken for a sign of the format. -/
def isSign (before : Option Char) (c : Char) (after : Option Char) : Bool :=
  let gapAfter := after.all isGap
  match before with
  | none =>
    ['#', ',', '[', ']', '\x7b', '\x7d', '&', '*', '!', '|', '>', '\'', '"', '%', '@',
        '\x60'].contains c ||
      ((c == '?' || c == ':' || c == '-') && gapAfter)
  | some b => (c == ':' && gapAfter) || (c == '#' && (isGap b || isBreak b))

/-- Whether a text has a character that would be taken for a sign.  `before` is the character in
front of it. -/
def hasSign : Option Char → List Char → Bool
  | _, [] => false
  | before, c :: rest => isSign before c rest.head? || hasSign (some c) rest

/-- How a text can be written. -/
inductive Style where
  | plain
  | singleQuoted
  | doubleQuoted
  | literal
deriving DecidableEq

/-- Whether two characters with the two properties follow each other somewhere. -/
def follows (first second : Char → Bool) : List Char → Bool
  | c :: d :: rest => (first c && second d) || follows first second (d :: rest)
  | _ => false

/-- How a text is written. -/
def styleOf (text : String) : Style :=
  let chars := text.toList
  let isSpace (c : Char) : Bool := c == ' '
  let tabs := chars.contains '\t'
  let special := chars.any fun c => c != '\t' && !shows c
  let marker := text.startsWith "---" || text.startsWith "..."
  let spaceAtEnd := chars.getLast?.any isSpace
  let spaceAtStart := chars.head?.any isSpace
  let spaceBreak := follows isSpace isBreak chars
  let breakSpace := follows isBreak isSpace chars
  if chars.contains '\n' then
    if spaceAtEnd || spaceBreak || special then .doubleQuoted else .literal
  else if !isWord text then .doubleQuoted
  else if tabs || special || spaceBreak || breakSpace then .doubleQuoted
  else if marker || spaceAtStart || spaceAtEnd || chars.any isBreak || hasSign none chars then
    .singleQuoted
  else .plain

/-- A number in upper-case hexadecimal, filled with zeros up to a width. -/
def upperHex (width n : Nat) : List Char :=
  (Quoted.hex width n).map Char.toUpper

/-- The letter that stands for a character behind a backslash. -/
def letter? (c : Char) : Option Char :=
  match c.toNat with
  | 0x00 => some '0'
  | 0x07 => some 'a'
  | 0x08 => some 'b'
  | 0x09 => some 't'
  | 0x0A => some 'n'
  | 0x0B => some 'v'
  | 0x0C => some 'f'
  | 0x0D => some 'r'
  | 0x1B => some 'e'
  | 0x22 => some '"'
  | 0x5C => some '\\'
  | 0x85 => some 'N'
  | 0xA0 => some '_'
  | 0x2028 => some 'L'
  | 0x2029 => some 'P'
  | _ => none

/-- A character between double quotes.  Every character has to be escaped in a text with the mark of
the byte order in front, which `all` says. -/
def escape (all : Bool) (c : Char) : List Char :=
  if !all && shows c && !isBreak c && c != '"' && c != '\\' then [c]
  else
    match letter? c with
    | some l => ['\\', l]
    | none =>
      if c.toNat ≤ 0xFF then '\\' :: 'x' :: upperHex 2 c.toNat
      else if c.toNat ≤ 0xFFFF then '\\' :: 'u' :: upperHex 4 c.toNat
      else '\\' :: 'U' :: upperHex 8 c.toNat

/-- The signs in front of a text of several lines: its indentation where it starts with a blank, and
what becomes of the line break at its end. -/
def header (step : Nat) (chars : List Char) : String :=
  let hint := if chars.head?.any (fun c => c == ' ' || isBreak c) then toString step else ""
  let chomp := match chars.reverse with
    | [last] => if isBreak last then "+" else "-"
    | last :: before :: _ => if !isBreak last then "-" else if isBreak before then "+" else ""
    | [] => "-"
  "|" ++ hint ++ chomp

/-- The characters of a text, each line that is not empty behind blanks.  `fresh` says whether a
line break stands in front. -/
def indented (margin : List Char) (fresh : Bool) : List Char → List Char
  | [] => []
  | c :: rest =>
    if isBreak c then c :: indented margin true rest
    else (if fresh then margin else []) ++ c :: indented margin false rest

/-- A text of several lines below its key. -/
def block (step width : Nat) (chars : List Char) : String :=
  let margin := List.replicate width ' '
  let start := if chars.head?.any isBreak then [] else ['\n']
  header step chars ++ String.ofList (start ++ indented margin true chars)

/-- A text between single quotes, of which a further line starts behind blanks. -/
def singleQuoted (width : Nat) (chars : List Char) : String :=
  let doubled := chars.flatMap fun c => if c == '\'' then ['\'', '\''] else [c]
  "'" ++ String.ofList (indented (List.replicate width ' ') false doubled) ++ "'"

/-- A string as the value of an entry. -/
def writeString (step width : Nat) (text : String) : String :=
  let chars := text.toList
  match styleOf text with
  | .plain => text
  | .singleQuoted => singleQuoted (width + step) chars
  | .doubleQuoted =>
    "\"" ++ String.ofList (chars.flatMap (escape (chars.head? == some orderMark))) ++ "\""
  | .literal => block step (width + step) chars

end Printer

open Printer in
/-- A text as the value of an entry, whose key is indented by `width`; each level indents by
`step`. -/
def writeText (step width : Nat) (text : Text) : String :=
  match text.toString? with
  | some text => writeString step width text
  | none => "!!binary " ++ String.ofList (Base64.encode (Symbol.encode text))

end Yaml
end ProofKernel
