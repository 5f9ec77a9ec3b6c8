import ProofKernel.Text.Symbol

/-!
# Fields divided by commas

A record is a line of fields with commas between them.  A field that starts with a quote goes on to
the next quote that is not doubled, over commas and line breaks; any other field ends at a comma or
a line break and has no quote.

* `Fields.first` reads the first record of a text.  Blank lines before it do not count.
* `Fields.Flaw` says what is wrong with a record, and where: lines and columns count from one, and a
  column is a byte.
-/

set_option autoImplicit false
namespace ProofKernel
namespace Fields

/-- A place in a text. -/
structure Place where
  line : Nat
  column : Nat
deriving DecidableEq

/-- Why there is no record. -/
inductive Flaw where
  /-- Every line is blank. -/
  | nothing
  /-- A quote in a field that does not start with one, in the record of a line. -/
  | bareQuote (record : Nat) (place : Place)
  /-- A quote too many or too few in a field that starts with one. -/
  | strayQuote (record : Nat) (place : Place)
deriving DecidableEq

/-- Where a flaw is, as errors say it. -/
def Place.label (p : Place) (record : Nat) : String :=
  (if p.line = record then "" else "record on line " ++ toString record ++ "; ") ++
    "parse error on line " ++ toString p.line ++ ", column " ++ toString p.column ++ ": "

/-- The wording of a flaw. -/
def Flaw.message : Flaw → String
  | nothing => "EOF"
  | bareQuote record place => place.label record ++ "bare \" in non-quoted-field"
  | strayQuote record place => place.label record ++ "extraneous or missing \" in quoted-field"

/-- A text with line feeds for its line breaks.  A carriage return at the end is none. -/
def withLineFeeds : List Char → List Char
  | '\r' :: '\n' :: rest => '\n' :: withLineFeeds rest
  | ['\r'] => []
  | c :: rest => c :: withLineFeeds rest
  | [] => []

/-- The place behind a character.  A line starts only where there is something on it. -/
def Place.next (p : Place) (c : Char) (rest : List Char) : Place :=
  if c = '\n' && !rest.isEmpty then ⟨p.line + 1, 1⟩ else ⟨p.line, p.column + c.utf8Size⟩

/-- Where a reader is in a field. -/
inductive Mode where
  | start
  | bare
  | quoted
  /-- Behind a quote inside a field that starts with one. -/
  | closed

/-- Reads the rest of a record; the characters of the field so far are given last first. -/
def rest (record : Nat) : Mode → List Char → Place → List Char → Except Flaw (List String)
  | .quoted, _, p, [] => .error (.strayQuote record p)
  | _, field, _, [] => .ok [String.ofList field.reverse]
  | .quoted, field, p, c :: cs =>
    if c = '"' then rest record .closed field (p.next c cs) cs
    else rest record .quoted (c :: field) (p.next c cs) cs
  | mode, field, p, c :: cs =>
    if c = '\n' then .ok [String.ofList field.reverse]
    else if c = ',' then
      (rest record .start [] (p.next c cs) cs).map (String.ofList field.reverse :: ·)
    else
      match mode with
      | .closed =>
        if c = '"' then rest record .quoted (c :: field) (p.next c cs) cs
        else .error (.strayQuote record ⟨p.line, p.column - 1⟩)
      | .start =>
        if c = '"' then rest record .quoted field (p.next c cs) cs
        else rest record .bare (c :: field) (p.next c cs) cs
      | _ =>
        if c = '"' then .error (.bareQuote record p)
        else rest record .bare (c :: field) (p.next c cs) cs

/-- The first record of a text. -/
def first (text : String) : Except Flaw (List String) :=
  let all := withLineFeeds text.toList
  let filled := all.dropWhile (· = '\n')
  let line := all.length - filled.length + 1
  if filled.isEmpty then .error .nothing else rest line .start [] ⟨line, 1⟩ filled

end Fields
end ProofKernel
