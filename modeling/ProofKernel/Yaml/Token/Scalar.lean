import ProofKernel.Yaml.Token

/-!
# Scalars of YAML

Text is written bare, between quotes, or as a block of lines below its header.  In the first two a
line break between two lines of text is a blank, and of several line breaks the first is dropped.

* `Yaml.takeBare`, `Yaml.takeQuoted` and `Yaml.takeBlock` read the three.
-/

set_option autoImplicit false
namespace ProofKernel
namespace Yaml

/-- Text under way: what has been read, last character first, and what stands between that and the
place reached. -/
structure Draft where
  text : List Char := []
  /-- Blanks in the line of the text, last first. -/
  gap : List Char := []
  /-- The first line break, as far as it counts. -/
  first : List Char := []
  /-- The further line breaks. -/
  others : List Char := []
  /-- Whether a line has been ended since the text. -/
  broken : Bool := false

namespace Draft

/-- The line breaks of a draft folded. -/
def folded (d : Draft) : List Char :=
  if d.first.head? == some '\n' then if d.others.isEmpty then [' '] else d.others
  else d.first ++ d.others

/-- The draft with what stands between made part of the text. -/
def joined (d : Draft) : Draft :=
  if d.broken then { text := d.folded.reverse ++ d.text }
  else { text := d.gap ++ d.text }

/-- The draft with one more character. -/
def push (d : Draft) (c : Char) : Draft :=
  { d with text := c :: d.text }

/-- The text that was read. -/
def result (d : Draft) : String :=
  String.ofList d.text.reverse

end Draft

/-- Whether a marker between documents stands at the start of a line. -/
def atMarker : Read Bool := do
  let s ← get
  return s.mark.column == 0 &&
    match s.rest with
    | '-' :: '-' :: '-' :: rest => endsWord rest
    | '.' :: '.' :: '.' :: rest => endsWord rest
    | _ => false

/-- Passes blanks and line breaks.  A tabulator may not stand left of the column `margin` once a
line has been ended. -/
def passSpace (start : Mark) (margin : Int) : Nat → Draft → Read Draft
  | 0, d => return d
  | fuel + 1, d => do
    need 1
    match ← ahead with
    | c :: _ =>
      if isGap c then
        if d.broken && (← here).column < margin && c == '\t' then
          refuse start "found a tab character that violates indentation"
        else
          skip
          passSpace start margin fuel (if d.broken then d else { d with gap := c :: d.gap })
      else if isBreak c then
        need 2
        let shown ← takeBreak
        passSpace start margin fuel
          (if d.broken then { d with others := d.others ++ shown }
            else { d with gap := [], first := shown, broken := true })
      else return d
    | [] => return d

/-! ## Bare words -/

/-- Whether a bare scalar ends in front of a text that starts with no blank. -/
def endsBare (flow : Bool) : List Char → Bool
  | [] => true
  | c :: rest =>
    isGap c || isBreak c || (c == ':' && endsWord rest) ||
      (flow && [',', '?', '[', ']', '\x7b', '\x7d'].contains c)

/-- Takes the characters of a bare scalar up to a blank. -/
def bareRun (flow : Bool) : List Char → Draft → Read Draft
  | [], d => return d
  | c :: rest, d => do
    if endsBare flow (c :: rest) then return d
    else
      skip
      need 2
      bareRun flow rest (d.joined.push c)

/-- Takes the words of a bare scalar.  In block style all of it stands right of the column
`indent`. -/
def bareWords (flow : Bool) (indent : Int) (start : Mark) : Nat → Draft → Read Draft
  | 0, d => return d
  | fuel + 1, d => do
    need 4
    if (← atMarker) || startsWith (· == '#') (← ahead) then return d
    else
      let d ← bareRun flow (← ahead) d
      if !startsWith (fun c => isGap c || isBreak c) (← ahead) then return d
      else
        let d ← passSpace start (indent + 1) ((← get).size + 1) d
        if !flow && (← here).column < indent + 1 then return d
        else bareWords flow indent start fuel d

/-- A bare scalar, and whether a line was ended behind it. -/
def takeBare (flow : Bool) (indent : Int) : Read (Token × Bool) := do
  let d ← bareWords flow indent (← here) ((← get).size + 1) {}
  return (.scalar false d.result, d.broken)

/-! ## Quotes -/

/-- The character that a letter behind a backslash stands for. -/
def escaped? : Char → Option Char
  | '0' => some '\x00'
  | 'a' => some '\x07'
  | 'b' => some '\x08'
  | 't' | '\t' => some '\t'
  | 'n' => some '\n'
  | 'v' => some '\x0b'
  | 'f' => some '\x0c'
  | 'r' => some '\r'
  | 'e' => some '\x1b'
  | ' ' => some ' '
  | '"' => some '"'
  | '\'' => some '\''
  | '\\' => some '\\'
  | 'N' => some '\u0085'
  | '_' => some '\u00a0'
  | 'L' => some '\u2028'
  | 'P' => some '\u2029'
  | _ => none

/-- The number of digits of a code behind a letter. -/
def codeWidth? : Char → Option Nat
  | 'x' => some 2
  | 'u' => some 4
  | 'U' => some 8
  | _ => none

/-- A character by its code, written with `width` digits of base sixteen. -/
def takeCode (start : Mark) (width : Nat) : Read Char := do
  need width
  let digits := (← ahead).take width
  match digits.mapM hexDigit? with
  | none => refuse start "did not find expected hexdecimal number"
  | some values =>
    let code := values.foldl (fun n d => n * 16 + d) 0
    if digits.length < width then refuse start "did not find expected hexdecimal number"
    else if (0xD800 ≤ code && code ≤ 0xDFFF) || 0x10FFFF < code then
      refuse start "found invalid Unicode character escape code"
    else
      skipMany width
      return Char.ofNat code

/-- Takes the characters between quotes up to a blank. -/
def quotedRun (single : Bool) (start : Mark) : Nat → Draft → Read Draft
  | 0, d => return d
  | fuel + 1, d => do
    match ← ahead with
    | [] => return d
    | c :: rest =>
      if isGap c || isBreak c then return d
      else if single && c == '\'' then
        if rest.head? == some '\'' then
          skipMany 2
          need 2
          quotedRun single start fuel (d.push '\'')
        else return d
      else if !single && c == '"' then return d
      else if !single && c == '\\' then
        match rest with
        | [] => refuse start "found unknown escape character"
        | e :: _ =>
          if isBreak e then
            need 3
            skip
            let _ ← takeBreak
            return { d with broken := true }
          else
            match escaped? e, codeWidth? e with
            | some shown, _ =>
              skipMany 2
              need 2
              quotedRun single start fuel (d.push shown)
            | none, some width =>
              skipMany 2
              let shown ← takeCode start width
              need 2
              quotedRun single start fuel (d.push shown)
            | none, none => refuse start "found unknown escape character"
      else
        skip
        need 2
        quotedRun single start fuel (d.push c)

/-- Takes the words between quotes, up to the closing one. -/
def quotedWords (single : Bool) (start : Mark) : Nat → Draft → Read Draft
  | 0, d => return d
  | fuel + 1, d => do
    need 4
    if ← atMarker then refuse start "found unexpected document indicator"
    else if (← ahead).isEmpty then refuse start "found unexpected end of stream"
    else
      let d ← quotedRun single start ((← get).size + 1) d
      need 1
      if startsWith (· == if single then '\'' else '"') (← ahead) then return d
      else
        let d ← passSpace start (-1) ((← get).size + 1) d
        quotedWords single start fuel d.joined

/-- A scalar in quotes. -/
def takeQuoted (single : Bool) : Read Token := do
  let start ← here
  skip
  let d ← quotedWords single start ((← get).size + 1) {}
  skip
  return .scalar true d.result

/-! ## Blocks of lines -/

/-- What is done with the line breaks at the end of a block. -/
inductive Chomping where
  | strip
  | clip
  | keep
deriving DecidableEq

/-- The sign for what is done with the line breaks at the end, if it stands ahead. -/
def takeChomping : Read (Option Chomping) := do
  need 1
  match ← ahead with
  | '+' :: _ => do
    skip
    return some .keep
  | '-' :: _ => do
    skip
    return some .strip
  | _ => return none

/-- The digit for the indentation, if it stands ahead. -/
def takeIndentation (start : Mark) : Read Nat := do
  need 1
  match ← ahead with
  | c :: _ =>
    if c == '0' then refuse start "found an indentation indicator equal to 0"
    else if c.isDigit then
      skip
      return c.toNat - '0'.toNat
    else return 0
  | [] => return 0

/-- The header of a block, up to the end of its line. -/
def takeHeader (start : Mark) : Read (Chomping × Nat) := do
  let (chomping, increment) ← match ← takeChomping with
    | some chomping => pure (chomping, ← takeIndentation start)
    | none =>
      let increment ← takeIndentation start
      if increment = 0 then pure (Chomping.clip, 0)
      else pure ((← takeChomping).getD .clip, increment)
  skipGap
  if startsWith (· == '#') (← ahead) then skipLine
  if !endsLine (← ahead) then refuse start "did not find expected comment or line break"
  else
    need 2
    let _ ← takeBreak
    return (chomping, increment)

/-- Passes the indentation and the empty lines in front of a line of a block.  Without an
indentation, which is zero then, every blank is passed.  The result is the line breaks passed, and
the greatest column reached. -/
def blockGap (start : Mark) (indent : Nat) : Nat → List Char → Nat → Read (List Char × Nat)
  | 0, breaks, widest => return (breaks, widest)
  | fuel + 1, breaks, widest => do
    need 1
    let s ← get
    let inside := indent = 0 || s.mark.column < indent
    match s.rest with
    | c :: _ =>
      if inside && c == ' ' then
        skip
        blockGap start indent fuel breaks (max widest (s.mark.column + 1))
      else if inside && c == '\t' then
        refuse start "found a tab character where an indentation space is expected"
      else if isBreak c then
        need 2
        let shown ← takeBreak
        blockGap start indent fuel (breaks ++ shown) widest
      else return (breaks, widest)
    | [] => return (breaks, widest)

/-- A block under way: its text, last character first, and the line breaks behind it. -/
structure BlockDraft where
  text : List Char := []
  first : List Char := []
  others : List Char := []
  /-- Whether the last line starts with a blank. -/
  indented : Bool := false

/-- Takes the lines of a block, which all start at a column. -/
def blockLines (literal : Bool) (start : Mark) (indent : Nat) : Nat → BlockDraft → Read BlockDraft
  | 0, d => return d
  | fuel + 1, d => do
    let s ← get
    if s.mark.column != indent || s.rest.isEmpty then return d
    else
      let indented := startsWith isGap s.rest
      let between :=
        if !literal && !d.indented && !indented && d.first.head? == some '\n' then
          if d.others.isEmpty then [' '] else []
        else d.first
      let line ← takeAll fun c => !isBreak c
      need 2
      let first ← takeBreak
      let (others, _) ← blockGap start indent ((← get).size + 1) [] 0
      blockLines literal start indent fuel
        { text := line.reverse ++ d.others.reverse ++ between.reverse ++ d.text,
          first, others, indented }

/-- A scalar that is a block of lines, right of the column `indent`. -/
def takeBlock (literal : Bool) (indent : Int) : Read Token := do
  let start ← here
  skip
  let (chomping, increment) ← takeHeader start
  let given := if increment = 0 then 0 else (max indent 0).toNat + increment
  let (others, widest) ← blockGap start given ((← get).size + 1) [] 0
  let column := if given = 0 then max (max widest (indent + 1).toNat) 1 else given
  let d ← blockLines literal start column ((← get).size + 1) { others }
  let tail := match chomping with
    | .strip => []
    | .clip => d.first
    | .keep => d.first ++ d.others
  return .scalar true (String.ofList (d.text.reverse ++ tail))

end Yaml
end ProofKernel
