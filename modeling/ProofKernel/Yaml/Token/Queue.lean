import ProofKernel.Yaml.Token.Scalar

/-!
# The tokens of a stream

Tokens are made as they are asked for, a few ahead.  A key of a mapping has no sign in front of it:
it is known to be one when the colon behind it is reached, and its token is put in front of it then.
Such a key stands on one line and is not too long.

* `Yaml.Queue` holds the tokens made and not taken, and what is known about the place reached.
* `Yaml.peek` looks at the next token and `Yaml.drop` takes it.
-/

set_option autoImplicit false
namespace ProofKernel
namespace Yaml

/-- A place where a key may have started. -/
structure Candidate where
  /-- Whether it can be a key still. -/
  possible : Bool := false
  /-- Whether it has to be one. -/
  required : Bool := false
  /-- The number of its token. -/
  number : Nat := 0
  mark : Mark := {}
deriving Inhabited

/-- The tokens of a stream that have been made and not taken. -/
structure Queue where
  source : Source
  tokens : List Placed := []
  /-- How many tokens have been taken. -/
  taken : Nat := 0
  started : Bool := false
  /-- How many brackets are open. -/
  flow : Nat := 0
  /-- The column of the innermost block; there is none at -1. -/
  indent : Int := -1
  /-- The columns of the blocks around it. -/
  indents : List Int := []
  /-- Whether a key may start here. -/
  keyAllowed : Bool := false
  /-- A candidate for each open bracket, the innermost first, and one for all blocks. -/
  candidates : List Candidate := []
  /-- The tokens that may be keys, each with how many candidates stand around its own. -/
  starts : List (Nat × Nat) := []

/-- A computation that makes and takes tokens. -/
abbrev Scan : Type → Type := StateT Queue (Except Fault)

/-- How long a key without a sign may be. -/
def longestKey : Nat := 1024

/-- How many brackets and blocks may be open at the same time. -/
def deepest : Nat := 10000

namespace Queue

/-- Runs a computation on the stream. -/
def onSource {α : Type} (read : Read α) : Scan α := do
  let q ← get
  let (a, source) ← read.run q.source
  set { q with source }
  return a

/-- The number of the next token. -/
def next (q : Queue) : Nat :=
  q.taken + q.tokens.length

/-- Puts a token behind the others. -/
def append (token : Token) (start finish : Mark) : Scan Unit :=
  modify fun q => { q with tokens := q.tokens ++ [⟨token, start, finish⟩] }

/-- Puts a token at the place of that with a number, or behind all others if that is gone. -/
def insert (number : Nat) (token : Token) (mark : Mark) : Scan Unit :=
  modify fun q =>
    let placed : Placed := ⟨token, mark, mark⟩
    if number < q.taken then { q with tokens := q.tokens ++ [placed] }
    else { q with tokens := q.tokens.insertIdx (number - q.taken) placed }

/-- Refuses what starts at `context`. -/
def reject {α : Type} (context : Mark) (reason : String) : Scan α :=
  onSource (refuse context reason)

/-! ## Candidates for keys -/

/-- Replaces the innermost candidate. -/
def setCandidate (c : Candidate) : Scan Unit :=
  modify fun q => { q with candidates := c :: q.candidates.drop 1 }

/-- The innermost candidate. -/
def candidate : Scan Candidate :=
  return (← get).candidates.headD {}

/-- Forgets that a token may be a key. -/
def forget (number : Nat) : Scan Unit :=
  modify fun q => { q with starts := q.starts.filter fun (n, _) => n != number }

/-- Whether a candidate can still be a key, here. -/
def isOpen (c : Candidate) : Scan Bool := do
  let mark := (← get).source.mark
  if !c.possible then return false
  else if c.mark.line < mark.line || c.mark.index + longestKey < mark.index then
    if c.required then reject c.mark "could not find expected ':'" else return false
  else return true

/-- Drops the innermost candidate. -/
def dropCandidate : Scan Unit := do
  let c ← candidate
  if c.possible then
    if c.required then reject c.mark "could not find expected ':'"
    else
      setCandidate { c with possible := false }
      forget c.number

/-- Makes the place reached the innermost candidate, where a key may start. -/
def saveCandidate : Scan Unit := do
  let q ← get
  if q.keyAllowed then
    let mark := q.source.mark
    dropCandidate
    setCandidate ⟨true, q.flow == 0 && q.indent == mark.column, q.next, mark⟩
    forget q.next
    modify fun q' => { q' with starts := (q.next, q.candidates.length - 1) :: q'.starts }

/-! ## Blocks -/

/-- Opens a block at a column right of the innermost one.  Its token is put in front of that with a
number, or behind all others. -/
def openBlock (column : Nat) (number : Option Nat) (token : Token) (mark : Mark) : Scan Unit := do
  let q ← get
  if q.flow == 0 && q.indent < column then
    set { q with indents := q.indent :: q.indents, indent := (column : Int) }
    if deepest ≤ q.indents.length then reject mark "exceeded max depth of 10000"
    else
      match number with
      | some number => insert number token mark
      | none => append token mark mark

/-- Closes the blocks right of a column. -/
def closeBlocks (column : Int) : Scan Unit := do
  let q ← get
  if q.flow == 0 then
    let all := q.indent :: q.indents
    let closed := all.takeWhile (column < ·)
    let left := all.drop closed.length
    let mark := q.source.mark
    set { q with
      tokens := q.tokens ++ closed.map fun _ => (⟨.blockEnd, mark, mark⟩ : Placed)
      indent := left.headD (-1)
      indents := left.drop 1 }

/-! ## Signs -/

/-- Makes a token of a sign of `count` characters. -/
def makeSign (token : Token) (count : Nat) : Scan Unit := do
  let start := (← get).source.mark
  onSource (skipMany count)
  append token start (← get).source.mark

/-- Makes the token that a computation reads. -/
def makeWord (read : Read Token) : Scan Unit := do
  let start := (← get).source.mark
  let token ← onSource read
  append token start (← get).source.mark

/-- Sets whether a key may start here. -/
def allowKey (allowed : Bool) : Scan Unit :=
  modify fun q => { q with keyAllowed := allowed }

/-- Makes a token of a sign that ends all blocks. -/
def makeOuter (make : Scan Unit) : Scan Unit := do
  closeBlocks (-1)
  dropCandidate
  allowKey false
  make

/-- Makes the last token. -/
def makeEnd : Scan Unit := do
  modify fun q =>
    let mark := q.source.mark
    if mark.column == 0 then q
    else { q with source := { q.source with mark := ⟨mark.index, mark.line + 1, 0⟩ } }
  makeOuter (makeSign .streamEnd 0)

/-- Makes a token of an opening bracket. -/
def makeOpening (token : Token) : Scan Unit := do
  saveCandidate
  let q ← get
  set { q with
    flow := q.flow + 1
    candidates := ⟨false, false, q.next, q.source.mark⟩ :: q.candidates }
  if deepest ≤ q.flow then reject q.source.mark "exceeded max depth of 10000"
  else
    allowKey true
    makeSign token 1

/-- Makes a token of a closing bracket. -/
def makeClosing (token : Token) : Scan Unit := do
  dropCandidate
  let q ← get
  if 0 < q.flow then
    forget (← candidate).number
    modify fun q => { q with flow := q.flow - 1, candidates := q.candidates.drop 1 }
  allowKey false
  makeSign token 1

/-- Makes a token of a comma. -/
def makeComma : Scan Unit := do
  dropCandidate
  allowKey true
  makeSign .comma 1

/-- Makes a token of a dash. -/
def makeItem : Scan Unit := do
  let q ← get
  let mark := q.source.mark
  if q.flow == 0 then
    if !q.keyAllowed then
      reject mark "block sequence entries are not allowed in this context"
    else openBlock mark.column none .blockSequenceStart mark
  dropCandidate
  allowKey true
  makeSign .item 1

/-- Makes a token of a question mark. -/
def makeKey : Scan Unit := do
  let q ← get
  let mark := q.source.mark
  if q.flow == 0 then
    if !q.keyAllowed then reject mark "mapping keys are not allowed in this context"
    else openBlock mark.column none .blockMappingStart mark
  dropCandidate
  allowKey (q.flow == 0)
  makeSign .key 1

/-- Makes a token of a colon.  If a key can have started, its token is put in front of it. -/
def makeValue : Scan Unit := do
  let c ← candidate
  if ← isOpen c then
    insert c.number .key c.mark
    openBlock c.mark.column (some c.number) .blockMappingStart c.mark
    setCandidate { c with possible := false }
    forget c.number
    allowKey false
  else
    setCandidate { c with possible := false }
    let q ← get
    let mark := q.source.mark
    if q.flow == 0 then
      if !q.keyAllowed then reject mark "mapping values are not allowed in this context"
      else openBlock mark.column none .blockMappingStart mark
    allowKey (q.flow == 0)
  makeSign .value 1

/-- Makes a token of a word that may be a key. -/
def makeKeyWord (read : Read Token) : Scan Unit := do
  saveCandidate
  allowKey false
  makeWord read

/-- Makes a token of a bare scalar. -/
def makeBare : Scan Unit := do
  saveCandidate
  allowKey false
  let q ← get
  let start := q.source.mark
  let (token, broken) ← onSource (takeBare (q.flow != 0) q.indent)
  append token start (← get).source.mark
  if broken then allowKey true

/-- Makes a token of a block of lines. -/
def makeBlock (literal : Bool) : Scan Unit := do
  dropCandidate
  allowKey true
  makeWord (takeBlock literal (← get).indent)

/-! ## The next token -/

/-- Passes white space and comments. -/
def passSpaces : Nat → Scan Unit
  | 0 => return
  | fuel + 1 => do
    let q ← get
    onSource do
      need 1
      let s ← get
      if s.mark.column == 0 && s.ordered then skip
      let isSpace (c : Char) : Bool := c == ' ' || ((q.flow != 0 || !q.keyAllowed) && c == '\t')
      let _ ← takeAll isSpace
      if startsWith (· == '#') (← ahead) then skipComments (s.size + 1)
    if startsWith isBreak (← get).source.rest then
      onSource do
        need 2
        let _ ← takeBreak
      if q.flow == 0 then allowKey true
      passSpaces fuel

/-- Whether a bare scalar starts with a text. -/
def startsBare (flow : Bool) : List Char → Bool
  | [] => false
  | c :: rest =>
    !(isGap c || isBreak c || ['-', '?', ':', ',', '[', ']', '\x7b', '\x7d', '#', '&', '*', '!',
        '|', '>', '\'', '"', '%', '@', '\x60'].contains c) ||
      (c == '-' && !startsWith isGap rest) ||
      (!flow && (c == '?' || c == ':') && !endsWord rest)

/-- Makes the token that starts here, other than those between documents. -/
def makeInner (flow : Bool) (text : List Char) : Scan Unit :=
  match text with
  | [] => makeEnd
  | c :: rest =>
    if c == '[' then makeOpening .flowSequenceStart
    else if c == '\x7b' then makeOpening .flowMappingStart
    else if c == ']' then makeClosing .flowSequenceEnd
    else if c == '\x7d' then makeClosing .flowMappingEnd
    else if c == ',' then makeComma
    else if c == '-' && endsWord rest then makeItem
    else if c == '?' && (flow || endsWord rest) then makeKey
    else if c == ':' && (flow || endsWord rest) then makeValue
    else if c == '*' then makeKeyWord do return .alias (← takeName)
    else if c == '&' then makeKeyWord do return .anchor (← takeName)
    else if c == '!' then makeKeyWord takeTag
    else if c == '|' && !flow then makeBlock true
    else if c == '>' && !flow then makeBlock false
    else if c == '\'' then makeKeyWord (takeQuoted true)
    else if c == '"' then makeKeyWord (takeQuoted false)
    else if startsBare flow text then makeBare
    else do reject (← get).source.mark "found character that cannot start any token"

/-- Makes the next token, and those that the place it stands at calls for. -/
def make : Scan Unit := do
  onSource (need 1)
  let q ← get
  if !q.started then
    set { q with started := true, keyAllowed := true, candidates := [{}] }
    makeSign .streamStart 0
  else
    passSpaces (q.source.size + 2)
    let column := (← get).source.mark.column
    closeBlocks column
    onSource (need 4)
    let q ← get
    match q.source.rest with
    | [] => makeEnd
    | c :: rest =>
      if column == 0 && c == '%' then makeOuter (makeWord takeDirective)
      else if ← onSource atMarker then
        makeOuter (makeSign (if c == '-' then .documentStart else .documentEnd) 3)
      else
        makeInner (q.flow != 0) (c :: rest)
        if (← get).tokens.getLast?.all (·.token != .item) then onSource skipComment

/-- Whether more tokens have to be made before the next one can be taken: there are to be three, and
the next may not be a key that is not known to be one. -/
def isShort : Scan Bool := do
  let q ← get
  if q.tokens.length < 3 then return true
  else
    match q.starts.lookup q.taken with
    | none => return false
    | some depth => isOpen (q.candidates.reverse.getD depth {})

/-- Makes tokens until the next one can be taken, at most `fuel` of them. -/
def makeEnough : Nat → Scan Unit
  | 0 => return
  | fuel + 1 => do
    if ← isShort then
      make
      makeEnough fuel

end Queue

/-- The tokens of a text. -/
def Queue.ofText (text : String) : Queue :=
  { source := .ofText text }

open Queue in
/-- The next token, which stays where it is. -/
def peek : Scan Placed := do
  makeEnough ((← get).source.size + 4)
  return (← get).tokens.headD default

/-- Takes the next token. -/
def drop : Scan Unit :=
  modify fun q => { q with tokens := q.tokens.drop 1, taken := q.taken + 1 }

end Yaml
end ProofKernel
