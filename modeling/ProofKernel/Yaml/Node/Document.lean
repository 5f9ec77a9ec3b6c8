import ProofKernel.Yaml.Node
import ProofKernel.Yaml.Token.Queue

/-!
# Reading a document

The nodes of a document are read from its tokens.  The first document of a stream is read, and one
token behind it; what follows is not looked at.

* `Yaml.read` reads the first document of a text, if there is one.
-/

set_option autoImplicit false
namespace ProofKernel
namespace Yaml

/-- A document under way. -/
structure Draw where
  queue : Queue
  /-- What the handles in tags stand for. -/
  handles : List (String × String) := []
  /-- The numbers of the names, the last first. -/
  names : List (String × Nat) := []
  /-- The nodes with names that are complete. -/
  named : List (Nat × Node) := []
  /-- How many numbers have been given. -/
  numbers : Nat := 0

/-- A computation that makes nodes of tokens. -/
abbrev Build : Type → Type := StateT Draw (Except Fault)

namespace Draw

/-- Runs a computation on the tokens. -/
def onQueue {α : Type} (scan : Scan α) : Build α := do
  let d ← get
  let (a, queue) ← scan.run d.queue
  set { d with queue }
  return a

/-- The next token, which stays where it is. -/
def look : Build Placed :=
  onQueue peek

/-- Takes the next token. -/
def pass : Build Unit :=
  onQueue Yaml.drop

/-- A number that was not given before. -/
def fresh : Build Nat := do
  let d ← get
  set { d with numbers := d.numbers + 1 }
  return d.numbers

/-- Gives a name to a node that is about to be read. -/
def name? (anchor : Option String) : Build (Option Nat) :=
  match anchor with
  | none => return none
  | some name => do
    let number ← fresh
    modify fun d => { d with names := (name, number) :: d.names }
    return some number

/-- Keeps a node that has been read under its number. -/
def keep (number : Option Nat) (node : Node) : Build Node := do
  if let some number := number then
    modify fun d => { d with named := (number, node) :: d.named }
  return node

/-! ## Directives -/

/-- The handles every document has. -/
def commonHandles : List (String × String) :=
  [("!", "!"), ("!!", Node.longStart)]

/-- Takes the directives ahead.  `versioned` says whether there was a version among them. -/
def directives : Nat → Bool → Build Unit
  | 0, _ => return
  | fuel + 1, versioned => do
    let next ← look
    match next.token with
    | .version major minor =>
      if versioned then throw (.ofOrder {} next.start "found duplicate %YAML directive")
      else if major != 1 || minor != 1 then
        throw (.ofOrder {} next.start "found incompatible YAML document")
      else
        pass
        directives fuel true
    | .handle name expansion =>
      if ((← get).handles.lookup name).isSome then
        throw (.ofOrder {} next.start "found duplicate %TAG directive")
      else
        modify fun d => { d with handles := d.handles ++ [(name, expansion)] }
        pass
        directives fuel versioned
    | _ => modify fun d => { d with handles := d.handles ++ commonHandles }

/-! ## Properties -/

/-- What stands in front of a node. -/
structure Properties where
  start : Mark
  anchor : Option String := none
  /-- The whole tag. -/
  tag : Option String := none

/-- The whole tag of one with a handle. -/
def wholeTag (start place : Mark) (handle suffix : String) : Build String := do
  if handle.isEmpty then return suffix
  else
    match (← get).handles.lookup handle with
    | some expansion => return expansion ++ suffix
    | none => throw (.ofOrder start place "found undefined tag handle")

/-- Takes an anchor and a tag, in either order, if they stand ahead. -/
def properties : Build Properties := do
  let first ← look
  match first.token with
  | .anchor name => do
    pass
    let second ← look
    match second.token with
    | .tag handle suffix => do
      pass
      let _ ← look
      return ⟨first.start, some name, some (← wholeTag first.start second.start handle suffix)⟩
    | _ => return ⟨first.start, some name, none⟩
  | .tag handle suffix => do
    pass
    let second ← look
    let anchor ← match second.token with
      | .anchor name => do
        pass
        let _ ← look
        pure (some name)
      | _ => pure none
    return ⟨first.start, anchor, some (← wholeTag first.start first.start handle suffix)⟩
  | _ => return { start := first.start }

/-- The tag as far as it says something: an exclamation mark alone does not. -/
def Properties.given (p : Properties) : Option String :=
  p.tag.filter (· != "!")

/-- The tag of a node that has another one where none is written. -/
def Properties.tagOr (p : Properties) (tag : String) : String :=
  (p.given.map Node.shortTag).getD tag

/-- The line of a place, counted from one. -/
def lineOf (mark : Mark) : Nat :=
  mark.line + 1

/-! ## Nodes -/

/-- Whether no node starts with a token in front of which one of a mapping in block style is due. -/
def endsEntry : Token → Bool
  | .key | .value | .blockEnd => true
  | _ => false

/-- The fault of a bracket that is not closed or a comma that is missing. -/
def unclosed (start : Mark) (next : Placed) (sign : String) : Fault :=
  .ofOrder start next.start ("did not find expected ',' or '" ++ sign ++ "'")

mutual

/-- A node.  In `block` style it may be a block, and where `indentless` holds also a sequence whose
dashes stand in the column of the key. -/
def node (block indentless : Bool) : Nat → Build Node
  | 0 => throw (.plain "exceeded max depth")
  | fuel + 1 => do
    let first ← look
    match first.token with
    | .alias name => do
      match (← get).names.lookup name with
      | none => throw (.plain ("unknown anchor '" ++ name ++ "' referenced"))
      | some target =>
        pass
        return .alias (lineOf first.start) name (← fresh) target
    | _ => do
      let p ← properties
      let next ← look
      let line := lineOf p.start
      match next.token with
      | .scalar quoted text => do
        let number ← name? p.anchor
        pass
        keep number (.ofScalar line p.given quoted text)
      | .flowSequenceStart => do
        let number ← name? p.anchor
        pass
        keep number (.sequence line (p.tagOr Node.sequenceTag) (← flowItems next.start true fuel))
      | .flowMappingStart => do
        let number ← name? p.anchor
        pass
        keep number (.mapping line (p.tagOr Node.mappingTag) (← flowEntries next.start true fuel))
      | token => do
        if indentless && token == .item then
          let number ← name? p.anchor
          keep number (.sequence line (p.tagOr Node.sequenceTag) (← flatItems fuel))
        else if block && token == .blockSequenceStart then
          let number ← name? p.anchor
          pass
          keep number (.sequence line (p.tagOr Node.sequenceTag) (← blockItems next.start fuel))
        else if block && token == .blockMappingStart then
          let number ← name? p.anchor
          pass
          keep number (.mapping line (p.tagOr Node.mappingTag) (← blockEntries next.start fuel))
        else if p.anchor.isSome || p.tag.isSome then
          let number ← name? p.anchor
          keep number (.ofScalar line p.given false "")
        else throw (.ofOrder p.start next.start "did not find expected node content")

/-- The items of a block sequence that starts at a place. -/
def blockItems (start : Mark) : Nat → Build (List Node)
  | 0 => throw (.plain "exceeded max depth")
  | fuel + 1 => do
    let next ← look
    match next.token with
    | .item => do
      pass
      let after ← look
      let item ←
        if after.token == .item || after.token == .blockEnd then pure (.empty (lineOf next.finish))
        else node true false fuel
      return item :: (← blockItems start fuel)
    | .blockEnd => do
      pass
      return []
    | _ => throw (.ofOrder start next.start "did not find expected '-' indicator")

/-- The items of a sequence whose dashes stand in the column of its key. -/
def flatItems : Nat → Build (List Node)
  | 0 => throw (.plain "exceeded max depth")
  | fuel + 1 => do
    let next ← look
    match next.token with
    | .item => do
      pass
      let after ← look
      let item ←
        if after.token == .item || endsEntry after.token then pure (.empty (lineOf next.finish))
        else node true false fuel
      return item :: (← flatItems fuel)
    | _ => return []

/-- The entries of a block mapping that starts at a place. -/
def blockEntries (start : Mark) : Nat → Build (List (Node × Node))
  | 0 => throw (.plain "exceeded max depth")
  | fuel + 1 => do
    let next ← look
    match next.token with
    | .key => do
      pass
      let after ← look
      let key ←
        if endsEntry after.token then pure (.empty (lineOf next.finish)) else node true true fuel
      let next ← look
      let value ←
        if next.token == .value then do
          pass
          let after ← look
          if endsEntry after.token then pure (.empty (lineOf next.finish)) else node true true fuel
        else pure (.empty (lineOf next.start))
      return (key, value) :: (← blockEntries start fuel)
    | .blockEnd => do
      pass
      return []
    | _ => throw (.ofOrder start next.start "did not find expected key")

/-- The items of a sequence in brackets, of which the next is the `first` or stands behind a
comma. -/
def flowItems (start : Mark) (first : Bool) : Nat → Build (List Node)
  | 0 => throw (.plain "exceeded max depth")
  | fuel + 1 => do
    let next ← look
    if next.token == .flowSequenceEnd then
      pass
      return []
    else if !first && next.token != .comma then throw (unclosed start next "]")
    else
      if !first then pass
      let next ← look
      match next.token with
      | .flowSequenceEnd => do
        pass
        return []
      | .key => do
        pass
        let (key, value) ← pair fuel
        let entry : Node := .mapping (lineOf next.start) Node.mappingTag [(key, value)]
        return entry :: (← flowItems start false fuel)
      | _ => do
        let item ← node false false fuel
        return item :: (← flowItems start false fuel)

/-- A key and its value, which are an item of a sequence in brackets.  Where the key is missing, the
sign in its place counts for nothing. -/
def pair : Nat → Build (Node × Node)
  | 0 => throw (.plain "exceeded max depth")
  | fuel + 1 => do
    let next ← look
    let key ← match next.token with
      | .value | .comma | .flowSequenceEnd => do
        pass
        pure (.empty (lineOf next.finish))
      | _ => node false false fuel
    let next ← look
    if next.token == .value then
      pass
      let after ← look
      if after.token == .comma || after.token == .flowSequenceEnd then
        return (key, .empty (lineOf next.start))
      else return (key, ← node false false fuel)
    else return (key, .empty (lineOf next.start))

/-- The entries of a mapping in braces, of which the next is the `first` or stands behind a
comma. -/
def flowEntries (start : Mark) (first : Bool) : Nat → Build (List (Node × Node))
  | 0 => throw (.plain "exceeded max depth")
  | fuel + 1 => do
    let next ← look
    if next.token == .flowMappingEnd then
      pass
      return []
    else if !first && next.token != .comma then throw (unclosed start next "\x7d")
    else
      if !first then pass
      let next ← look
      let endsValue (token : Token) : Bool := token == .comma || token == .flowMappingEnd
      match next.token with
      | .flowMappingEnd => do
        pass
        return []
      | .key => do
        pass
        let after ← look
        let key ←
          if after.token == .value || endsValue after.token then
            pure (.empty (lineOf after.start))
          else node false false fuel
        let next ← look
        let value ←
          if next.token == .value then do
            pass
            let after ← look
            if endsValue after.token then pure (.empty (lineOf after.start))
            else node false false fuel
          else pure (.empty (lineOf next.start))
        return (key, value) :: (← flowEntries start false fuel)
      | _ => do
        let key ← node false false fuel
        let next ← look
        return (key, .empty (lineOf next.start)) :: (← flowEntries start false fuel)

end

/-! ## Documents -/

/-- Whether a token stands outside of documents. -/
def isOuter : Token → Bool
  | .version .. | .handle .. | .documentStart | .documentEnd | .streamEnd => true
  | _ => false

/-- The root of the first document, if there is one. -/
def root (fuel : Nat) : Build (Option Node) := do
  let _ ← look
  pass
  let first ← look
  if first.token == .streamEnd then return none
  else
    let bare := !isOuter first.token || first.token == .documentEnd
    directives fuel false
    if bare then return some (← node true false fuel)
    else
      let next ← look
      if next.token != .documentStart then
        throw (.ofOrder {} next.start "did not find expected <document start>")
      else
        pass
        let after ← look
        if isOuter after.token then return some (.empty (lineOf after.start))
        else return some (← node true false fuel)

end Draw

open Draw in
/-- The first document of a text, if it has one. -/
def read (text : String) : Except Fault (Option Document) := do
  let queue := Queue.ofText text
  let fuel := 16 * queue.source.size + 64
  let (document, _) ← (do
    match ← root fuel with
    | none => return none
    | some root =>
      let _ ← look
      let d ← get
      return some ⟨root, d.named, (d.numbers + 2) * (d.queue.taken + 2)⟩ : Build _).run { queue }
  return document

end Yaml
end ProofKernel
