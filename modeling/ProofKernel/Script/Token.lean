import ProofKernel.Text.Quoted
import ProofKernel.Text.Symbol

/-!
# Tokens

The words of a script, with their places in it.

* `Position` is a place in a text: a byte offset, a line and a column.
* `Token` is a word with the text it was read from and the gap of white space and comments before
  it, so that the tokens of a script give back the script.
* `Fault` is a syntax error: its cause and its place.
-/

set_option autoImplicit false
namespace ProofKernel

/-! ## Positions -/

/-- A place in a text. -/
structure Position where
  /-- Bytes before the place. -/
  offset : Nat
  /-- Lines are numbered from 1. -/
  line : Nat
  /-- Columns are numbered from 1 and count symbols. -/
  column : Nat
deriving DecidableEq, Repr, Inhabited

namespace Position

/-- The start of a text. -/
def start : Position :=
  ⟨0, 1, 1⟩

/-- The place after a symbol. -/
def next (p : Position) (s : Symbol) : Position :=
  if s.is '\n' then ⟨p.offset + s.width, p.line + 1, 1⟩
  else ⟨p.offset + s.width, p.line, p.column + 1⟩

/-- The place after a text. -/
def after (p : Position) (text : Text) : Position :=
  text.foldl next p

@[simp] theorem after_nil (p : Position) : p.after [] = p := rfl

theorem after_append (p : Position) (s t : Text) : p.after (s ++ t) = (p.after s).after t := by
  simp [after]

/-- A place as line and column. -/
def render (p : Position) : String :=
  toString p.line ++ ":" ++ toString p.column

end Position

/-! ## Tokens -/

/-- The kinds of words. -/
inductive Word where
  | endOfInput
  | ident (name : String)
  | integer (digits : String)
  | float (digits : String)
  | string (value : String)
  | openParen
  | closeParen
  | colon
  | assign
  | comma
  | dot
  | bar
  | doubleArrow
  | arrow
deriving DecidableEq, Repr, Inhabited

namespace Word

/-- A word as messages name it. -/
def describe : Word → String
  | endOfInput => "end of input"
  | ident name => quote name
  | integer digits => quote digits
  | float digits => quote digits
  | string value => "string " ++ quote value
  | openParen => "'('"
  | closeParen => "')'"
  | colon => "':'"
  | assign => "':='"
  | comma => "','"
  | dot => "'.'"
  | bar => "'|'"
  | doubleArrow => "'=>'"
  | arrow => "'->'"

/-- The words that cannot be used as names. -/
def keywords : List String :=
  ["fun", "forall", "fix", "match", "return", "with", "end"]

/-- The name a word can be used as. -/
def name? : Word → Option String
  | ident name => if name ∈ keywords then none else some name
  | _ => none

end Word

/-- A word and where it stands. -/
structure Token where
  word : Word
  /-- White space and comments before the word. -/
  gap : Text
  /-- The text of the word. -/
  lexeme : Text
  /-- Where the word starts. -/
  position : Position
deriving DecidableEq, Repr, Inhabited

namespace Token

/-- Where the word ends. -/
def stop (t : Token) : Position :=
  t.position.after t.lexeme

/-- The text of tokens from the first word to the last. -/
def source : List Token → Text
  | [] => []
  | t :: rest => t.lexeme ++ rest.flatMap fun u => u.gap ++ u.lexeme

end Token

/-! ## Syntax errors -/

/-- What can be wrong with a script. -/
inductive Flaw where
  | openComment
  | openString
  | character (c : Char)
  | expected (what : String) (found : Word)
  | integerRange (digits : String)
  | floatRange (digits : String)
  | levelRange (text : String)
  | unknownCommand (name : String)
deriving DecidableEq, Repr

/-- The wording of a flaw. -/
def Flaw.message : Flaw → String
  | openComment => "unterminated comment"
  | openString => "unterminated string"
  | character c => "unexpected character " ++ quoteChar c
  | expected what found => "expected " ++ what ++ ", found " ++ found.describe
  | integerRange digits => "integer literal " ++ digits ++ " out of range"
  | floatRange digits => "invalid float literal " ++ digits
  | levelRange text => "universe level " ++ text ++ " out of range"
  | unknownCommand name => "unknown command " ++ quote name

/-- A flaw and its place. -/
structure Fault where
  position : Position
  flaw : Flaw
deriving DecidableEq, Repr

/-- A fault in a script; a text that is no file has an empty path. -/
structure SyntaxError where
  path : String
  fault : Fault
deriving DecidableEq, Repr

/-- The wording of a syntax error: path, place and flaw. -/
def SyntaxError.message (e : SyntaxError) : String :=
  let at_ := e.fault.position.render ++ ": " ++ e.fault.flaw.message
  if e.path = "" then at_ else e.path ++ ":" ++ at_

end ProofKernel
