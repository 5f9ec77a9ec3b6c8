import ProofKernel.Script.Command
import ProofKernel.Script.Lexer
import ProofKernel.Text.Composed

/-!
# Parsing scripts

```text
term    ::= fun binders => term | forall binders , term | fix name => term
          | match app return app with (| name name* => term)* [end]
          | app [-> term]
app     ::= atom atom*
atom    ::= ( term ) | integer | float | string | _ | Prop | Type [integer] | name
binders ::= name name* : term | (( name name* : term ))+
command ::= Definition name (( name+ : term ))* [: term] := term .
          | Axiom name (( name+ : term ))* : term .
          | Inductive name (( name+ : term ))* [: term] := [|] [name : term (| name : term)*] .
          | Check term . | Eval term . | Hint name .
```

A name is read as a variable inside the scope of a binder of that name and as a global elsewhere.
The scope of the names of a group `x … : T` starts after `T`.

* `parseTerm`, `parseCommand` and `parseScript` read a whole text, which is composed first.

The functions on terms call each other at most `Parser.fuel` deep on a list of tokens: a call either
takes a token or goes one step down the grammar above, which is four steps deep.
-/

set_option autoImplicit false
namespace ProofKernel

/-- A reader of tokens. -/
abbrev Parser (α : Type) : Type := StateT (List Token) (Except Fault) α

namespace Parser

/-! ## Single tokens -/

/-- The next token.  A list of tokens ends with the end of input, which is never taken. -/
def peek : Parser Token := do
  match ← get with
  | [] => return default
  | t :: _ => return t

/-- Takes the next token. -/
def advance : Parser Token := do
  let t ← peek
  if t.word ≠ .endOfInput then modify List.tail
  return t

/-- Fails at a place. -/
def fail {α : Type} (position : Position) (flaw : Flaw) : Parser α :=
  throw ⟨position, flaw⟩

/-- Fails because the next token is not what was expected. -/
def unexpected {α : Type} (what : String) : Parser α := do
  let t ← peek
  fail t.position (.expected what t.word)

/-- Whether the next token is this word. -/
def sees (w : Word) : Parser Bool := do
  return (← peek).word = w

/-- Takes the next token if it is this word. -/
def accept (w : Word) : Parser Bool := do
  if ← sees w then
    let _ ← advance
    return true
  return false

/-- Takes this word. -/
def expect (w : Word) : Parser Unit := do
  if ← accept w then return
  unexpected w.describe

/-- The name at the front, if there is one. -/
def peekName? : Parser (Option String) := do
  return (← peek).word.name?

/-- Takes a name. -/
def name : Parser String := do
  match ← peekName? with
  | some x =>
    let _ ← advance
    return x
  | none => unexpected "identifier"

/-- The names at the front of a list of tokens, and the tokens after them. -/
def splitNames : List Token → List String × List Token
  | [] => ([], [])
  | t :: rest =>
    match t.word.name? with
    | some x =>
      let (names, after) := splitNames rest
      (x :: names, after)
    | none => ([], t :: rest)

/-- Takes as many names as there are. -/
def names : Parser (List String) := do
  let (found, rest) := splitNames (← get)
  set rest
  return found

/-! ## Atoms -/

/-- The value of decimal digits. -/
def readNat (digits : List Char) : Nat :=
  digits.foldl (fun n c => 10 * n + (c.toNat - 48)) 0

/-- The value of a whole number with an optional sign, if it fits into 64 bits. -/
def readInt? (digits : String) : Option Int64 :=
  let value : Int := match digits.toList with
    | '-' :: rest => -(readNat rest : Int)
    | all => readNat all
  if Int64.minValue.toInt ≤ value && value ≤ Int64.maxValue.toInt then some (Int64.ofInt value)
  else none

/-- The value of a number with an optional sign, fraction and exponent, unless it is too large. -/
def readFloat? (text : String) : Option Binary64 :=
  let (negative, digits) := match text.toList with
    | '-' :: rest => (true, rest)
    | all => (false, all)
  let whole := digits.takeWhile Char.isDigit
  let rest := digits.dropWhile Char.isDigit
  let (part, rest) := match rest with
    | '.' :: tail => (tail.takeWhile Char.isDigit, tail.dropWhile Char.isDigit)
    | _ => ([], rest)
  let power : Int := match rest with
    | _ :: '-' :: tail => -(readNat tail : Int)
    | _ :: '+' :: tail => readNat tail
    | _ :: tail => readNat tail
    | [] => 0
  Binary64.ofDecimal? negative (readNat (whole ++ part)) (power - part.length)

/-- The digits of a name `Type…`, if the rest of it is digits. -/
def levelDigits? (name : String) : Option (List Char) :=
  match name.toList with
  | 'T' :: 'y' :: 'p' :: 'e' :: digits =>
    if !digits.isEmpty && digits.all Char.isDigit then some digits else none
  | _ => none

/-- The level of digits, if it fits into 64 bits. -/
def readLevel? (digits : List Char) : Option Int64 :=
  let value := readNat digits
  if (value : Int) ≤ Int64.maxValue.toInt then some (Int64.ofNat value) else none

/-- A name as a term: a sort, a hole, a variable in scope or a global.  The level of `Type` may
follow as a word of its own. -/
def reference (scope : List String) (position : Position) (x : String) : Parser Term := do
  if x = Term.placeholder then return .hole
  if x = "Prop" then return .sort .prop
  if x = "Type" then
    let t ← peek
    match t.word with
    | .integer digits =>
      if digits.startsWith "-" then return .sort (.type 0)
      let _ ← advance
      match readLevel? digits.toList with
      | some level => return .sort (.type level)
      | none => fail t.position (.levelRange digits)
    | _ => return .sort (.type 0)
  match levelDigits? x with
  | some digits =>
    match readLevel? digits with
    | some level => return .sort (.type level)
    | none => fail position (.levelRange x)
  | none => return if x ∈ scope then .var x else .global x

/-- Whether a word can start an atom. -/
def startsAtom : Word → Bool
  | .openParen | .integer _ | .float _ | .string _ => true
  | w => w.name?.isSome

/-! ## Terms -/

/-- The names of a telescope come into scope. -/
def extend (scope : List String) (binders : Telescope) : List String :=
  (binders.map Prod.fst).reverse ++ scope

mutual

/-- Reads a term in a scope. -/
def term (fuel : Nat) (scope : List String) : Parser Term :=
  match fuel with
  | 0 => unexpected "term"
  | n + 1 => do
    match (← peek).word with
    | .ident "fun" =>
      let _ ← advance
      let binders ← binders n scope
      expect .doubleArrow
      let body ← term n (extend scope binders)
      return Term.lams binders body
    | .ident "forall" =>
      let _ ← advance
      let binders ← binders n scope
      expect .comma
      let body ← term n (extend scope binders)
      return Term.pis binders body
    | .ident "fix" =>
      let _ ← advance
      let self ← name
      expect .doubleArrow
      let body ← term n (self :: scope)
      return .fix self body
    | .ident "match" =>
      let _ ← advance
      let scrutinee ← application n scope
      expect (.ident "return")
      let motive ← application n scope
      expect (.ident "with")
      let cases ← cases n scope
      let _ ← accept (.ident "end")
      return .elim scrutinee motive cases
    | _ =>
      let left ← application n scope
      if ← accept .arrow then
        let right ← term n scope
        return .arrow left right
      return left

/-- Reads the cases of a match. -/
def cases (fuel : Nat) (scope : List String) : Parser (List Term) :=
  match fuel with
  | 0 => return []
  | n + 1 => do
    if ← accept .bar then
      let _ ← name
      let fields ← names
      expect .doubleArrow
      let body ← term n (fields.reverse ++ scope)
      let rest ← cases n scope
      return Term.lams (fields.map fun x => (x, .global Term.placeholder)) body :: rest
    return []

/-- Reads an atom and the atoms it is applied to. -/
def application (fuel : Nat) (scope : List String) : Parser Term :=
  match fuel with
  | 0 => unexpected "term"
  | n + 1 => do
    let fn ← atom n scope
    arguments n scope fn

/-- Reads the atoms a term is applied to. -/
def arguments (fuel : Nat) (scope : List String) (fn : Term) : Parser Term :=
  match fuel with
  | 0 => return fn
  | n + 1 => do
    if startsAtom (← peek).word then
      let arg ← atom n scope
      arguments n scope (.app fn arg)
    else return fn

/-- Reads an atom. -/
def atom (fuel : Nat) (scope : List String) : Parser Term :=
  match fuel with
  | 0 => unexpected "term"
  | n + 1 => do
    let t ← peek
    match t.word with
    | .openParen =>
      let _ ← advance
      let inner ← term n scope
      expect .closeParen
      return inner
    | .integer digits =>
      let _ ← advance
      match readInt? digits with
      | some value => return .lit (.int value)
      | none => fail t.position (.integerRange digits)
    | .float digits =>
      let _ ← advance
      match readFloat? digits with
      | some value => return .lit (.float value)
      | none => fail t.position (.floatRange digits)
    | .string value =>
      let _ ← advance
      return .lit (.text value)
    | w =>
      match w.name? with
      | some x =>
        let _ ← advance
        reference scope t.position x
      | none => unexpected "term"

/-- Reads one bare group of binders, or parenthesized groups. -/
def binders (fuel : Nat) (scope : List String) : Parser Telescope :=
  match fuel with
  | 0 => unexpected "binder name"
  | n + 1 => do
    if ← sees .openParen then groups n scope else group n scope

/-- Reads parenthesized groups of binders, each in the scope of those before it. -/
def groups (fuel : Nat) (scope : List String) : Parser Telescope :=
  match fuel with
  | 0 => return []
  | n + 1 => do
    if ← accept .openParen then
      let first ← group n scope
      expect .closeParen
      let rest ← groups n (extend scope first)
      return first ++ rest
    return []

/-- Reads names that share a type. -/
def group (fuel : Nat) (scope : List String) : Parser Telescope :=
  match fuel with
  | 0 => unexpected "binder name"
  | n + 1 => do
    let bound ← names
    if bound.isEmpty then unexpected "binder name"
    expect .colon
    let type ← term n scope
    return bound.map fun x => (x, type)

end

/-! ## Commands -/

/-- Reads constructors, separated by bars. -/
def constructors (fuel : Nat) (scope : List String) : Nat → Parser Telescope
  | 0 => return []
  | n + 1 => do
    match ← peekName? with
    | none => return []
    | some _ =>
      let c ← name
      expect .colon
      let type ← term fuel scope
      if ← accept .bar then
        let rest ← constructors fuel scope n
        return (c, type) :: rest
      return [(c, type)]

/-- Reads what follows `Definition`. -/
def definition (fuel : Nat) : Parser Declaration := do
  let x ← name
  let binders ← groups fuel []
  let scope := extend [] binders
  let type ← do
    if ← accept .colon then
      let type ← term fuel scope
      pure (some (Term.pis binders type))
    else pure none
  expect .assign
  let body ← term fuel scope
  return .definition x type (Term.lams binders body)

/-- Reads what follows `Axiom`. -/
def postulate (fuel : Nat) : Parser Declaration := do
  let x ← name
  let binders ← groups fuel []
  expect .colon
  let type ← term fuel (extend [] binders)
  return .postulate x (Term.pis binders type)

/-- Reads what follows `Inductive`. -/
def family (fuel : Nat) : Parser Declaration := do
  let x ← name
  let params ← groups fuel []
  let scope := extend [] params
  let sort ← do
    if ← accept .colon then
      let sort ← term fuel scope
      pure (some sort)
    else pure none
  expect .assign
  let _ ← accept .bar
  let found ← constructors fuel scope fuel
  return .family x params sort found

/-- Reads a statement up to its closing period. -/
def statement (fuel : Nat) : Parser Statement := do
  let t ← peek
  match t.word with
  | .ident word =>
    match word with
    | "Definition" =>
      let _ ← advance
      return .declare (← definition fuel)
    | "Axiom" =>
      let _ ← advance
      return .declare (← postulate fuel)
    | "Inductive" =>
      let _ ← advance
      return .declare (← family fuel)
    | "Check" =>
      let _ ← advance
      return .check (← term fuel [])
    | "Eval" =>
      let _ ← advance
      return .eval (← term fuel [])
    | "Hint" =>
      let _ ← advance
      return .hint (← name)
    | _ => fail t.position (.unknownCommand word)
  | _ => unexpected "command"

/-- Reads a command.  Unless it is `terminated`, its period may be left out at the end of input. -/
def command (fuel : Nat) (terminated : Bool) : Parser Command := do
  let before ← get
  let first ← peek
  let said ← statement fuel
  let rest ← get
  let written := Token.source (before.take (before.length - rest.length))
  if ← accept .dot then
    let rest ← get
    return ⟨first.position, Token.source (before.take (before.length - rest.length)), said⟩
  if !terminated && (← sees .endOfInput) then
    return ⟨first.position, written ++ [.char '.'], said⟩
  unexpected Word.dot.describe

/-- Reads commands up to the end of input. -/
def commands (fuel : Nat) : Nat → Parser (List Command)
  | 0 => return []
  | n + 1 => do
    if ← sees .endOfInput then return []
    let first ← command fuel true
    let rest ← commands fuel n
    return first :: rest

/-! ## Whole texts -/

/-- A depth of calls that no list of tokens exceeds. -/
def fuel (tokens : List Token) : Nat :=
  4 * tokens.length + 4

/-- Reads a whole text, which is composed first. -/
def whole {α : Type} (path : String) (text : Text) (rule : Nat → Parser α) (what : String) :
    Except SyntaxError α :=
  let read : Except Fault α := do
    let tokens ← Lexer.tokens text.composed
    let close : Parser α := do
      let value ← rule (fuel tokens)
      if ← sees .endOfInput then return value
      unexpected what
    return (← close.run tokens).1
  read.mapError fun fault => ⟨path, fault⟩

end Parser

/-- Reads a term. -/
def parseTerm (text : Text) : Except SyntaxError Term :=
  Parser.whole "" text (fun fuel => Parser.term fuel []) "end of term"

/-- Reads a single command.  Its closing period may be left out. -/
def parseCommand (text : Text) : Except SyntaxError Command :=
  Parser.whole "" text (fun fuel => Parser.command fuel false) "end of command"

/-- Reads a script. -/
def parseScript (path : String) (text : Text) : Except SyntaxError Script :=
  (Parser.whole path text (fun fuel => Parser.commands fuel fuel) "end of script").map
    fun commands => ⟨path, commands⟩

end ProofKernel
