import ProofKernel.CommandLine.Duration
import ProofKernel.Decimal.Numeral
import ProofKernel.Text.Fields
import ProofKernel.Text.Quoted

/-!
# Flags

The flags on a command line: `--name value`, `--name=value`, `-n value`, `-nvalue`, `-n=value`, and
several switches as `-abc`.  Flags and arguments may be mixed; behind `--` there are arguments only.

* `Flag.parse` reads a command line, and fails on flags that are unknown or have a bad value.
* `Invocation` gives the values of the flags.
-/

set_option autoImplicit false
namespace ProofKernel
namespace CommandLine

/-- What a flag takes. -/
inductive FlagKind where
  /-- Nothing, or a truth value behind a sign of equality. -/
  | switch
  | text
  | number
  | duration
  /-- Texts divided by commas; the flag may be given several times. -/
  | texts
deriving DecidableEq, Repr

/-- A flag. -/
structure Flag where
  name : String
  short : Option Char
  kind : FlagKind
  usage : String
  /-- The value without the flag, where the usage does not say it. -/
  shownDefault : String
deriving DecidableEq

/-- Why a command line cannot be read. -/
inductive FlagError where
  | badSyntax (word : String)
  | unknown (name : String)
  | unknownShort (name : Char) (letters : String)
  | needsValue (name : String)
  | shortNeedsValue (name : Char) (letters : String)
  | badValue (value : String) (flag : Flag) (reason : String)
deriving DecidableEq

/-- A flag as errors call it. -/
def Flag.label (f : Flag) : String :=
  match f.short with
  | some c => "-" ++ c.toString ++ ", --" ++ f.name
  | none => "--" ++ f.name

/-- The wording of an error. -/
def FlagError.message : FlagError → String
  | badSyntax word => "bad flag syntax: " ++ word
  | unknown name => "unknown flag: --" ++ name
  | unknownShort c letters => "unknown shorthand flag: " ++ quoteChar c ++ " in -" ++ letters
  | needsValue name => "flag needs an argument: --" ++ name
  | shortNeedsValue c letters => "flag needs an argument: " ++ quoteChar c ++ " in -" ++ letters
  | badValue value flag reason =>
    "invalid argument " ++ quote value ++ " for " ++ quote flag.label ++ " flag: " ++ reason

/-! ## Values -/

/-- A truth value. -/
def truth? (value : String) : Option Bool :=
  if ["1", "t", "T", "TRUE", "true", "True"].contains value then some true
  else if ["0", "f", "F", "FALSE", "false", "False"].contains value then some false
  else none

/-- The texts of a list; an empty value has none. -/
def textsOf (value : String) : Except Fields.Flaw (List String) :=
  if value.isEmpty then .ok [] else Fields.first value

/-- What is wrong with the value of a flag. -/
def FlagKind.flaw? (kind : FlagKind) (value : String) : Option String :=
  match kind with
  | .text => none
  | .switch =>
    if (truth? value).isSome then none
    else some ("strconv.ParseBool: parsing " ++ quote value ++ ": invalid syntax")
  | .number =>
    match Numeral.integer .marked value.toList with
    | .ok _ => none
    | .error fault => some ("strconv.ParseInt: parsing " ++ quote value ++ ": " ++ fault.message)
  | .duration =>
    match Duration.read value with
    | .ok _ => none
    | .error flaw => some (flaw.message value)
  | .texts =>
    match textsOf value with
    | .ok _ => none
    | .error flaw => some flaw.message

/-! ## Command lines -/

/-- The flags that were given, with their values, and the arguments. -/
structure Invocation where
  flags : List (String × String)
  args : List String
deriving DecidableEq

namespace Invocation

/-- The value of a flag that was given last. -/
def text (i : Invocation) (name fallback : String) : String :=
  (i.flags.reverse.lookup name).getD fallback

/-- Whether a switch is on. -/
def isOn (i : Invocation) (name : String) : Bool :=
  ((i.flags.reverse.lookup name).bind truth?).getD false

/-- The number given last. -/
def number (i : Invocation) (name : String) (fallback : Int) : Int :=
  match (i.flags.reverse.lookup name).map fun v => Numeral.integer .marked v.toList with
  | some (.ok n) => n
  | _ => fallback

/-- All texts that were given for a flag. -/
def texts (i : Invocation) (name : String) : List String :=
  (i.flags.filter fun f => f.1 == name).flatMap fun f =>
    match textsOf f.2 with
    | .ok values => values
    | .error _ => []

/-- The invocation with a flag. -/
def give (i : Invocation) (f : Flag) (value : String) : Except FlagError Invocation :=
  match f.kind.flaw? value with
  | some reason => .error (.badValue value f reason)
  | none => .ok { i with flags := i.flags ++ [(f.name, value)] }

end Invocation

namespace Flag

/-- The character with the code of the first byte of a character. -/
def leadByte (c : Char) : Char :=
  Char.ofNat (((String.utf8EncodeChar c).head?.map UInt8.toNat).getD 0)

/-- Letters that are meant for the frame a test runs in. -/
def areForTests (letters : List Char) : Bool :=
  "test.".toList.isPrefixOf letters

/-- Reads the letters behind a dash.  Returns the words that are left: a flag that needs a value
takes the rest of the letters, or else the next word.  Letters for tests are passed over. -/
def parseLetters (flags : List Flag) (words : List String) (i : Invocation) :
    List Char → Except FlagError (List String × Invocation)
  | [] => .ok (words, i)
  | c :: rest =>
    if areForTests (c :: rest) then .ok (words, i)
    else
      match flags.find? (·.short == some c) with
      | none => .error (.unknownShort (leadByte c) (String.ofList (c :: rest)))
      | some f =>
        match rest with
        | '=' :: d :: value => do
          let i ← i.give f (String.ofList (d :: value))
          return (words, i)
        | _ =>
          if f.kind = .switch then
            match i.give f "true" with
            | .error e => .error e
            | .ok i => parseLetters flags words i rest
          else if !rest.isEmpty then do
            let i ← i.give f (String.ofList rest)
            return (words, i)
          else
            match words with
            | value :: words => do
              let i ← i.give f value
              return (words, i)
            | [] => .error (.shortNeedsValue c (String.ofList (c :: rest)))

/-- Reads the name behind two dashes.  Returns the words that are left. -/
def parseLong (flags : List Flag) (word : String) (words : List String) (i : Invocation) :
    Except FlagError (List String × Invocation) :=
  let text := word.toList.drop 2
  if text.head? == some '-' || text.head? == some '=' then .error (.badSyntax word)
  else
    let name := String.ofList (text.takeWhile (· != '='))
    match flags.find? (·.name == name) with
    | none => .error (.unknown name)
    | some f =>
      match text.dropWhile (· != '=') with
      | '=' :: value => do
        let i ← i.give f (String.ofList value)
        return (words, i)
      | _ =>
        if f.kind = .switch then do
          let i ← i.give f "true"
          return (words, i)
        else
          match words with
          | value :: words => do
            let i ← i.give f value
            return (words, i)
          | [] => .error (.needsValue name)

/-- Reads words, at most `fuel` of them. -/
def parseWords (flags : List Flag) : Nat → List String → Invocation → Except FlagError Invocation
  | 0, _, i => .ok i
  | _ + 1, [], i => .ok i
  | fuel + 1, word :: words, i =>
    match word.toList with
    | ['-', '-'] => .ok { i with args := i.args ++ words }
    | '-' :: '-' :: _ => do
      let (words, i) ← parseLong flags word words i
      parseWords flags fuel words i
    | '-' :: c :: letters => do
      let (words, i) ← parseLetters flags words i (c :: letters)
      parseWords flags fuel words i
    | _ => parseWords flags fuel words { i with args := i.args ++ [word] }

/-- Reads a command line. -/
def parse (flags : List Flag) (words : List String) : Except FlagError Invocation :=
  parseWords flags words.length words ⟨[], []⟩

end Flag

end CommandLine
end ProofKernel
