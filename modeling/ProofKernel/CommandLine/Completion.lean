import ProofKernel.CommandLine.Program

/-!
# The words that may come next

A shell asks which words may stand at the end of a command line, where something may be typed
already: names of commands, of flags, or nothing that the program knows of.

* `Completion.ofWords` answers for the words before the last and the last one.
* `Completion.render` is the answer as shells read it.
* `integrationScript` is the script that makes a shell ask.

A word may be the value of the flag before it, or stand behind a sign of equality; `Request` tells
these apart.
-/

set_option autoImplicit false
namespace ProofKernel
namespace CommandLine

/-- The words that may come next. -/
structure Completion where
  /-- The words, each with what it means. -/
  choices : List (String × String)
  /-- Whether the names of files may come next too. -/
  orFiles : Bool
  /-- Why the question has no good answer. -/
  complaint : Option Text

namespace Completion

/-! ## What is asked for -/

/-- A question about a command: what may stand in place of a word, behind others. -/
structure Request where
  /-- The flag whose value is asked for. -/
  flag : Option Flag
  words : List String
  word : String
  /-- A flag that the command does not have. -/
  unknown : Option Text

/-- The last byte of a word, as a text. -/
def lastByte (word : String) : Text :=
  match word.toUTF8.toList.getLast? with
  | none => []
  | some b => Symbol.decode [b]

/-- The name of a flag as it stands in a word: all behind two dashes, or the last letter behind
one. -/
def flagName (word : String) : Text :=
  if word.startsWith "--" then Text.ofString (String.ofList (word.toList.drop 2)) else lastByte word

/-- Whether a word is a flag. -/
def isFlagWord (word : String) : Bool :=
  match word.toList with
  | '-' :: '-' :: rest => !rest.isEmpty
  | '-' :: _ :: _ => true
  | _ => false

/-- The flag with a name, or with the letter that a name of one byte is. -/
def flagNamed? (flags : List Flag) (name : Text) : Option Flag :=
  if name.width = 1 then
    flags.find? fun f => f.short.map Symbol.char == name.head?
  else flags.find? fun f => Text.ofString f.name == name

/-- The question in a word behind others.  The name of a flag stands before a sign of equality in
the word itself, or is the word before it. -/
def Request.ofWords (flags : List Flag) (words : List String) (word : String) : Request :=
  let dashed := word.startsWith "-"
  if dashed && !word.contains '=' then ⟨none, words, word, none⟩
  else
    let before := String.ofList (word.toList.takeWhile (· != '='))
    let value := if dashed then String.ofList ((word.toList.dropWhile (· != '=')).drop 1) else word
    let own := if dashed then flagName before else []
    let previous := words.getLast?.filter fun w => isFlagWord w && !w.contains '='
    let (name, rest) := match own.isEmpty, previous with
      | true, some w => (flagName w, words.dropLast)
      | _, _ => (own, words)
    if name.isEmpty then ⟨none, rest, value, none⟩
    else
      match flagNamed? flags name with
      | none => ⟨none, words, word, some name⟩
      | some f =>
        if !dashed && f.kind = .switch then ⟨none, words, value, none⟩
        else ⟨some f, rest, value, none⟩

/-! ## Choices -/

/-- Whether a command is named to shells. -/
def isNamed (s : Spec) : Bool :=
  match s.action with
  | some (.complete _) => false
  | some _ => true
  | none => !s.children.isEmpty

/-- The commands below a command. -/
def commandsOf (s : Spec) : List Spec :=
  (s.children.filter isNamed).mergeSort fun a b => a.name ≤ b.name

/-- The commands below a command whose names start with a word. -/
def commandChoices (s : Spec) (word : String) : List (String × String) :=
  ((commandsOf s).filter (·.name.startsWith word)).map fun c => (c.name, c.short)

/-- The names of a flag that start with a word. -/
def namesOf (f : Flag) (word : String) : List (String × String) :=
  let names := ("--" ++ f.name) :: (f.short.map fun c => "-" ++ c.toString).toList
  (names.filter (·.startsWith word)).map fun name => (name, f.usage)

/-- The flags of a command that may still be given, those of the program first. -/
def flagChoices (r : Route) (given : List String) (word : String) : List (String × String) :=
  let sorted (flags : List Flag) : List Flag := flags.mergeSort fun a b => a.name ≤ b.name
  let own := sorted ((if r.isProgram then r.shared else r.spec.flags) ++ [r.helpFlag])
  let inherited := if r.isProgram then [] else sorted r.shared
  (inherited ++ own).flatMap fun f =>
    if given.contains f.name && f.kind != .texts then [] else namesOf f word

/-- The choices for an argument of a command, behind others. -/
def argumentChoices (program r : Route) (args : List String) (word : String) : Completion :=
  match r.spec.argument with
  | .nothing => ⟨[], false, none⟩
  | .command =>
    match find program args with
    | .error _ => ⟨[], false, none⟩
    | .ok (topic, _) => ⟨commandChoices topic.spec word, false, none⟩
  | .file => ⟨[], true, none⟩

/-- The choices for a word that is neither a flag nor the value of one: the commands below, if the
command has no arguments and no flag of its own yet, and what its arguments are. -/
def wordChoices (program r : Route) (i : Invocation) (word : String) : Completion :=
  let descends := i.args.isEmpty && !i.flags.any fun f => r.spec.flags.any (·.name == f.1)
  let commands := if descends then commandChoices r.spec word else []
  let mayDescend := descends && !(commandsOf r.spec).isEmpty
  let others := argumentChoices program r i.args word
  ⟨commands ++ others.choices, others.orFiles && !mayDescend, none⟩

/-- Words between brackets, as errors show them. -/
def bracketed (words : List String) : String :=
  "[" ++ " ".intercalate words ++ "]"

/-- An answer that only complains. -/
def complaining (message : Text) : Completion :=
  ⟨[], true, some message⟩

/-- Whether a command reads no flags. -/
def readsNoFlags (s : Spec) : Bool :=
  match s.action with
  | some (.complete _) => true
  | _ => false

/-- The answer for a command that was found. -/
def ofRequest (program r : Route) (q : Request) (i : Invocation) (areFlags : Bool) : Completion :=
  if i.flags.any (·.1 == "help") then ⟨[], false, none⟩
  else if q.flag.isSome then
    if areFlags then ⟨[], true, none⟩ else argumentChoices program r i.args q.word
  else if areFlags && q.word.startsWith "-" && !q.word.contains '=' then
    ⟨flagChoices r (i.flags.map Prod.fst) q.word, false, none⟩
  else wordChoices program r i q.word

/-- The words that may stand in place of a word, behind others. -/
def ofWords (program : Route) (words : List String) (word : String) : Completion :=
  match find program words with
  | .error _ => complaining (Text.ofString
      ("unable to find a command for arguments: " ++ bracketed words))
  | .ok (r, rest) =>
    if readsNoFlags r.spec then ofRequest program r ⟨none, rest, word, none⟩ ⟨[], rest⟩ true
    else
      let flags := r.flags ++ [r.helpFlag]
      let q := Request.ofWords flags rest word
      match Flag.parse flags q.words with
      | .error e => complaining (Text.ofString
          ("Error while parsing flags from args " ++ bracketed q.words ++ ": " ++ e.message))
      | .ok i =>
        let areFlags := match Flag.parse flags (q.words ++ ["--"]) with
          | .ok j => j.args.length ≤ i.args.length
          | .error _ => true
        match q.unknown.filter fun _ => areFlags with
        | some name => complaining (Text.ofString ("Subcommand '" ++ r.spec.name ++
            "' does not support flag '") ++ name ++ Text.ofString "'")
        | none => ofRequest program r q i areFlags

/-! ## Answers -/

/-- The words, a line for each, and a number that says whether files may come next. -/
def render (c : Completion) (withMeanings : Bool) : String :=
  String.join (c.choices.map fun (name, meaning) =>
    name ++ (if withMeanings && !meaning.isEmpty then "\t" ++ meaning else "") ++ "\n") ++
    (if c.orFiles then ":0\n" else ":4\n")

/-- What is said beside the answer. -/
def remarks (c : Completion) : Text :=
  (match c.complaint with
    | some message => Text.ofString "[Debug] [Error] " ++ message ++ [.char '\n']
    | none => []) ++
  Text.ofString ("Completion ended with directive: " ++
    (if c.orFiles then "ShellCompDirectiveDefault" else "ShellCompDirectiveNoFileComp") ++ "\n")

end Completion

/-- The script that makes a shell ask for words, with or without what they mean. -/
def integrationScript (shell : Shell) (withMeanings : Bool) : String :=
  let ask := if withMeanings then "kernel __complete" else "kernel __completeNoDesc"
  match shell with
  | .bash => "_kernel() \x7b\n  local IFS=$'\\n'\n  COMPREPLY=($(" ++ ask ++
      " \"$\x7bCOMP_WORDS[@]:1:COMP_CWORD\x7d\" 2>/dev/null | sed -e '$d' -e 's/\\t.*//'))\n" ++
      "\x7d\ncomplete -o default -F _kernel kernel\n"
  | .zsh => "#compdef kernel\n_kernel() \x7b\n  local -a choices\n  choices=($\x7b(f)\"$(" ++ ask ++
      " \"$\x7bwords[@]:1:$((CURRENT-1))\x7d\" 2>/dev/null | sed -e '$d' -e 's/\\t/:/')\"\x7d)\n" ++
      "  _describe kernel choices\n\x7d\ncompdef _kernel kernel\n"
  | .fish => "complete -c kernel -a '(" ++ ask ++
      " (commandline -opc)[2..] (commandline -ct) 2>/dev/null | sed \"\\$d\")'\n"
  | .powershell => "Register-ArgumentCompleter -Native -CommandName kernel -ScriptBlock \x7b\n" ++
      "  param($word, $line)\n  $words = @($line.CommandElements | Select-Object -Skip 1)\n" ++
      "  " ++ ask ++ " @words 2>$null | Select-Object -SkipLast 1 |\n" ++
      "    ForEach-Object \x7b ($_ -split \"\x60t\")[0] \x7d\n\x7d\n"

end CommandLine
end ProofKernel
