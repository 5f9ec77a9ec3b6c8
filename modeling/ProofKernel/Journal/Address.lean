import ProofKernel.Form.UrlEncoded

/-!
# Addresses of journals

A journal is named by the path of its file, by a word that keeps it in memory, or by a locator: the
word `file:`, a path with bytes behind percent signs, and options behind a question mark.

* `Address.place` says where an address leads, and how the file there may be used.
* `Address.Flaw` says why it leads nowhere.

Behind a plain path a question mark starts options too, but only those are read that concern the
connection.
-/

set_option autoImplicit false
namespace ProofKernel
namespace Address

/-- How the file of a journal is used. -/
inductive Access where
  /-- It is made when it is not there. -/
  | create
  | existing
  | readOnly
deriving DecidableEq

/-- Where a journal is kept. -/
inductive Place where
  | memory
  | file (path : String) (access : Access)
deriving DecidableEq

/-- Why an address leads nowhere. -/
inductive Flaw where
  | semicolon
  /-- A percent sign without two digits behind it. -/
  | badEscape (piece : Text)
  | manySystems (names : List Text)
  /-- An option has a value that it cannot have, or a locator names another machine. -/
  | refused
  | badLock (name : Text)
deriving DecidableEq

/-- The wording of a flaw. -/
def Flaw.message : Flaw → String
  | semicolon => "invalid semicolon separator in query"
  | badEscape piece => "invalid URL escape " ++ quoteText piece
  | manySystems names =>
    "conflicting vfs query parameters: [" ++ " ".intercalate (names.map Text.toString) ++ "]"
  | refused => "SQL logic error: out of memory (1)"
  | badLock name => "unknown _txlock " ++ quoteText name

/-- The name of a journal that is kept in no file. -/
def memoryName : String :=
  ":memory:"

/-! ## Options of the connection -/

/-- The first percent sign that has no two digits behind it, with what stands there instead. -/
def badEscape? : List UInt8 → Option (List UInt8)
  | [] => none
  | b :: rest =>
    if b == Percent.sign && !((rest.take 2).length == 2 &&
        (rest.take 2).all fun d => (Percent.digit? d).isSome) then
      some (b :: rest.take 2)
    else badEscape? rest

/-- The flaw of an option that is written badly. -/
def flawOf? (piece : Text) : Option Flaw :=
  if piece.any (·.is ';') then some .semicolon
  else (badEscape? (Symbol.encode piece)).map fun bytes => .badEscape (Symbol.decode bytes)

/-- Options, if all of them are written well.  A semicolon is the worse flaw. -/
def connectionOptions (query : Text) : Except Flaw Form :=
  let flaws := (query.splitOn (.char '&')).filterMap flawOf?
  if flaws.contains .semicolon then .error .semicolon
  else
    match flaws with
    | flaw :: _ => .error flaw
    | [] => .ok (Form.ofUrlEncoded query)

/-- The values of an option. -/
def valuesOf (options : Form) (name : String) : List Text :=
  (options.filter fun o => o.1 == Text.ofString name).map Prod.snd

/-- The file systems that journals can be kept in; the last one is no file system but memory. -/
def systems : List String :=
  ["", "unix", "unix-none", "unix-dotfile", "unix-excl", "memdb"]

/-- The file system that options name; empty when they name none. -/
def systemOf (options : Form) : Except Flaw Text :=
  match (valuesOf options "vfs").filter (!·.isEmpty) with
  | [] => .ok []
  | name :: others =>
    if others.all (· == name) then .ok name else .error (.manySystems (valuesOf options "vfs"))

/-- Whether a lock can be asked for. -/
def isLock (name : Text) : Bool :=
  ["", "deferred", "immediate", "exclusive"].contains (name.toString.map Char.toLower)

/-! ## Locators -/

/-- Reads bytes behind percent signs.  A percent sign without two digits stands for itself, and a
byte that is zero ends the text. -/
def unescape : List UInt8 → List UInt8
  | [] => []
  | [b] => [b]
  | [b, c] => [b, c]
  | b :: high :: low :: rest =>
    match b == Percent.sign, Percent.digit? high, Percent.digit? low with
    | true, some h, some l =>
      if h * 16 + l = 0 then [] else UInt8.ofNat (h * 16 + l) :: unescape rest
    | _, _, _ => b :: unescape (high :: low :: rest)

/-- A piece of a locator as it is meant. -/
def unescaped (piece : Text) : Text :=
  Symbol.decode (unescape (Symbol.encode piece))

/-- An option of a locator: a name, and a value behind a sign of equality. -/
def locatorOption (piece : Text) : Text × Text :=
  (unescaped (piece.takeWhile (!·.is '=')), unescaped ((piece.dropWhile (!·.is '=')).drop 1))

/-- What is known about a file while the options of its locator are read. -/
structure Plan where
  system : Text
  access : Access
  inMemory : Bool

/-- Adds an option to a plan.  Options without a meaning are passed over. -/
def Plan.add (plan : Plan) (option : Text × Text) : Except Flaw Plan :=
  let (name, value) := (option.1.toString, option.2.toString)
  match name, value with
  | "vfs", _ => .ok { plan with system := option.2 }
  | "cache", "shared" | "cache", "private" => .ok plan
  | "cache", _ => .error .refused
  | "mode", "ro" => .ok { plan with access := .readOnly, inMemory := false }
  | "mode", "rw" => .ok { plan with access := .existing, inMemory := false }
  | "mode", "rwc" => .ok { plan with access := .create, inMemory := false }
  | "mode", "memory" => .ok { plan with inMemory := true }
  | "mode", _ => .error .refused
  | _, _ => .ok plan

/-- The place of a file by its name and what is known about it.  A file without a name is kept in
memory. -/
def Plan.place (plan : Plan) (name : Text) : Except Flaw Place :=
  let system := plan.system.toString
  if !systems.contains system then .error .refused
  else if plan.inMemory || system == "memdb" || name.isEmpty || name.toString == memoryName then
    .ok .memory
  else .ok (.file name.toString plan.access)

/-- A locator without the name of the machine, which may only be this one. -/
def withoutMachine (text : Text) : Except Flaw Text :=
  if text.startsWith "//" then
    let machine := (text.drop 2).takeWhile (!·.is '/')
    if machine.isEmpty || machine == Text.ofString "localhost" then
      .ok ((text.drop 2).dropWhile (!·.is '/'))
    else .error .refused
  else .ok text

/-- The place that a locator names, from behind the word it starts with. -/
def locate (system : Text) (text : Text) : Except Flaw Place := do
  let text ← withoutMachine text
  let text := text.takeWhile (!·.is '#')
  let name := unescaped (text.takeWhile (!·.is '?'))
  let query := (text.dropWhile (!·.is '?')).drop 1
  let options := ((query.splitOn (.char '&')).map locatorOption).filter fun o => !o.1.isEmpty
  let plan ← options.foldlM Plan.add ⟨system, .create, false⟩
  plan.place name

/-! ## Addresses -/

/-- Where an address leads. -/
def place (address : String) : Except Flaw Place := do
  let text := Text.ofString address
  let path := text.takeWhile (!·.is '?')
  if path.isEmpty then return .file address .create
  let options ← connectionOptions ((text.drop path.length).drop 1)
  let system ← systemOf options
  let found ← if text.startsWith "file:" then locate system (text.drop 5)
    else Plan.place ⟨system, .create, false⟩ path
  let lock := ((valuesOf options "_txlock").head?).getD []
  if isLock lock then return found else throw (.badLock lock)

end Address
end ProofKernel
