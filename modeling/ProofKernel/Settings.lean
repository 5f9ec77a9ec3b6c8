import ProofKernel.Environment
import ProofKernel.Text.Quoted
import ProofKernel.Trace
import ProofKernel.Yaml.Node.Document
import ProofKernel.Yaml.Printer
import ProofKernel.Yaml.Record

/-!
# Settings

How the program is set up: by a file in YAML over defaults, and by environment variables over both.

* `Settings.load` puts the three together and checks the result.
* `Settings.render` writes settings as a file.
* `Settings.options` are those of the kernel.

A setting of the wrong kind is an error, and all such errors of a file are reported together.
-/

set_option autoImplicit false
namespace ProofKernel

/-- The settings of the program. -/
structure Settings where
  /-- Whether sessions start with the prelude. -/
  withPrelude : Bool
  /-- The greatest number of reduction steps of one normalization. -/
  fuel : Int
  /-- How many declarations may be checked at the same time. -/
  parallelism : Int
  traceChecker : Bool
  traceReduce : Bool
  traceGuard : Bool
  /-- The least severity that is logged. -/
  level : Text
  /-- Whether the log is written as JSON. -/
  jsonLog : Bool
  /-- The file of the journal; empty for none. -/
  store : Text
deriving DecidableEq

/-- Why settings cannot be used. -/
inductive SettingsError where
  /-- The file is no document. -/
  | malformed (fault : Yaml.Fault)
  /-- Entries of the wrong kind, one line for each. -/
  | wrongKind (lines : List Text)
  | badFuel (fuel : Int)
  | badParallelism (parallelism : Int)
  | badLevel (level : Text)
deriving DecidableEq

namespace SettingsError

/-- Whether the file could not be read as settings at all. -/
def isUnreadable : SettingsError → Bool
  | malformed _ | wrongKind _ => true
  | _ => false

/-- The wording of an error. -/
def message : SettingsError → Text
  | malformed fault => Text.ofString ("failed to parse config: " ++ fault.message)
  | wrongKind lines =>
    Text.ofString "failed to parse config: yaml: unmarshal errors:" ++
      lines.flatMap fun line => Text.ofString "\n  " ++ line
  | badFuel fuel => Text.ofString ("normalize.fuel must be positive, got " ++ toString fuel)
  | badParallelism n => Text.ofString ("check.parallelism must be positive, got " ++ toString n)
  | badLevel level => Text.ofString ("unknown logging.level " ++ quoteText level)

end SettingsError

namespace Settings

/-- The settings without a file, on a machine with a number of processors. -/
def default (processors : Nat) : Settings :=
  { withPrelude := true
    fuel := Options.defaultFuel
    parallelism := processors
    traceChecker := false
    traceReduce := false
    traceGuard := false
    level := Text.ofString "info"
    jsonLog := false
    store := [] }

/-- The settings of the kernel. -/
def options (s : Settings) : Options :=
  ⟨s.fuel.toNat, s.traceChecker, s.traceReduce, s.traceGuard⟩

/-! ## Reading a file -/

open Yaml (Slot)

def normalizeFields : List (String × Slot Settings) :=
  [("fuel", .whole fun s n => { s with fuel := n })]

def checkFields : List (String × Slot Settings) :=
  [("parallelism", .whole fun s n => { s with parallelism := n })]

def debugFields : List (String × Slot Settings) :=
  [("checker", .flag fun s b => { s with traceChecker := b }),
    ("reduce", .flag fun s b => { s with traceReduce := b }),
    ("guard", .flag fun s b => { s with traceGuard := b })]

def loggingFields : List (String × Slot Settings) :=
  [("level", .text fun s t => { s with level := t }),
    ("json", .flag fun s b => { s with jsonLog := b })]

def storeFields : List (String × Slot Settings) :=
  [("path", .text fun s t => { s with store := t })]

/-- The entries of a file. -/
def fields : List (String × Slot Settings) :=
  [("prelude", .flag fun s b => { s with withPrelude := b }),
    ("normalize", .record "config.NormalizeConfig" normalizeFields),
    ("check", .record "config.CheckConfig" checkFields),
    ("debug", .record "config.DebugConfig" debugFields),
    ("logging", .record "config.LoggingConfig" loggingFields),
    ("store", .record "config.StoreConfig" storeFields)]

/-- The settings of a file over others. -/
def ofFile (s : Settings) (text : String) : Except SettingsError Settings :=
  match Yaml.read text with
  | .error fault => .error (.malformed fault)
  | .ok none => .ok s
  | .ok (some document) =>
    match Yaml.fill (.record "config.Config" fields) s document with
    | .error fault => .error (.malformed fault)
    | .ok (s, []) => .ok s
    | .ok (_, lines) => .error (.wrongKind lines)

/-! ## The environment -/

/-- The settings with those of the environment over them.  A fuel that is no number counts for
nothing. -/
def override (s : Settings) (env : Environment) : Settings :=
  { s with
    level := (env.value? "KERNEL_LOG_LEVEL").elim s.level Text.ofString
    store := (env.value? "KERNEL_STORE").elim s.store Text.ofString
    fuel := match Numeral.integer .plain (env.get "KERNEL_FUEL" "").toList with
      | .ok fuel => fuel
      | .error _ => s.fuel }

/-- Settings that can be used: those with numbers above zero and a known level. -/
def validate (s : Settings) : Except SettingsError Settings :=
  if s.fuel ≤ 0 then .error (.badFuel s.fuel)
  else if s.parallelism ≤ 0 then .error (.badParallelism s.parallelism)
  else if (["debug", "info", "warn", "error"].map Text.ofString).contains s.level then .ok s
  else .error (.badLevel s.level)

/-- The settings of a file, if there is one, and of the environment. -/
def load (processors : Nat) (env : Environment) (file : Option String) :
    Except SettingsError Settings := do
  let s ← match file with
    | some text => (default processors).ofFile text
    | none => pure (default processors)
  (s.override env).validate

/-! ## Writing a file -/

/-- An entry of a file, on a line of its own. -/
def entry (width : Nat) (key value : String) : String :=
  "".pushn ' ' width ++ key ++ ":" ++ (if value.isEmpty then "" else " " ++ value) ++
    (if value.toList.getLast?.any Yaml.isBreak then "" else "\n")

/-- The settings as a file. -/
def render (s : Settings) : String :=
  let text (key : String) (value : Text) : String := entry 4 key (Yaml.writeText 4 4 value)
  let flag (key : String) (value : Bool) : String := entry 4 key (toString value)
  entry 0 "prelude" (toString s.withPrelude) ++
    entry 0 "normalize" "" ++ entry 4 "fuel" (toString s.fuel) ++
    entry 0 "check" "" ++ entry 4 "parallelism" (toString s.parallelism) ++
    entry 0 "debug" "" ++ flag "checker" s.traceChecker ++ flag "reduce" s.traceReduce ++
    flag "guard" s.traceGuard ++
    entry 0 "logging" "" ++ text "level" s.level ++ flag "json" s.jsonLog ++
    entry 0 "store" "" ++ text "path" s.store

end Settings

end ProofKernel
