import ProofKernel.KernelError

/-!
# Traces

What the kernel, a session or a unit did, as a log of events, and judgements that keep such a log.

* `Event` is something that happened; `Event.entry` is how it is recorded.
* `Log` is a sequence of events that is cheap to extend.
* `Traced` is a value with a log; `Verdict` is a value or a rejection with a log.  The log of a
  verdict never influences its outcome (`Verdict.outcome_bind`).
-/

set_option autoImplicit false
namespace ProofKernel

/-! ## Events -/

/-- How much an event matters. -/
inductive Severity where
  | debug
  | info
  | warn
deriving DecidableEq, Repr

/-- The name of a severity. -/
def Severity.name : Severity → String
  | debug => "debug"
  | info => "info"
  | warn => "warn"

/-- The value of a field of a recorded event. -/
inductive FieldValue where
  | text (value : String)
  | flag (value : Bool)
  | number (value : Int)
  | names (values : List String)
deriving DecidableEq, Repr

/-- Something that happened. -/
inductive Event where
  | inferred (term type : Term)
  | checking (term expected : Term)
  | compared (sub super : Term) (ok : Bool)
  | caseExpected (constructor : String) (expected : Term)
  | fixpoint (self : String) (type : Term)
  | step (before after : Term)
  | outOfFuel (fuel : Nat) (term : Term)
  | structuralParameter (self param family : String)
  | guardedCall (call : Term)
  | checkedDefinition (name : String) (type : Term)
  | checkedFamily (name : String) (arity : Term) (constructors : List String)
  | sessionStarted (prelude persistent : Bool)
  | sessionResumed (commands : Nat)
  | commandRejected (command error : String)
  | checkedLayer (depth declarations : Nat)
  | unitChecked (commands layers failed : Nat)
deriving DecidableEq

/-- An event as it is recorded. -/
structure Entry where
  severity : Severity
  /-- The part of the program that reports the event, if it has a name. -/
  origin : String
  message : String
  fields : List (String × FieldValue)
deriving DecidableEq

namespace Event

/-- An entry of the kernel. -/
def kernelEntry (severity : Severity) (message : String) (fields : List (String × FieldValue)) :
    Entry :=
  ⟨severity, "kernel", message, fields⟩

/-- How an event is recorded. -/
def entry : Event → Entry
  | inferred term type =>
    kernelEntry .debug "infer" [("term", .text term.render), ("type", .text type.render)]
  | checking term expected =>
    kernelEntry .debug "check" [("term", .text term.render), ("expected", .text expected.render)]
  | compared sub super ok =>
    kernelEntry .debug "subtype"
      [("sub", .text sub.render), ("super", .text super.render), ("ok", .flag ok)]
  | caseExpected constructor expected =>
    kernelEntry .debug "case"
      [("constructor", .text constructor), ("expected", .text expected.render)]
  | fixpoint self type =>
    kernelEntry .debug "fix" [("name", .text self), ("type", .text type.render)]
  | step before after =>
    kernelEntry .debug "step" [("from", .text before.render), ("to", .text after.render)]
  | outOfFuel fuel term =>
    kernelEntry .warn "normalization ran out of fuel"
      [("fuel", .number fuel), ("term", .text term.render)]
  | structuralParameter self param family =>
    kernelEntry .debug "structural parameter"
      [("fix", .text self), ("param", .text param), ("inductive", .text family)]
  | guardedCall call => kernelEntry .debug "guarded call" [("call", .text call.render)]
  | checkedDefinition name type =>
    kernelEntry .debug "checked definition" [("name", .text name), ("type", .text type.render)]
  | checkedFamily name arity constructors =>
    kernelEntry .debug "checked inductive"
      [("name", .text name), ("arity", .text arity.render), ("constructors", .names constructors)]
  | sessionStarted prelude persistent =>
    ⟨.info, "", "session started", [("prelude", .flag prelude), ("persistent", .flag persistent)]⟩
  | sessionResumed commands =>
    ⟨.info, "", "session resumed", [("commands", .number commands)]⟩
  | commandRejected command error =>
    ⟨.debug, "", "command rejected", [("command", .text command), ("error", .text error)]⟩
  | checkedLayer depth declarations =>
    ⟨.debug, "", "checked layer",
      [("depth", .number depth), ("declarations", .number declarations)]⟩
  | unitChecked commands layers failed =>
    ⟨.info, "", "unit checked",
      [("commands", .number commands), ("layers", .number layers), ("failed", .number failed)]⟩

end Event

/-! ## Logs -/

/-- A sequence of events. -/
inductive Log where
  | empty
  | one (event : Event)
  | both (first second : Log)

namespace Log

/-- The events of a log in front of others. -/
def prepend : Log → List Event → List Event
  | empty, rest => rest
  | one e, rest => e :: rest
  | both a b, rest => a.prepend (b.prepend rest)

/-- The events of a log, first to last. -/
def toList (l : Log) : List Event :=
  l.prepend []

/-- One log after another. -/
def append : Log → Log → Log
  | empty, b => b
  | a, empty => a
  | a, b => both a b

instance : Append Log :=
  ⟨append⟩

/-- The log of one event, if it is to be recorded. -/
def when (on : Bool) (event : Event) : Log :=
  if on then one event else empty

theorem prepend_eq (l : Log) (rest : List Event) : l.prepend rest = l.toList ++ rest := by
  induction l generalizing rest with
  | empty => rfl
  | one e => rfl
  | both a b iha ihb =>
    simp only [prepend, toList]
    rw [ihb, iha, ihb [], iha (b.toList ++ [])]
    simp

theorem toList_both (a b : Log) : (both a b).toList = a.toList ++ b.toList := by
  show a.prepend (b.prepend []) = a.toList ++ b.toList
  rw [prepend_eq, prepend_eq, List.append_nil]

@[simp] theorem toList_append (a b : Log) : (a ++ b).toList = a.toList ++ b.toList := by
  show (a.append b).toList = _
  unfold append
  split
  · rfl
  · exact (List.append_nil _).symm
  · exact toList_both a b

end Log

/-! ## Values with a log -/

/-- A value and what happened on the way to it. -/
structure Traced (α : Type) where
  log : Log
  value : α

namespace Traced

variable {α β : Type}

instance : Monad Traced where
  pure a := ⟨.empty, a⟩
  bind x f :=
    let y := f x.value
    ⟨x.log ++ y.log, y.value⟩

/-- Records an event. -/
def note (on : Bool) (event : Event) : Traced Unit :=
  ⟨.when on event, ()⟩

@[simp] theorem value_pure (a : α) : (pure a : Traced α).value = a := rfl

@[simp] theorem value_bind (x : Traced α) (f : α → Traced β) :
    (x >>= f).value = (f x.value).value := rfl

end Traced

/-- A value or a rejection, and what happened on the way to it. -/
structure Verdict (α : Type) where
  log : Log
  outcome : Except KernelError α

namespace Verdict

variable {α β : Type}

instance : Monad Verdict where
  pure a := ⟨.empty, .ok a⟩
  bind x f :=
    match x.outcome with
    | .error e => ⟨x.log, .error e⟩
    | .ok a =>
      let y := f a
      ⟨x.log ++ y.log, y.outcome⟩

/-- A rejection. -/
def reject (error : KernelError) : Verdict α :=
  ⟨.empty, .error error⟩

/-- An outcome that needs no log. -/
def ofExcept (outcome : Except KernelError α) : Verdict α :=
  ⟨.empty, outcome⟩

/-- A value that cannot be rejected. -/
def ofTraced (x : Traced α) : Verdict α :=
  ⟨x.log, .ok x.value⟩

/-- Records an event. -/
def note (on : Bool) (event : Event) : Verdict Unit :=
  ⟨.when on event, .ok ()⟩

instance : MonadLift Traced Verdict :=
  ⟨ofTraced⟩

@[simp] theorem outcome_pure (a : α) : (pure a : Verdict α).outcome = .ok a := rfl

@[simp] theorem outcome_reject (e : KernelError) : (reject e : Verdict α).outcome = .error e := rfl

@[simp] theorem outcome_note (on : Bool) (e : Event) : (note on e).outcome = .ok () := rfl

@[simp] theorem outcome_ofTraced (x : Traced α) : (ofTraced x).outcome = .ok x.value := rfl

@[simp] theorem outcome_ofExcept (x : Except KernelError α) : (ofExcept x).outcome = x := rfl

/-- The outcome of two steps depends on their outcomes only. -/
@[simp] theorem outcome_bind (x : Verdict α) (f : α → Verdict β) :
    (x >>= f).outcome = x.outcome >>= fun a => (f a).outcome := by
  show (match x.outcome with
    | .error e => (⟨x.log, .error e⟩ : Verdict β)
    | .ok a => ⟨x.log ++ (f a).log, (f a).outcome⟩).outcome = _
  cases x.outcome <;> rfl

end Verdict

/-! ## Options -/

/-- The settings of the kernel. -/
structure Options where
  /-- The greatest number of reduction steps of one normalization. -/
  fuel : Nat
  traceChecker : Bool
  traceReduce : Bool
  traceGuard : Bool
deriving DecidableEq, Repr

namespace Options

/-- The fuel used when none is given. -/
def defaultFuel : Nat :=
  10000

/-- Settings with a fuel, where a number that is not positive stands for the default, and with all
traces on or off. -/
def withFuel (fuel : Int) (trace : Bool) : Options :=
  ⟨if fuel ≤ 0 then defaultFuel else fuel.toNat, trace, trace, trace⟩

end Options

end ProofKernel
