import ProofKernel.Failure
import ProofKernel.Text.Percent

/-!
# Journals

A journal records, for each session, the commands that changed its symbol table, so that the session
can be built again by executing them.

* `Journal.create` and `Journal.append` write, `Journal.session`, `Journal.commands` and
  `Journal.sessions` read.
* A call fails when the journal is closed or the caller gave up, and one that writes when the
  journal is for reading only; then the journal stays as it was.
* `Journal.stored` writes a journal as lines of text, `Journal.ofStored?` reads it back.

A text may be appended for a session that was not created yet.  It is found once the session is.
-/

set_option autoImplicit false
namespace ProofKernel

/-- A session that was created. -/
structure Journal.Record where
  id : String
  withPrelude : Bool
  /-- The date and time of creation, as they are displayed. -/
  created : String
deriving DecidableEq, Inhabited

/-- The sessions that were created, oldest first, and the texts that were appended, in order. -/
structure Journal where
  records : List Journal.Record
  entries : List (String × Text)
  isOpen : Bool
  /-- Whether nothing may be written. -/
  isReadOnly : Bool
deriving DecidableEq, Inhabited

/-- A session with the number of its commands. -/
structure Journal.Summary where
  record : Journal.Record
  commands : Nat
deriving DecidableEq, Inhabited

/-- Why a call on a journal failed. -/
inductive Journal.Fault where
  | closed
  /-- The caller gave up before the call. -/
  | cancelled
  | readOnly
  /-- There is a session with this identifier. -/
  | taken
  /-- There is no session with this identifier. -/
  | unknown (id : String)
deriving DecidableEq

/-- The failure a call on a journal ends with. -/
def Journal.Fault.failure : Journal.Fault → Failure
  | closed => .external "sql: database is closed"
  | cancelled => .external "context canceled"
  | readOnly => .external "attempt to write a readonly database (8)"
  | taken => .external "constraint failed: UNIQUE constraint failed: sessions.id (1555)"
  | unknown id => .noSession id

namespace Journal

/-- A journal without sessions. -/
def empty : Journal :=
  ⟨[], [], true, false⟩

/-- A journal that answers no more. -/
def close (j : Journal) : Journal :=
  { j with isOpen := false }

/-- The journal opened again: with what it holds when it is `kept` in a file, else empty. -/
def reopen (j : Journal) (kept : Bool) : Journal :=
  if kept then { j with isOpen := true } else empty

/-- Whether a call can be made. -/
def ready (j : Journal) (cancelled : Bool) : Except Fault Unit :=
  if !j.isOpen then .error .closed
  else if cancelled then .error .cancelled
  else .ok ()

/-- Whether something can be written. -/
def writable (j : Journal) (cancelled : Bool) : Except Fault Unit := do
  j.ready cancelled
  if j.isReadOnly then throw .readOnly

/-- The session with an identifier. -/
def find? (j : Journal) (id : String) : Option Record :=
  j.records.find? (·.id == id)

/-- The texts appended for an identifier. -/
def texts (j : Journal) (id : String) : List Text :=
  (j.entries.filter fun e => e.1 == id).map Prod.snd

/-- A session with the number of its commands. -/
def summary (j : Journal) (r : Record) : Summary :=
  ⟨r, (j.texts r.id).length⟩

/-! ## Writing -/

/-- Creates a session. -/
def create (j : Journal) (cancelled : Bool) (r : Record) : Except Fault Journal := do
  j.writable cancelled
  if (j.find? r.id).isSome then throw .taken
  return { j with records := j.records ++ [r] }

/-- Appends a text for a session. -/
def append (j : Journal) (cancelled : Bool) (id : String) (text : Text) : Except Fault Journal := do
  j.writable cancelled
  return { j with entries := j.entries ++ [(id, text)] }

/-- What a failed creation of a session is reported as. -/
def creationFailure (id : String) (fault : Fault) : Failure :=
  .labelled ("failed to create session " ++ id ++ ": ") fault.failure

/-- What a failed attempt to append is reported as. -/
def appendFailure (id : String) : Fault → Failure
  | .readOnly => .labelled ("failed to append to session " ++ id ++ ": ") Fault.readOnly.failure
  | fault => fault.failure

/-! ## Reading -/

/-- A session. -/
def session (j : Journal) (cancelled : Bool) (id : String) : Except Fault Summary := do
  j.ready cancelled
  match j.find? id with
  | none => throw (.unknown id)
  | some r => return j.summary r

/-- The commands of a session, in order. -/
def commands (j : Journal) (cancelled : Bool) (id : String) : Except Fault (List Text) := do
  let _ ← j.session cancelled id
  return j.texts id

/-- All sessions, newest first. -/
def sessions (j : Journal) (cancelled : Bool) : Except Fault (List Summary) := do
  j.ready cancelled
  return j.records.reverse.map j.summary

/-! ## Journals in files

A journal as lines of text: a heading, a line for each session, and a line for each command.  Fields
are divided by blanks, and all their bytes stand behind percent signs. -/

/-- The first line of a file with a journal. -/
def heading : String :=
  "journal of sessions"

/-- A line with a word and fields behind it. -/
def storedLine (word : String) (fields : List Text) : String :=
  " ".intercalate (word :: fields.map Percent.encode) ++ "\n"

/-- A journal as the contents of a file. -/
def stored (j : Journal) : String :=
  heading ++ "\n" ++
    String.join (j.records.map fun r => storedLine "session"
      [Text.ofString r.id, Text.ofString (toString r.withPrelude), Text.ofString r.created]) ++
    String.join (j.entries.map fun (id, text) => storedLine "command" [Text.ofString id, text])

/-- Adds what a line says to a journal. -/
def addStored? (j : Journal) (line : List Char) : Option Journal := do
  let fields ← ((line.splitOn ' ').drop 1).mapM fun field =>
    Percent.decode (Text.ofString (String.ofList field))
  match (line.splitOn ' ').head?.map String.ofList, fields with
  | some "session", [id, withPrelude, created] =>
    return { j with records := j.records ++
      [⟨id.toString, withPrelude == Text.ofString "true", created.toString⟩] }
  | some "command", [id, text] => return { j with entries := j.entries ++ [(id.toString, text)] }
  | _, _ => none

/-- The journal that a file holds. -/
def ofStored? (contents : String) : Option Journal :=
  match contents.toList.splitOn '\n' with
  | first :: lines =>
    if first == heading.toList then
      (lines.filter (!·.isEmpty)).foldlM addStored? empty
    else none
  | [] => none

end Journal
end ProofKernel
