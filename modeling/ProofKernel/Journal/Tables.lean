import Mathlib.Data.List.Dedup
import ProofKernel.Journal

/-!
# The tables of a journal

A journal is kept in two tables, one of sessions and one of commands.  The commands of a session are
numbered as they are appended, and read back in the order of their numbers.

* `Journal.Tables` are the two tables, whose keys are unique.
* `Journal.Database` makes the calls on a journal, step by step: `Database.create` and
  `Database.append` write, `Database.session`, `Database.commands` and `Database.sessions` read.
* `Database.begin`, `Database.commit` and `Database.rollback` are the ends of a transaction, in
  which `Database.append` writes.
* `Journal.Call` is a call, `Database.perform` makes it; `Database.perform_error`: one that fails
  leaves the database as it was.
* `Journal.Tables.Numbered` says how commands are numbered; `Numbered.insertCommand`: the next
  command of a session can always be inserted.
* `Journal.Tables.find?_eq` and `Journal.Tables.list_eq`: joining the tables finds each session
  once, with the number of its commands.

A call gives up when its context is cancelled, which can happen between any two of its steps.  What
it wrote until then is taken back.
-/

set_option autoImplicit false
namespace ProofKernel
namespace Journal

/-! ## Tables -/

/-- A row of the table of sessions. -/
structure SessionRow where
  id : String
  withPrelude : Bool
  /-- The time of creation, in nanoseconds. -/
  created : Int
deriving DecidableEq, Repr

/-- A row of the table of commands. -/
structure CommandRow where
  session : String
  /-- The number of the command in its session. -/
  seq : Nat
  text : Text
deriving DecidableEq, Repr

/-- The session and the number of a command. -/
def CommandRow.key (row : CommandRow) : String × Nat :=
  (row.session, row.seq)

/-- The two tables, with their keys. -/
structure Tables where
  sessions : List SessionRow
  commands : List CommandRow
  sessions_nodup : (sessions.map SessionRow.id).Nodup
  commands_nodup : (commands.map CommandRow.key).Nodup

/-- A session with the number of its commands. -/
structure Listing where
  session : SessionRow
  commands : Nat
deriving DecidableEq, Repr

/-- Whether one session is listed before another: the newer one, or the one with the lesser
identifier. -/
def Listing.before (a b : Listing) : Bool :=
  b.session.created < a.session.created ||
    (a.session.created == b.session.created && a.session.id ≤ b.session.id)

theorem nodup_concat {α β : Type} {f : α → β} {rows : List α} {row : α}
    (h : (rows.map f).Nodup) (hrow : f row ∉ rows.map f) : ((rows ++ [row]).map f).Nodup := by
  rw [List.map_append, List.map_singleton, List.nodup_append]
  exact ⟨h, List.nodup_singleton _, by
    rintro a ha b hb rfl
    exact hrow (List.mem_singleton.1 hb ▸ ha)⟩

namespace Tables

/-- Tables without rows. -/
def empty : Tables :=
  ⟨[], [], .nil, .nil⟩

/-- Inserts a session, unless there is one with its identifier. -/
def insertSession (t : Tables) (row : SessionRow) : Option Tables :=
  if h : row.id ∈ t.sessions.map SessionRow.id then none
  else some ⟨t.sessions ++ [row], t.commands, nodup_concat t.sessions_nodup h, t.commands_nodup⟩

/-- Inserts a command, unless there is one with its number. -/
def insertCommand (t : Tables) (row : CommandRow) : Option Tables :=
  if h : row.key ∈ t.commands.map CommandRow.key then none
  else some ⟨t.sessions, t.commands ++ [row], t.sessions_nodup, nodup_concat t.commands_nodup h⟩

/-- The rows of the commands of a session. -/
def rows (t : Tables) (id : String) : List CommandRow :=
  t.commands.filter (·.session == id)

/-- One more than the greatest number in a session, and zero when it has no commands. -/
def nextSeq (t : Tables) (id : String) : Nat :=
  (((t.rows id).map CommandRow.seq).max?.map (· + 1)).getD 0

/-- The texts of a session in the order of their numbers. -/
def texts (t : Tables) (id : String) : List Text :=
  ((t.rows id).mergeSort fun a b => a.seq ≤ b.seq).map CommandRow.text

/-- Sessions joined with their commands, and a session that has no commands with nothing. -/
def joined (t : Tables) : List (SessionRow × Option CommandRow) :=
  t.sessions.flatMap fun s =>
    match t.rows s.id with
    | [] => [(s, none)]
    | rows => rows.map fun row => (s, some row)

/-- The session with an identifier and the number of its commands. -/
def find? (t : Tables) (id : String) : Option Listing :=
  let group := t.joined.filter (·.1.id == id)
  group.head?.map fun first => ⟨first.1, group.countP (·.2.isSome)⟩

/-- All sessions with the numbers of their commands, the newest first. -/
def list (t : Tables) : List Listing :=
  ((t.joined.map (·.1.id)).dedup.filterMap t.find?).mergeSort Listing.before

end Tables

/-! ## Calls -/

/-- Tables that can be closed.  A transaction that is open has saved the tables it began with. -/
structure Database where
  tables : Tables
  saved : Option Tables
  isOpen : Bool

/-- Why a call failed. -/
inductive Database.Fault where
  | closed
  | cancelled
  /-- There is a session with this identifier. -/
  | sessionTaken (id : String)
  /-- There is a command with this number. -/
  | commandTaken (id : String) (seq : Nat)
  /-- There is no session with this identifier. -/
  | unknown (id : String)
deriving DecidableEq, Repr

/-- A call on a journal. -/
inductive Call where
  /-- Creates a session at the time `now`. -/
  | create (id : String) (withPrelude : Bool) (now : Int)
  | append (id : String) (text : Text)
  | session (id : String)
  | commands (id : String)
  | sessions
  | close
deriving DecidableEq, Repr

/-- What a call that succeeds answers; `σ` says how a session is described. -/
inductive Answer (σ : Type) where
  | done
  | session (listing : σ)
  | commands (texts : List Text)
  | sessions (listings : List σ)
deriving DecidableEq, Repr

/-- How many steps of a call are made before its context is cancelled; `none` when it never is. -/
abbrev Patience : Type := Option Nat

/-- Whether a context is still there at a step, counted from one. -/
def Patience.lasts (patience : Patience) (step : Nat) : Bool :=
  patience.all (step ≤ ·)

namespace Database

/-- A database without sessions. -/
def empty : Database :=
  ⟨.empty, none, true⟩

/-- A part of a call.  What it wrote is there also when it fails. -/
abbrev Access (α : Type) : Type := EStateM Fault Database α

/-- Whether a step of a call can be made. -/
def ready (db : Database) (patience : Patience) (step : Nat) : Except Fault Unit :=
  if !db.isOpen then .error .closed
  else if !patience.lasts step then .error .cancelled
  else .ok ()

/-- Asks something of the database. -/
def query {α : Type} (question : Database → Except Fault α) : Access α := do
  ofExcept (question (← get))

/-- Goes on with a step of a call, if it can be made. -/
def proceed (patience : Patience) (step : Nat) : Access Unit :=
  query (·.ready patience step)

/-! ### Transactions -/

/-- Begins a transaction. -/
def begin : Access Unit :=
  modify fun db => { db with saved := some db.tables }

/-- Keeps what a transaction wrote. -/
def commit : Access Unit :=
  modify fun db => { db with saved := none }

/-- Takes back what a transaction wrote, unless it was committed. -/
def rollback : Access Unit :=
  modify fun db => { db with tables := db.saved.getD db.tables, saved := none }

/-! ### Calls that write -/

/-- Inserts a session. -/
def insertSession (row : SessionRow) : Access Unit := do
  let db ← get
  match db.tables.insertSession row with
  | none => throw (.sessionTaken row.id)
  | some tables => set { db with tables := tables }

/-- Inserts a command. -/
def insertCommand (row : CommandRow) : Access Unit := do
  let db ← get
  match db.tables.insertCommand row with
  | none => throw (.commandTaken row.session row.seq)
  | some tables => set { db with tables := tables }

/-- Creates a session. -/
def create (patience : Patience) (row : SessionRow) : Access Unit := do
  proceed patience 1
  insertSession row

/-- Appends a command, in a transaction: it reads the next number, inserts the row and commits.
Whatever comes of it, the transaction is rolled back in the end, which does nothing once it is
committed. -/
def append (patience : Patience) (id : String) (text : Text) : Access Unit := do
  proceed patience 1
  begin
  try
    proceed patience 2
    let seq := (← get).tables.nextSeq id
    proceed patience 3
    insertCommand ⟨id, seq, text⟩
    proceed patience 4
    commit
  finally
    rollback

/-! ### Calls that read -/

/-- A session. -/
def session (db : Database) (patience : Patience) (id : String) : Except Fault Listing := do
  db.ready patience 1
  match db.tables.find? id with
  | none => throw (.unknown id)
  | some listing => return listing

/-- The commands of a session, which is looked up first. -/
def commands (db : Database) (patience : Patience) (id : String) : Except Fault (List Text) := do
  let _ ← db.session patience id
  db.ready patience 2
  return db.tables.texts id

/-- All sessions. -/
def sessions (db : Database) (patience : Patience) : Except Fault (List Listing) := do
  db.ready patience 1
  return db.tables.list

/-! ### All calls -/

/-- Makes a call, or as many steps of it as can be made. -/
def make (patience : Patience) : Call → Access (Answer Listing)
  | .create id withPrelude now => do
    create patience ⟨id, withPrelude, now⟩
    return .done
  | .append id text => do
    append patience id text
    return .done
  | .session id => do
    return .session (← query (·.session patience id))
  | .commands id => do
    return .commands (← query (·.commands patience id))
  | .sessions => do
    return .sessions (← query (·.sessions patience))
  | .close => do
    modify fun db => { db with isOpen := false }
    return .done

/-- Makes a call: the database that it leaves, and its answer. -/
def perform (db : Database) (patience : Patience) (call : Call) :
    Database × Except Fault (Answer Listing) :=
  match (make patience call).run db with
  | .ok answer db' => (db', .ok answer)
  | .error fault db' => (db', .error fault)

/-! ### Calls that fail

No transaction is open between two calls.  One that a call opens is committed, and then all of its
steps were made, or it is rolled back, and then the tables are those it began with. -/

section

variable {db : Database} {patience : Patience} {call : Call} {fault : Fault}

theorem bind_apply {α β : Type} (x : Access α) (f : α → Access β) (db : Database) :
    (x >>= f) db =
      match x db with
      | .ok a db' => f a db'
      | .error fault db' => .error fault db' := by
  show EStateM.bind x f db = _
  unfold EStateM.bind
  cases x db <;> rfl

theorem get_apply (db : Database) : (get : Access Database) db = .ok db db := rfl

theorem begin_apply (db : Database) : begin db = .ok () { db with saved := some db.tables } := rfl

theorem query_bind_apply {α β : Type} (question : Database → Except Fault α) (f : α → Access β)
    (db : Database) :
    (query question >>= f) db =
      match question db with
      | .ok a => f a db
      | .error fault => .error fault db := by
  have hquery : query question db = (ofExcept (question db) : Access α) db := rfl
  rw [bind_apply, hquery]
  cases question db <;> rfl

theorem proceed_bind_apply {α : Type} (patience : Patience) (step : Nat) (f : Unit → Access α)
    (db : Database) :
    (proceed patience step >>= f) db =
      match db.ready patience step with
      | .ok _ => f () db
      | .error fault => .error fault db := by
  rw [proceed, query_bind_apply]
  cases db.ready patience step <;> rfl

theorem insertSession_apply (row : SessionRow) (db : Database) :
    insertSession row db =
      match db.tables.insertSession row with
      | none => .error (.sessionTaken row.id) db
      | some tables => .ok () { db with tables := tables } := by
  rw [insertSession, bind_apply, get_apply]
  dsimp only
  cases db.tables.insertSession row <;> rfl

theorem insertCommand_apply (row : CommandRow) (db : Database) :
    insertCommand row db =
      match db.tables.insertCommand row with
      | none => .error (.commandTaken row.session row.seq) db
      | some tables => .ok () { db with tables := tables } := by
  rw [insertCommand, bind_apply, get_apply]
  dsimp only
  cases db.tables.insertCommand row <;> rfl

/-- What was written in a transaction that is still open is taken back. -/
theorem finally_rollback_apply {α : Type} (body : Access α) (db : Database) :
    tryFinally body rollback db =
      match body db with
      | .ok a db' => .ok a { db' with tables := db'.saved.getD db'.tables, saved := none }
      | .error fault db' =>
        .error fault { db' with tables := db'.saved.getD db'.tables, saved := none } := by
  simp only [tryFinally, tryFinally', Functor.map, EStateM.map]
  cases body db <;> rfl

/-- The tables with a session more, if it can be created. -/
def created (db : Database) (patience : Patience) (row : SessionRow) : Except Fault Tables := do
  db.ready patience 1
  match db.tables.insertSession row with
  | none => throw (.sessionTaken row.id)
  | some tables => return tables

/-- The tables with a command more, if all steps of the call can be made. -/
def appended (db : Database) (patience : Patience) (id : String) (text : Text) :
    Except Fault Tables := do
  db.ready patience 1
  db.ready patience 2
  db.ready patience 3
  match db.tables.insertCommand ⟨id, db.tables.nextSeq id, text⟩ with
  | none => throw (.commandTaken id (db.tables.nextSeq id))
  | some tables =>
    db.ready patience 4
    return tables

/-- A database after a call that writes: with the tables that were written, or as it was. -/
def written (db : Database) : Except Fault Tables → EStateM.Result Fault Database Unit
  | .ok tables => .ok () { db with tables := tables }
  | .error fault => .error fault db

theorem create_apply (patience : Patience) (row : SessionRow) (db : Database) :
    create patience row db = db.written (db.created patience row) := by
  rw [create, proceed_bind_apply, created]
  cases db.ready patience 1 with
  | error fault => rfl
  | ok _ =>
    dsimp only
    rw [insertSession_apply]
    cases db.tables.insertSession row <;> rfl

/-- **A transaction is atomic**: its row is kept if all steps of the call can be made, and the
database is as it was if one of them cannot. -/
theorem append_apply (h : db.saved = none) (patience : Patience) (id : String) (text : Text) :
    append patience id text db = db.written (db.appended patience id text) := by
  obtain ⟨t, saved, isOpen⟩ := db
  cases h
  -- whether a step can be made does not depend on the tables
  have hready : ∀ t' saved step, ready ⟨t', saved, isOpen⟩ patience step =
      ready ⟨t, none, isOpen⟩ patience step := fun _ _ _ => rfl
  rw [append, appended, proceed_bind_apply]
  cases ready ⟨t, none, isOpen⟩ patience 1 with
  | error fault => rfl
  | ok _ =>
    dsimp only
    rw [bind_apply, begin_apply]
    dsimp only
    rw [finally_rollback_apply, proceed_bind_apply, hready]
    cases ready ⟨t, none, isOpen⟩ patience 2 with
    | error fault => rfl
    | ok _ =>
      dsimp only
      rw [bind_apply, get_apply]
      dsimp only
      rw [proceed_bind_apply, hready]
      cases ready ⟨t, none, isOpen⟩ patience 3 with
      | error fault => rfl
      | ok _ =>
        dsimp only
        rw [bind_apply, insertCommand_apply]
        dsimp only
        cases t.insertCommand ⟨id, t.nextSeq id, text⟩ with
        | none => rfl
        | some tables =>
          dsimp only
          rw [proceed_bind_apply, hready]
          cases ready ⟨t, none, isOpen⟩ patience 4 <;> rfl

theorem perform_create (db : Database) (patience : Patience) (id : String) (withPrelude : Bool)
    (now : Int) :
    db.perform patience (.create id withPrelude now) =
      match db.created patience ⟨id, withPrelude, now⟩ with
      | .ok tables => ({ db with tables := tables }, .ok .done)
      | .error fault => (db, .error fault) := by
  rw [perform, EStateM.run, make, bind_apply, create_apply]
  cases db.created patience ⟨id, withPrelude, now⟩ <;> rfl

theorem perform_append (h : db.saved = none) (patience : Patience) (id : String) (text : Text) :
    db.perform patience (.append id text) =
      match db.appended patience id text with
      | .ok tables => ({ db with tables := tables }, .ok .done)
      | .error fault => (db, .error fault) := by
  rw [perform, EStateM.run, make, bind_apply, append_apply h]
  cases db.appended patience id text <;> rfl

theorem perform_session (db : Database) (patience : Patience) (id : String) :
    db.perform patience (.session id) = (db, (db.session patience id).map .session) := by
  rw [perform, EStateM.run, make, query_bind_apply]
  cases db.session patience id <;> rfl

theorem perform_commands (db : Database) (patience : Patience) (id : String) :
    db.perform patience (.commands id) = (db, (db.commands patience id).map .commands) := by
  rw [perform, EStateM.run, make, query_bind_apply]
  cases db.commands patience id <;> rfl

theorem perform_sessions (db : Database) (patience : Patience) :
    db.perform patience .sessions = (db, (db.sessions patience).map .sessions) := by
  rw [perform, EStateM.run, make, query_bind_apply]
  cases db.sessions patience <;> rfl

/-- **A call that fails leaves the database as it was.** -/
theorem perform_error (h : db.saved = none)
    (hfail : (db.perform patience call).2 = .error fault) : (db.perform patience call).1 = db := by
  cases call with
  | create id withPrelude now =>
    rw [perform_create] at hfail ⊢
    cases hcreated : db.created patience ⟨id, withPrelude, now⟩ with
    | error fault => rfl
    | ok tables =>
      rw [hcreated] at hfail
      cases hfail
  | append id text =>
    rw [perform_append h] at hfail ⊢
    cases happended : db.appended patience id text with
    | error fault => rfl
    | ok tables =>
      rw [happended] at hfail
      cases hfail
  | session id => rw [perform_session]
  | commands id => rw [perform_commands]
  | sessions => rw [perform_sessions]
  | close => cases hfail

end

end Database

/-! ## What the tables hold

The commands of a session are numbered from zero in the order of their rows, so the next number is
the number of rows, it is free, and sorting by number changes nothing. -/

namespace Tables

variable {t t' : Tables} {id : String}

/-! ## Numbers of commands -/

/-- The commands of every session are numbered from zero. -/
def Numbered (t : Tables) : Prop :=
  ∀ id, (t.rows id).map CommandRow.seq = List.range (t.rows id).length

theorem numbered_empty : empty.Numbered := fun _ => rfl

theorem mem_rows {row : CommandRow} : row ∈ t.rows id ↔ row ∈ t.commands ∧ row.session = id := by
  rw [rows, List.mem_filter, beq_iff_eq]

theorem Numbered.nextSeq_eq (ht : t.Numbered) (id : String) :
    t.nextSeq id = (t.rows id).length := by
  rw [nextSeq, ht id]
  cases h : (t.rows id).length with
  | zero => rfl
  | succ n =>
    have hmax : (List.range (n + 1)).max? = some n :=
      List.max?_eq_some_iff.2 ⟨List.self_mem_range_succ, fun b hb => by
        rw [List.mem_range] at hb
        omega⟩
    rw [hmax]
    rfl

/-- Commands are read in the order of their rows. -/
theorem Numbered.texts_eq (ht : t.Numbered) (id : String) :
    t.texts id = (t.rows id).map CommandRow.text := by
  rw [texts, List.mergeSort_of_pairwise]
  have hseq : ((t.rows id).map CommandRow.seq).Pairwise (· ≤ ·) := by
    rw [ht id]
    exact List.pairwise_le_range
  exact (List.pairwise_map.1 hseq).imp fun hle => decide_eq_true hle

theorem Numbered.of_commands (ht : t.Numbered) (h : t'.commands = t.commands) : t'.Numbered := by
  intro id
  rw [rows, h]
  exact ht id

/-- The next number is free. -/
theorem Numbered.key_notMem (ht : t.Numbered) (id : String) (text : Text) :
    CommandRow.key ⟨id, t.nextSeq id, text⟩ ∉ t.commands.map CommandRow.key := by
  intro hmem
  obtain ⟨row, hrow, hkey⟩ := List.mem_map.1 hmem
  obtain ⟨hsession, hseq⟩ := Prod.mk.inj hkey
  have hnumber : row.seq ∈ (t.rows id).map CommandRow.seq :=
    List.mem_map_of_mem (mem_rows.2 ⟨hrow, hsession⟩)
  rw [ht id, List.mem_range, hseq, ht.nextSeq_eq] at hnumber
  exact Nat.lt_irrefl _ hnumber

/-- A session is inserted unless there is one with its identifier. -/
theorem insertSession_cases (t : Tables) (row : SessionRow) :
    ((∃ s, t.sessions.find? (·.id == row.id) = some s) ∧ t.insertSession row = none) ∨
      (t.sessions.find? (·.id == row.id) = none ∧ ∃ t', t.insertSession row = some t' ∧
        t'.sessions = t.sessions ++ [row] ∧ t'.commands = t.commands) := by
  have hmem : row.id ∈ t.sessions.map SessionRow.id ↔
      (t.sessions.find? (·.id == row.id)).isSome = true := by
    simp only [List.find?_isSome, List.mem_map, beq_iff_eq]
  by_cases hrow : row.id ∈ t.sessions.map SessionRow.id
  · exact .inl ⟨Option.isSome_iff_exists.1 (hmem.1 hrow), dif_pos hrow⟩
  · rw [hmem, Option.not_isSome_iff_eq_none] at hrow
    exact .inr ⟨hrow, _, dif_neg (by rw [hmem, hrow]; exact nofun), rfl, rfl⟩

theorem rows_of_commands {row : CommandRow} (h : t'.commands = t.commands ++ [row]) (id : String) :
    t'.rows id = t.rows id ++ if row.session = id then [row] else [] := by
  rw [rows, rows, h, List.filter_append]
  by_cases hid : row.session = id <;> simp [hid]

/-- **The next command of a session can be inserted**, and takes the next number. -/
theorem Numbered.insertCommand (ht : t.Numbered) (id : String) (text : Text) :
    ∃ t', t.insertCommand ⟨id, t.nextSeq id, text⟩ = some t' ∧ t'.sessions = t.sessions ∧
      t'.commands = t.commands ++ [⟨id, t.nextSeq id, text⟩] ∧ t'.Numbered := by
  refine ⟨_, dif_neg (ht.key_notMem id text), rfl, rfl, fun id' => ?_⟩
  rw [rows_of_commands rfl id']
  by_cases h : id = id'
  · subst h
    rw [if_pos rfl, List.map_append, List.length_append, ht id, List.map_singleton,
      List.length_singleton, List.range_succ, ht.nextSeq_eq]
  · rw [if_neg h, List.append_nil]
    exact ht id'

/-! ## The joined tables -/

/-- A session with what it is joined with. -/
def join (t : Tables) (s : SessionRow) : List (SessionRow × Option CommandRow) :=
  match t.rows s.id with
  | [] => [(s, none)]
  | rows => rows.map fun row => (s, some row)

theorem joined_eq (t : Tables) : t.joined = t.sessions.flatMap t.join := rfl

theorem join_cases (t : Tables) (s : SessionRow) :
    ∃ first rest, t.join s = (s, first) :: rest ∧ (∀ joint ∈ rest, joint.1 = s) ∧
      (t.join s).countP (·.2.isSome) = (t.rows s.id).length := by
  unfold join
  cases t.rows s.id with
  | nil => exact ⟨none, [], rfl, nofun, rfl⟩
  | cons row rows =>
    refine ⟨some row, _, rfl, ?_, ?_⟩
    · intro joint hjoint
      obtain ⟨_, _, rfl⟩ := List.mem_map.1 hjoint
      rfl
    · rw [List.countP_eq_length.2, List.length_map]
      intro joint hjoint
      obtain ⟨_, _, rfl⟩ := List.mem_map.1 hjoint
      rfl

theorem fst_of_mem_join {s : SessionRow} {joint : SessionRow × Option CommandRow}
    (h : joint ∈ t.join s) : joint.1 = s := by
  obtain ⟨first, rest, hjoin, hrest, -⟩ := join_cases t s
  rw [hjoin] at h
  rcases List.mem_cons.1 h with rfl | h
  · rfl
  · exact hrest joint h

/-- A session with the number of its commands. -/
def listing (t : Tables) (s : SessionRow) : Listing :=
  ⟨s, (t.rows s.id).length⟩

/-- Sessions of different identifiers are found by their identifiers among those joined. -/
theorem filter_flatMap_join {sessions : List SessionRow}
    (h : (sessions.map SessionRow.id).Nodup) :
    (sessions.flatMap t.join).filter (·.1.id == id) =
      ((sessions.find? (·.id == id)).map t.join).getD [] := by
  induction sessions with
  | nil => rfl
  | cons s rest ih =>
    obtain ⟨hs, hrest⟩ := List.nodup_cons.1 h
    rw [List.flatMap_cons, List.filter_append, List.find?_cons]
    cases hid : s.id == id with
    | true =>
      have hjoin : (t.join s).filter (·.1.id == id) = t.join s :=
        List.filter_eq_self.2 fun joint hjoint => by rw [fst_of_mem_join hjoint, hid]
      have hothers : (rest.flatMap t.join).filter (·.1.id == id) = [] := by
        refine List.filter_eq_nil_iff.2 fun joint hjoint hsame => hs ?_
        obtain ⟨s', hs', hjoint⟩ := List.mem_flatMap.1 hjoint
        rw [fst_of_mem_join hjoint] at hsame
        rw [beq_iff_eq.1 hid, ← beq_iff_eq.1 hsame]
        exact List.mem_map_of_mem hs'
      rw [hjoin, hothers, List.append_nil]
      rfl
    | false =>
      have hjoin : (t.join s).filter (·.1.id == id) = [] :=
        List.filter_eq_nil_iff.2 fun joint hjoint => by simp [fst_of_mem_join hjoint, hid]
      rw [hjoin, List.nil_append]
      exact ih hrest

theorem dedup_replicate_append {a : String} {l : List String} (h : a ∉ l) (n : Nat) :
    (List.replicate (n + 1) a ++ l).dedup = a :: l.dedup := by
  induction n with
  | zero => exact List.dedup_cons_of_notMem h
  | succ n ih =>
    rw [List.replicate_succ, List.cons_append, List.dedup_cons_of_mem, ih]
    exact List.mem_append_left _ (List.mem_replicate.2 ⟨Nat.succ_ne_zero n, rfl⟩)

/-- The identifiers of the sessions joined are those of the sessions. -/
theorem dedup_flatMap_join {sessions : List SessionRow} (h : (sessions.map SessionRow.id).Nodup) :
    ((sessions.flatMap t.join).map (·.1.id)).dedup = sessions.map SessionRow.id := by
  induction sessions with
  | nil => rfl
  | cons s rest ih =>
    obtain ⟨hs, hrest⟩ := List.nodup_cons.1 h
    obtain ⟨first, others, hjoin, -⟩ := join_cases t s
    have hids : (t.join s).map (·.1.id) = List.replicate (others.length + 1) s.id := by
      refine List.eq_replicate_iff.2 ⟨by rw [List.length_map, hjoin, List.length_cons], ?_⟩
      intro id hid
      obtain ⟨joint, hjoint, rfl⟩ := List.mem_map.1 hid
      rw [fst_of_mem_join hjoint]
    have hnew : s.id ∉ (rest.flatMap t.join).map (·.1.id) := by
      rw [← List.mem_dedup, ih hrest]
      exact hs
    rw [List.flatMap_cons, List.map_append, hids, dedup_replicate_append hnew, ih hrest,
      List.map_cons]

/-- **A session is found with the number of its commands.** -/
theorem find?_eq (t : Tables) (id : String) :
    t.find? id = (t.sessions.find? (·.id == id)).map t.listing := by
  unfold find?
  dsimp only
  rw [joined_eq, filter_flatMap_join t.sessions_nodup]
  cases t.sessions.find? (·.id == id) with
  | none => rfl
  | some s =>
    obtain ⟨first, rest, hjoin, -, hcount⟩ := join_cases t s
    rw [Option.map_some, Option.getD_some, hcount, hjoin]
    rfl

/-- A session is found by its identifier. -/
theorem find?_session {s : SessionRow} (hs : s ∈ t.sessions) :
    t.sessions.find? (·.id == s.id) = some s := by
  cases hfind : t.sessions.find? (·.id == s.id) with
  | none => simpa using List.find?_eq_none.1 hfind s hs
  | some s' =>
    have hid := List.find?_some hfind
    rw [List.inj_on_of_nodup_map t.sessions_nodup (List.mem_of_find?_eq_some hfind) hs
      (beq_iff_eq.1 hid)]

/-- **Every session is listed once.** -/
theorem list_eq (t : Tables) : t.list = (t.sessions.map t.listing).mergeSort Listing.before := by
  rw [list, joined_eq, dedup_flatMap_join t.sessions_nodup, List.filterMap_map]
  have hfound : ∀ s ∈ t.sessions, (t.find? ∘ SessionRow.id) s = (some ∘ t.listing) s := by
    intro s hs
    rw [Function.comp, find?_eq, find?_session hs]
    rfl
  rw [List.filterMap_congr hfound, List.filterMap_eq_map]

end Tables

end Journal
end ProofKernel
