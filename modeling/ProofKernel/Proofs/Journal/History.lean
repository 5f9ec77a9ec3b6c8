import Mathlib.Data.List.Induction
import ProofKernel.Journal.Tables

/-!
# The history of a journal

A journal is a list of texts for each session: what it answers is read off the calls that succeeded
before, whatever other calls failed between them.

* `Journal.History` is what was called and answered; `History.sessions` and `History.texts` are what
  the calls that succeeded wrote.
* `History.answer` is the answer to the next call.
* `Journal.Database.Follows` says that tables hold what a history wrote; `Follows.perform` is about
  one call, and `Database.follows_after` about any number of them.
* `History.answer_filter_succeeded`: calls that failed change no answer.
-/

set_option autoImplicit false
namespace ProofKernel
namespace Journal

/-! ## Histories -/

/-- A call and its answer. -/
structure Event where
  call : Call
  answer : Except Database.Fault (Answer Listing)
deriving DecidableEq

namespace Event

/-- The session that a call created. -/
def created? : Event → Option SessionRow
  | ⟨.create id withPrelude now, .ok _⟩ => some ⟨id, withPrelude, now⟩
  | _ => none

/-- The session and the text that a call appended. -/
def appended? : Event → Option (String × Text)
  | ⟨.append id text, .ok _⟩ => some (id, text)
  | _ => none

/-- Whether a call closed the journal. -/
def closes : Event → Bool
  | ⟨.close, .ok _⟩ => true
  | _ => false

/-- Whether a call succeeded. -/
def succeeded (e : Event) : Bool :=
  e.answer.isOk

end Event

/-- What was called and answered, oldest first. -/
abbrev History : Type := List Event

namespace History

/-- The sessions that were created. -/
def sessions (past : History) : List SessionRow :=
  past.filterMap Event.created?

/-- The texts that were appended, with their sessions. -/
def entries (past : History) : List (String × Text) :=
  past.filterMap Event.appended?

/-- The session that was created with an identifier. -/
def find? (past : History) (id : String) : Option SessionRow :=
  past.sessions.find? (·.id == id)

/-- The texts that were appended for an identifier. -/
def texts (past : History) (id : String) : List Text :=
  (past.entries.filter (·.1 == id)).map Prod.snd

/-- Whether the journal was not closed. -/
def isOpen (past : History) : Bool :=
  !past.any Event.closes

/-- A session with the number of its texts. -/
def listing (past : History) (s : SessionRow) : Listing :=
  ⟨s, (past.texts s.id).length⟩

/-- Whether a call can make its first steps. -/
def ready (past : History) (patience : Patience) (steps : Nat) : Except Database.Fault Unit :=
  if !past.isOpen then .error .closed
  else if !patience.lasts steps then .error .cancelled
  else .ok ()

/-- What is answered to a call after others. -/
def answer (past : History) (patience : Patience) :
    Call → Except Database.Fault (Answer Listing)
  | .create id _ _ => do
    past.ready patience 1
    match past.find? id with
    | some _ => throw (.sessionTaken id)
    | none => return .done
  | .append _ _ => do
    past.ready patience 4
    return .done
  | .session id => do
    past.ready patience 1
    match past.find? id with
    | none => throw (.unknown id)
    | some s => return .session (past.listing s)
  | .commands id => do
    past.ready patience 1
    match past.find? id with
    | none => throw (.unknown id)
    | some _ =>
      past.ready patience 2
      return .commands (past.texts id)
  | .sessions => do
    past.ready patience 1
    return .sessions ((past.sessions.map past.listing).mergeSort Listing.before)
  | .close => return .done

theorem sessions_concat (past : History) (e : Event) :
    History.sessions (past ++ [e]) = past.sessions ++ e.created?.toList := by
  rw [sessions, List.filterMap_append]
  cases h : e.created? <;> simp [sessions, h]

theorem entries_concat (past : History) (e : Event) :
    History.entries (past ++ [e]) = past.entries ++ e.appended?.toList := by
  rw [entries, List.filterMap_append]
  cases h : e.appended? <;> simp [entries, h]

theorem isOpen_concat (past : History) (e : Event) :
    History.isOpen (past ++ [e]) = (past.isOpen && !e.closes) := by
  simp [isOpen]

end History

namespace Database

/-- Makes one more call. -/
def extend (made : Database × History) (next : Patience × Call) : Database × History :=
  let (db, answer) := made.1.perform next.1 next.2
  (db, made.2 ++ [⟨next.2, answer⟩])

/-- An empty database after some calls, with their history. -/
def after (calls : List (Patience × Call)) : Database × History :=
  calls.foldl extend (empty, [])

/-- What the tables hold after some calls, when no transaction is open. -/
structure Follows (db : Database) (past : History) : Prop where
  saved : db.saved = none
  isOpen : db.isOpen = past.isOpen
  sessions : db.tables.sessions = past.sessions
  entries : db.tables.commands.map (fun row => (row.session, row.text)) = past.entries
  numbered : db.tables.Numbered

variable {db : Database} {past : History} {patience : Patience}

theorem Follows.ready (h : db.Follows past) (patience : Patience) (step : Nat) :
    db.ready patience step = past.ready patience step := by
  rw [Database.ready, History.ready, h.isOpen]

theorem Follows.rows (h : db.Follows past) (id : String) :
    (db.tables.rows id).map CommandRow.text = past.texts id := by
  rw [History.texts, ← h.entries, List.filter_map, List.map_map]
  rfl

theorem Follows.listing (h : db.Follows past) : db.tables.listing = past.listing := by
  funext s
  rw [Tables.listing, History.listing, ← h.rows, List.length_map]

theorem Follows.find? (h : db.Follows past) (id : String) :
    db.tables.find? id = (past.find? id).map past.listing := by
  rw [Tables.find?_eq, History.find?, h.sessions, h.listing]

/-! ## One call -/

/-- A step fails as any later one does. -/
theorem ready_cases {i n : Nat} (hle : i ≤ n) : db.ready patience i = .ok () ∨
    ∃ fault, db.ready patience i = .error fault ∧ db.ready patience n = .error fault := by
  unfold Database.ready
  cases db.isOpen with
  | false => exact .inr ⟨.closed, rfl, rfl⟩
  | true =>
    cases patience with
    | none => exact .inl rfl
    | some k =>
      by_cases hi : i ≤ k
      · exact .inl (by simp [Patience.lasts, hi])
      · have hn : ¬ n ≤ k := by omega
        exact .inr ⟨.cancelled, by simp [Patience.lasts, hi], by simp [Patience.lasts, hn]⟩

/-- A step before a later one need not be looked at. -/
theorem ready_bind_ready {i n : Nat} {α : Type} (hle : i ≤ n) (rest : Except Fault α) :
    (do db.ready patience i; db.ready patience n; rest) = (do db.ready patience n; rest) := by
  obtain hi | ⟨fault, hi, hn⟩ : db.ready patience i = .ok () ∨
      ∃ fault, db.ready patience i = .error fault ∧ db.ready patience n = .error fault :=
    ready_cases hle
  · rw [hi]
    rfl
  · rw [hi, hn]
    rfl

/-- A call that writes nothing leaves the tables to follow the history. -/
theorem Follows.concat (h : db.Follows past) {e : Event} (hcreated : e.created? = none)
    (happended : e.appended? = none) (hcloses : e.closes = false) :
    db.Follows (past ++ [e]) where
  saved := h.saved
  isOpen := by rw [History.isOpen_concat, hcloses, h.isOpen, Bool.not_false, Bool.and_true]
  sessions := by
    rw [History.sessions_concat, hcreated, h.sessions, Option.toList_none, List.append_nil]
  entries := by
    rw [History.entries_concat, happended, h.entries, Option.toList_none, List.append_nil]
  numbered := h.numbered

/-- A call that fails leaves the tables to follow the history. -/
theorem Follows.fail (h : db.Follows past) {call : Call} {fault : Fault}
    (hfail : (db.perform patience call).2 = .error fault) :
    (db.perform patience call).1.Follows (past ++ [⟨call, .error fault⟩]) := by
  rw [perform_error h.saved hfail]
  refine h.concat ?_ ?_ ?_ <;> cases call <;> rfl

/-- A text is appended to those of its session. -/
theorem Follows.append (h : db.Follows past) (patience : Patience) (id : String) (text : Text) :
    (db.perform patience (.append id text)).2 = past.answer patience (.append id text) ∧
      ∀ answer, past.answer patience (.append id text) = .ok answer →
        (db.perform patience (.append id text)).1.Follows
          (past ++ [⟨.append id text, .ok answer⟩]) := by
  obtain ⟨tables, hinsert, hsessions, hcommands, hnumbered⟩ := h.numbered.insertCommand id text
  have happended : db.appended patience id text = (past.ready patience 4).map fun _ => tables := by
    unfold appended
    simp only [hinsert]
    rw [ready_bind_ready (by omega), ready_bind_ready (by omega), ready_bind_ready (by omega),
      h.ready]
    cases past.ready patience 4 <;> rfl
  rw [perform_append h.saved, happended, History.answer]
  cases past.ready patience 4 with
  | error fault =>
    refine ⟨rfl, fun _ h => ?_⟩
    cases h
  | ok _ =>
    refine ⟨rfl, fun _ _ => ⟨h.saved, ?_, ?_, ?_, hnumbered⟩⟩
    · rw [History.isOpen_concat]
      exact h.isOpen.trans (Bool.and_true _).symm
    · rw [History.sessions_concat]
      exact (hsessions.trans h.sessions).trans (List.append_nil _).symm
    · rw [History.entries_concat, ← h.entries]
      show tables.commands.map _ = _
      rw [hcommands, List.map_append]
      rfl

/-- A session is created unless there is one with its identifier. -/
theorem Follows.create (h : db.Follows past) (patience : Patience) (id : String)
    (withPrelude : Bool) (now : Int) :
    (db.perform patience (.create id withPrelude now)).2 =
        past.answer patience (.create id withPrelude now) ∧
      ∀ answer, past.answer patience (.create id withPrelude now) = .ok answer →
        (db.perform patience (.create id withPrelude now)).1.Follows
          (past ++ [⟨.create id withPrelude now, .ok answer⟩]) := by
  have hfind : past.find? id = db.tables.sessions.find? (·.id == id) := by
    rw [h.sessions]
    rfl
  rw [perform_create, created, History.answer, h.ready, hfind]
  cases past.ready patience 1 with
  | error fault =>
    refine ⟨rfl, fun _ h => ?_⟩
    cases h
  | ok _ =>
    rcases db.tables.insertSession_cases ⟨id, withPrelude, now⟩ with ⟨⟨s, hfind⟩, hinsert⟩ |
      ⟨hfind, tables, hinsert, hsessions, hcommands⟩
    · rw [hinsert, hfind]
      refine ⟨rfl, fun _ h => ?_⟩
      cases h
    · rw [hinsert, hfind]
      refine ⟨rfl, fun _ _ => ⟨h.saved, ?_, ?_, ?_, h.numbered.of_commands hcommands⟩⟩
      · rw [History.isOpen_concat]
        exact h.isOpen.trans (Bool.and_true _).symm
      · rw [History.sessions_concat, ← h.sessions]
        exact hsessions
      · rw [History.entries_concat, ← h.entries]
        exact (congrArg _ hcommands).trans (List.append_nil _).symm

theorem Follows.session (h : db.Follows past) (patience : Patience) (id : String) :
    (db.session patience id).map .session = past.answer patience (.session id) := by
  rw [Database.session, History.answer, h.ready, h.find?]
  cases past.ready patience 1 with
  | error fault => rfl
  | ok _ => cases past.find? id <;> rfl

theorem Follows.commands (h : db.Follows past) (patience : Patience) (id : String) :
    (db.commands patience id).map .commands = past.answer patience (.commands id) := by
  rw [Database.commands, Database.session, History.answer, h.ready, h.ready, h.find?,
    h.numbered.texts_eq, h.rows]
  cases past.ready patience 1 with
  | error fault => rfl
  | ok _ =>
    cases past.find? id with
    | none => rfl
    | some s => cases past.ready patience 2 <;> rfl

theorem Follows.sessions_eq (h : db.Follows past) (patience : Patience) :
    (db.sessions patience).map .sessions = past.answer patience .sessions := by
  rw [Database.sessions, History.answer, h.ready, Tables.list_eq, h.sessions, h.listing]
  cases past.ready patience 1 <;> rfl

theorem Follows.close (h : db.Follows past) :
    (db.perform patience .close).1.Follows (past ++ [⟨.close, .ok .done⟩]) where
  saved := h.saved
  isOpen := by
    rw [History.isOpen_concat]
    exact (Bool.and_false _).symm
  sessions := by
    rw [History.sessions_concat]
    exact h.sessions.trans (List.append_nil _).symm
  entries := by
    rw [History.entries_concat]
    exact h.entries.trans (List.append_nil _).symm
  numbered := h.numbered

/-- **One call** is answered as its history says. -/
theorem Follows.answer_eq (h : db.Follows past) (patience : Patience) (call : Call) :
    (db.perform patience call).2 = past.answer patience call := by
  cases call with
  | create id withPrelude now => exact (h.create patience id withPrelude now).1
  | append id text => exact (h.append patience id text).1
  | session id =>
    rw [perform_session]
    exact h.session patience id
  | commands id =>
    rw [perform_commands]
    exact h.commands patience id
  | sessions =>
    rw [perform_sessions]
    exact h.sessions_eq patience
  | close => rfl

/-- **One call** is answered as its history says, and leaves tables that follow the history. -/
theorem Follows.perform (h : db.Follows past) (patience : Patience) (call : Call) :
    (db.perform patience call).2 = past.answer patience call ∧
      (db.perform patience call).1.Follows (past ++ [⟨call, past.answer patience call⟩]) := by
  have hanswer := h.answer_eq patience call
  refine ⟨hanswer, ?_⟩
  cases hpast : past.answer patience call with
  | error fault => exact h.fail (hanswer.trans hpast)
  | ok answer =>
    cases call with
    | create id withPrelude now => exact (h.create patience id withPrelude now).2 answer hpast
    | append id text => exact (h.append patience id text).2 answer hpast
    | session id =>
      rw [perform_session]
      exact h.concat rfl rfl rfl
    | commands id =>
      rw [perform_commands]
      exact h.concat rfl rfl rfl
    | sessions =>
      rw [perform_sessions]
      exact h.concat rfl rfl rfl
    | close =>
      cases hpast
      exact h.close

theorem follows_empty : empty.Follows [] :=
  ⟨rfl, rfl, rfl, rfl, Tables.numbered_empty⟩

/-- **Any calls** leave tables that follow their history. -/
theorem follows_after (calls : List (Patience × Call)) :
    (after calls).1.Follows (after calls).2 := by
  induction calls using List.reverseRecOn with
  | nil => exact follows_empty
  | append_singleton calls next ih =>
    rw [after, List.foldl_append]
    obtain ⟨hanswer, hfollows⟩ := ih.perform next.1 next.2
    rw [← hanswer] at hfollows
    exact hfollows

end Database

/-! ## Calls that failed -/

namespace History

variable (past : History)

theorem sessions_filter_succeeded : sessions (past.filter Event.succeeded) = past.sessions := by
  rw [sessions, List.filterMap_filter]
  refine List.filterMap_congr fun e _ => ?_
  obtain ⟨call, answer⟩ := e
  cases answer <;> cases call <;> rfl

theorem entries_filter_succeeded : entries (past.filter Event.succeeded) = past.entries := by
  rw [entries, List.filterMap_filter]
  refine List.filterMap_congr fun e _ => ?_
  obtain ⟨call, answer⟩ := e
  cases answer <;> cases call <;> rfl

theorem isOpen_filter_succeeded : isOpen (past.filter Event.succeeded) = past.isOpen := by
  rw [isOpen, List.any_filter]
  refine congrArg (!List.any past ·) (funext fun e => ?_)
  obtain ⟨call, answer⟩ := e
  cases answer <;> cases call <;> rfl

/-- **Calls that failed change no answer.** -/
theorem answer_filter_succeeded (patience : Patience) (call : Call) :
    answer (past.filter Event.succeeded) patience call = past.answer patience call := by
  have hready : ready (past.filter Event.succeeded) = past.ready := by
    funext patience steps
    rw [ready, isOpen_filter_succeeded, ready]
  have hfind : find? (past.filter Event.succeeded) = past.find? := by
    funext id
    rw [find?, sessions_filter_succeeded]
    rfl
  have htexts : texts (past.filter Event.succeeded) = past.texts := by
    funext id
    rw [texts, entries_filter_succeeded, texts]
  have hlisting : listing (past.filter Event.succeeded) = past.listing := by
    funext s
    rw [listing, htexts, listing]
  cases call <;>
    simp only [answer, hready, hfind, htexts, hlisting, sessions_filter_succeeded]

end History

end Journal
end ProofKernel
