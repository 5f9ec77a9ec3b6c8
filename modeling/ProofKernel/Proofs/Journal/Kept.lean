import Mathlib.Data.String.Basic
import ProofKernel.Proofs.Journal.History

/-!
# What a journal answers

A journal that keeps a list of sessions and a list of texts answers as its tables do.

* `Journal.perform` makes a call on a journal, and `History.journal` the calls of a history.
* `History.KeptBy` says that a journal keeps what a history wrote; `KeptBy.perform` is about one
  call, and `History.keptBy_after` about any number of them.
* `Journal.Database.perform_after`: after any calls, what the tables answer and what the journal
  answers is read off the history.
-/

set_option autoImplicit false
namespace ProofKernel
namespace Journal

/-! ## The order of sessions -/

theorem Listing.before_iff {a b : Listing} : a.before b = true ↔
    b.session.created < a.session.created ∨
      a.session.created = b.session.created ∧ a.session.id ≤ b.session.id := by
  simp [Listing.before]

theorem Listing.before_trans (a b c : Listing) (hab : a.before b = true) (hbc : b.before c = true) :
    a.before c = true := by
  rw [Listing.before_iff] at *
  rcases hab with hab | ⟨hab, hid⟩
  · rcases hbc with hbc | ⟨hbc, -⟩
    · exact .inl (hbc.trans hab)
    · exact .inl (hbc ▸ hab)
  · rcases hbc with hbc | ⟨hbc, hid'⟩
    · exact .inl (hab ▸ hbc)
    · exact .inr ⟨hab.trans hbc, hid.trans hid'⟩

theorem Listing.before_total (a b : Listing) : (a.before b || b.before a) = true := by
  rw [Bool.or_eq_true, Listing.before_iff, Listing.before_iff]
  rcases lt_trichotomy a.session.created b.session.created with h | h | h
  · exact .inr (.inl h)
  · rcases le_total a.session.id b.session.id with hid | hid
    · exact .inl (.inr ⟨h, hid⟩)
    · exact .inr (.inr ⟨h.symm, hid⟩)
  · exact .inl (.inl h)

/-- Sessions that were created one after the other are listed in reverse. -/
theorem mergeSort_before {l : List Listing}
    (h : l.Pairwise fun a b => a.session.created < b.session.created) :
    l.mergeSort Listing.before = l.reverse := by
  have hnodup : (l.map fun a => a.session.created).Nodup :=
    (List.pairwise_map.2 h).imp fun hlt => hlt.ne
  refine List.Perm.eq_of_pairwise ?_
    (List.pairwise_mergeSort Listing.before_trans Listing.before_total l) ?_
    ((List.mergeSort_perm l _).trans l.reverse_perm.symm)
  · intro a b ha hb hab hba
    rw [Listing.before_iff] at hab hba
    refine List.inj_on_of_nodup_map hnodup (List.mem_mergeSort.1 ha) (List.mem_reverse.1 hb) ?_
    omega
  · exact List.pairwise_reverse.2 (h.imp fun hlt => Listing.before_iff.2 (.inl hlt))

/-! ## Calls on a journal -/

/-- A row as the journal keeps it, with its time displayed. -/
def SessionRow.record (display : Int → String) (row : SessionRow) : Record :=
  ⟨row.id, row.withPrelude, display row.created⟩

/-- A listing as the journal gives it. -/
def Listing.summary (display : Int → String) (l : Listing) : Summary :=
  ⟨l.session.record display, l.commands⟩

/-- A fault as the journal gives it. -/
def Database.Fault.kept : Database.Fault → Journal.Fault
  | .closed => .closed
  | .cancelled => .cancelled
  | .sessionTaken _ => .taken
  | .commandTaken _ _ => .taken
  | .unknown id => .unknown id

/-- An answer as the journal gives it. -/
def Answer.display (display : Int → String) : Answer Listing → Answer Summary
  | .done => .done
  | .session l => .session (l.summary display)
  | .commands texts => .commands texts
  | .sessions ls => .sessions (ls.map (Listing.summary display))

/-- Makes a call on a journal. -/
def perform (j : Journal) (display : Int → String) (cancelled : Bool) :
    Call → Journal × Except Fault (Answer Summary)
  | .create id withPrelude now =>
    match j.create cancelled ⟨id, withPrelude, display now⟩ with
    | .ok j' => (j', .ok .done)
    | .error fault => (j, .error fault)
  | .append id text =>
    match j.append cancelled id text with
    | .ok j' => (j', .ok .done)
    | .error fault => (j, .error fault)
  | .session id => (j, (j.session cancelled id).map .session)
  | .commands id => (j, (j.commands cancelled id).map .commands)
  | .sessions => (j, (j.sessions cancelled).map .sessions)
  | .close => (j.close, .ok .done)

namespace History

/-- Whether an answer is that the caller gave up. -/
def gaveUp : Except Database.Fault (Answer Listing) → Bool
  | .error .cancelled => true
  | _ => false

/-- An empty journal after the calls of a history, those that were cancelled given up before. -/
def journal (display : Int → String) (past : History) : Journal :=
  past.foldl (fun j e => (j.perform display (gaveUp e.answer) e.call).1) .empty

/-- What a journal holds after calls. -/
structure KeptBy (display : Int → String) (past : History) (j : Journal) : Prop where
  records : j.records = past.sessions.map (SessionRow.record display)
  entries : j.entries = past.entries
  isOpen : j.isOpen = past.isOpen
  isReadOnly : j.isReadOnly = false

variable {display : Int → String} {past : History} {j : Journal} {patience : Patience}

theorem KeptBy.find? (h : past.KeptBy display j) (id : String) :
    j.find? id = (past.find? id).map (SessionRow.record display) := by
  rw [Journal.find?, h.records, List.find?_map]
  rfl

theorem KeptBy.texts (h : past.KeptBy display j) (id : String) : j.texts id = past.texts id := by
  rw [Journal.texts, h.entries, History.texts]

theorem KeptBy.summary (h : past.KeptBy display j) (s : SessionRow) :
    j.summary (s.record display) = (past.listing s).summary display := by
  rw [Journal.summary, h.texts]
  rfl

theorem KeptBy.concat (h : past.KeptBy display j) {e : Event} (hcreated : e.created? = none)
    (happended : e.appended? = none) (hcloses : e.closes = false) :
    KeptBy display (past ++ [e]) j where
  records := by rw [sessions_concat, hcreated, h.records, Option.toList_none, List.append_nil]
  entries := by rw [entries_concat, happended, h.entries, Option.toList_none, List.append_nil]
  isOpen := by rw [isOpen_concat, hcloses, h.isOpen, Bool.not_false, Bool.and_true]
  isReadOnly := h.isReadOnly

theorem KeptBy.ready_error (h : past.KeptBy display j) {steps : Nat} {fault : Database.Fault}
    (hready : past.ready patience steps = .error fault) :
    j.ready (gaveUp (.error fault)) = .error fault.kept := by
  rw [Journal.ready, h.isOpen]
  unfold History.ready at hready
  cases hopen : past.isOpen with
  | false =>
    rw [hopen] at hready
    cases hready
    rfl
  | true =>
    rw [hopen] at hready
    cases hlasts : patience.lasts steps with
    | true =>
      rw [hlasts] at hready
      cases hready
    | false =>
      rw [hlasts] at hready
      cases hready
      rfl

theorem KeptBy.ready_ok (h : past.KeptBy display j) {steps : Nat}
    (hready : past.ready patience steps = .ok ()) : j.ready false = .ok () := by
  rw [Journal.ready, h.isOpen]
  unfold History.ready at hready
  cases hopen : past.isOpen with
  | false =>
    rw [hopen] at hready
    cases hready
  | true => rfl

theorem KeptBy.writable (h : past.KeptBy display j) (cancelled : Bool) :
    j.writable cancelled = j.ready cancelled := by
  rw [Journal.writable, h.isReadOnly]
  cases j.ready cancelled <;> rfl

/-- A call on a journal that is answered as its history says. -/
structure Kept (display : Int → String) (past : History) (e : Event)
    (result : Journal × Except Fault (Answer Summary)) : Prop where
  journal : KeptBy display (past ++ [e]) result.1
  answer : result.2 = (e.answer.map (Answer.display display)).mapError Database.Fault.kept

/-- A call that cannot make its steps. -/
theorem KeptBy.fail (h : past.KeptBy display j) {call : Call} (hcall : call ≠ .close) {steps : Nat}
    {fault : Database.Fault} (hready : past.ready patience steps = .error fault) :
    Kept display past ⟨call, .error fault⟩ (j.perform display (gaveUp (.error fault)) call) := by
  have hj := h.ready_error hready
  have hfailed : j.perform display (gaveUp (.error fault)) call = (j, .error fault.kept) := by
    cases call with
    | close => exact absurd rfl hcall
    | create id withPrelude now =>
      rw [perform, Journal.create, h.writable, hj]
      rfl
    | append id text =>
      rw [perform, Journal.append, h.writable, hj]
      rfl
    | session id =>
      rw [perform, Journal.session, hj]
      rfl
    | commands id =>
      rw [perform, Journal.commands, Journal.session, hj]
      rfl
    | sessions =>
      rw [perform, Journal.sessions, hj]
      rfl
  rw [hfailed]
  refine ⟨h.concat ?_ ?_ ?_, rfl⟩ <;> cases call <;> rfl

/-! ### Calls that can make their steps -/

/-- The steps a call makes before it looks at what it found. -/
def steps : Call → Nat
  | .append _ _ => 4
  | _ => 1

theorem answer_of_ready_error {call : Call} (hcall : call ≠ .close) {fault : Database.Fault}
    (hready : past.ready patience (steps call) = .error fault) :
    past.answer patience call = .error fault := by
  cases call with
  | close => exact absurd rfl hcall
  | _ =>
    rw [answer]
    exact hready ▸ rfl

theorem KeptBy.create (h : past.KeptBy display j) (id : String) (withPrelude : Bool) (now : Int)
    (hready : past.ready patience 1 = .ok ()) :
    Kept display past
      ⟨.create id withPrelude now, past.answer patience (.create id withPrelude now)⟩
      (j.perform display (gaveUp (past.answer patience (.create id withPrelude now)))
        (.create id withPrelude now)) := by
  have hj := h.ready_ok hready
  cases hfind : past.find? id with
  | some s =>
    have hanswer : past.answer patience (.create id withPrelude now) =
        .error (.sessionTaken id) := by
      rw [History.answer, hready, hfind]
      rfl
    rw [hanswer]
    show Kept display past _ (j.perform display false (.create id withPrelude now))
    rw [perform, Journal.create, h.writable, hj, h.find?, hfind]
    exact ⟨h.concat rfl rfl rfl, rfl⟩
  | none =>
    have hanswer : past.answer patience (.create id withPrelude now) = .ok .done := by
      rw [History.answer, hready, hfind]
      rfl
    rw [hanswer]
    show Kept display past _ (j.perform display false (.create id withPrelude now))
    rw [perform, Journal.create, h.writable, hj, h.find?, hfind]
    refine ⟨⟨?_, ?_, ?_, h.isReadOnly⟩, rfl⟩
    · rw [sessions_concat, List.map_append, ← h.records]
      rfl
    · rw [entries_concat, ← h.entries]
      exact (List.append_nil _).symm
    · rw [isOpen_concat, ← h.isOpen]
      exact (Bool.and_true _).symm

theorem KeptBy.append (h : past.KeptBy display j) (id : String) (text : Text)
    (hready : past.ready patience 4 = .ok ()) :
    Kept display past ⟨.append id text, past.answer patience (.append id text)⟩
      (j.perform display (gaveUp (past.answer patience (.append id text))) (.append id text)) := by
  have hanswer : past.answer patience (.append id text) = .ok .done := by
    rw [History.answer, hready]
    rfl
  rw [hanswer]
  show Kept display past _ (j.perform display false (.append id text))
  rw [perform, Journal.append, h.writable, h.ready_ok hready]
  refine ⟨⟨?_, ?_, ?_, h.isReadOnly⟩, rfl⟩
  · rw [sessions_concat]
    exact h.records.trans (congrArg _ (List.append_nil _).symm)
  · rw [entries_concat, ← h.entries]
    rfl
  · rw [isOpen_concat, ← h.isOpen]
    exact (Bool.and_true _).symm

theorem KeptBy.session (h : past.KeptBy display j) (id : String)
    (hready : past.ready patience 1 = .ok ()) :
    Kept display past ⟨.session id, past.answer patience (.session id)⟩
      (j.perform display (gaveUp (past.answer patience (.session id))) (.session id)) := by
  refine ⟨h.concat rfl rfl rfl, ?_⟩
  cases hfind : past.find? id with
  | none =>
    have hanswer : past.answer patience (.session id) = .error (.unknown id) := by
      rw [History.answer, hready, hfind]
      rfl
    rw [hanswer]
    show (j.perform display false (.session id)).2 = _
    rw [perform, Journal.session, h.ready_ok hready, h.find?, hfind]
    rfl
  | some s =>
    have hanswer : past.answer patience (.session id) = .ok (.session (past.listing s)) := by
      rw [History.answer, hready, hfind]
      rfl
    rw [hanswer]
    show (j.perform display false (.session id)).2 = _
    rw [perform, Journal.session, h.ready_ok hready, h.find?, hfind, Option.map_some]
    exact congrArg (fun summary => Except.ok (Answer.session summary)) (h.summary s)

/-- The commands of a session are read in a second step. -/
theorem answer_commands {id : String} {s : SessionRow} (hready : past.ready patience 1 = .ok ())
    (hfind : past.find? id = some s) : past.answer patience (.commands id) =
      (past.ready patience 2).map fun _ => .commands (past.texts id) := by
  rw [History.answer, hready, hfind]
  show (past.ready patience 2 >>= fun _ => _) = _
  cases past.ready patience 2 <;> rfl

theorem KeptBy.commands (h : past.KeptBy display j) (id : String)
    (hready : past.ready patience 1 = .ok ()) :
    Kept display past ⟨.commands id, past.answer patience (.commands id)⟩
      (j.perform display (gaveUp (past.answer patience (.commands id))) (.commands id)) := by
  cases hfind : past.find? id with
  | none =>
    have hanswer : past.answer patience (.commands id) = .error (.unknown id) := by
      rw [History.answer, hready, hfind]
      rfl
    refine ⟨h.concat rfl rfl rfl, ?_⟩
    rw [hanswer]
    show (j.perform display false (.commands id)).2 = _
    rw [perform, Journal.commands, Journal.session, h.ready_ok hready, h.find?, hfind]
    rfl
  | some s =>
    rw [answer_commands hready hfind]
    cases hsecond : past.ready patience 2 with
    | error fault => exact h.fail (by simp) hsecond
    | ok _ =>
      refine ⟨h.concat rfl rfl rfl, ?_⟩
      show (j.perform display false (.commands id)).2 = _
      rw [perform, Journal.commands, Journal.session, h.ready_ok hready, h.find?, hfind, h.texts]
      rfl

/-- Sessions are listed in the same order when they were created one after the other. -/
theorem KeptBy.sessions (h : past.KeptBy display j) (hready : past.ready patience 1 = .ok ())
    (hclock : past.sessions.Pairwise fun r s => r.created < s.created) :
    Kept display past ⟨.sessions, past.answer patience .sessions⟩
      (j.perform display (gaveUp (past.answer patience .sessions)) .sessions) := by
  have hanswer : past.answer patience .sessions =
      .ok (.sessions (past.sessions.map past.listing).reverse) := by
    rw [← mergeSort_before (List.pairwise_map.2 hclock), History.answer, hready]
    rfl
  have hlist : j.records.reverse.map j.summary =
      ((past.sessions.map past.listing).reverse).map (Listing.summary display) := by
    rw [h.records, ← List.map_reverse, ← List.map_reverse, List.map_map, List.map_map]
    exact List.map_congr_left fun s _ => h.summary s
  refine ⟨h.concat rfl rfl rfl, ?_⟩
  rw [hanswer]
  show (j.perform display false .sessions).2 = _
  rw [perform, Journal.sessions, h.ready_ok hready]
  exact congrArg (fun summaries => Except.ok (Answer.sessions summaries)) hlist

theorem KeptBy.close (h : past.KeptBy display j) :
    Kept display past ⟨.close, .ok .done⟩ (j.perform display false .close) := by
  refine ⟨⟨?_, ?_, ?_, h.isReadOnly⟩, rfl⟩
  · rw [sessions_concat]
    exact h.records.trans (congrArg _ (List.append_nil _).symm)
  · rw [entries_concat]
    exact h.entries.trans (List.append_nil _).symm
  · rw [isOpen_concat]
    exact (Bool.and_false _).symm

/-- **One call** on a journal that keeps lists is answered as its history says; the list of sessions
is in the same order if they were created one after the other. -/
theorem KeptBy.perform (h : past.KeptBy display j) (patience : Patience) (call : Call)
    (hclock : call = .sessions → past.sessions.Pairwise fun r s => r.created < s.created) :
    Kept display past ⟨call, past.answer patience call⟩
      (j.perform display (gaveUp (past.answer patience call)) call) := by
  by_cases hcall : call = .close
  · subst hcall
    exact h.close
  cases hready : past.ready patience (steps call) with
  | error fault =>
    rw [answer_of_ready_error hcall hready]
    exact h.fail hcall hready
  | ok _ =>
    cases call with
    | create id withPrelude now => exact h.create id withPrelude now hready
    | append id text => exact h.append id text hready
    | session id => exact h.session id hready
    | commands id => exact h.commands id hready
    | sessions => exact h.sessions hready (hclock rfl)
    | close => exact absurd rfl hcall

/-- One call leaves a journal that keeps what the history says. -/
theorem KeptBy.journal_perform (h : past.KeptBy display j) (patience : Patience) (call : Call) :
    KeptBy display (past ++ [⟨call, past.answer patience call⟩])
      (j.perform display (gaveUp (past.answer patience call)) call).1 := by
  by_cases hcall : call = .sessions
  · subst hcall
    exact h.concat rfl rfl rfl
  · exact (h.perform patience call fun heq => absurd heq hcall).journal

/-- **Any calls** leave a journal that keeps what their history says. -/
theorem keptBy_after (calls : List (Patience × Call)) :
    KeptBy display (Database.after calls).2 ((Database.after calls).2.journal display) := by
  induction calls using List.reverseRecOn with
  | nil => exact ⟨rfl, rfl, rfl, rfl⟩
  | append_singleton calls next ih =>
    obtain ⟨hanswer, -⟩ := (Database.follows_after calls).perform next.1 next.2
    have hmore : (Database.after (calls ++ [next])).2 = (Database.after calls).2 ++
        [⟨next.2, (Database.after calls).2.answer next.1 next.2⟩] := by
      rw [← hanswer, Database.after, List.foldl_append]
      rfl
    rw [hmore, journal, List.foldl_append]
    exact ih.journal_perform next.1 next.2

end History

/-- **What a journal answers.**  After any calls, each of which may have found the journal closed or
may have been cancelled before any of its steps, the tables answer a call as the history of the
calls says, whatever failed before does not matter, and no session was created twice.  The journal
that keeps lists answers the same, and lists the sessions in the same order if later ones have later
times. -/
theorem Database.perform_after (calls : List (Patience × Call)) (patience : Patience)
    (call : Call) :
    let past := (Database.after calls).2
    ((Database.after calls).1.perform patience call).2 = past.answer patience call ∧
      past.answer patience call = History.answer (past.filter Event.succeeded) patience call ∧
      (past.sessions.map SessionRow.id).Nodup ∧
      ∀ display, (call = .sessions → past.sessions.Pairwise fun r s => r.created < s.created) →
        ((past.journal display).perform display (History.gaveUp (past.answer patience call))
            call).2 =
          ((past.answer patience call).map (Answer.display display)).mapError
            Database.Fault.kept := by
  intro past
  have hfollows := Database.follows_after calls
  refine ⟨(hfollows.perform patience call).1, (past.answer_filter_succeeded patience call).symm,
    ?_, fun display hclock => ?_⟩
  · rw [← hfollows.sessions]
    exact (Database.after calls).1.tables.sessions_nodup
  · exact ((History.keptBy_after calls).perform patience call hclock).answer

/-- A text is appended before its session is created, and a second text is not, since its context
is cancelled before the commit. -/
theorem Database.perform_after_interleaved :
    let one := Text.ofString "Axiom P : Prop."
    let two := Text.ofString "Axiom Q : Prop."
    let calls : List (Patience × Call) :=
      [(none, .append "b" one), (none, .create "a" true 1), (some 3, .append "b" two),
        (none, .create "b" false 2), (none, .create "b" true 3), (none, .append "b" two)]
    let made := Database.after calls
    (made.1.perform none (.commands "b")).2 = .ok (.commands [one, two]) ∧
      ((made.2.journal toString).perform toString false (.commands "b")).2 =
        .ok (.commands [one, two]) := by
  intro one two calls made
  obtain ⟨hanswer, -, -, hjournal⟩ := Database.perform_after calls none (.commands "b")
  have hexpected : made.2.answer none (.commands "b") = .ok (.commands [one, two]) := by
    decide +kernel
  have hkept := hjournal toString (by decide +kernel)
  rw [hexpected] at hanswer hkept
  exact ⟨hanswer, hkept⟩

end Journal
end ProofKernel
