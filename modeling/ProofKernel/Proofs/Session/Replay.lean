import Mathlib.Logic.Function.Basic
import Mathlib.Logic.Relation
import ProofKernel.Proofs.Script.Source
import ProofKernel.Proofs.Session.Recording

/-!
# Resumed sessions

A journal holds the sources of the commands that changed the table of a session.  Executed again,
one after the other, they build the session again: queries and rejected commands left no trace in
it, and what other sessions wrote to the journal is not looked at.

* `Session.replay_append` and `Session.replay_source` replay one more command.
* `RecordedSession.resume_eq_ok_iff`: when a session can be resumed, and what it is then.
* `Logbook` is a journal with the sessions that are live on it, `Logbook.perform?` is a call on one
  of them, and `Logbook.Run` any number of calls in any order.
* `Logbook.Run.resumable`: every live session can be resumed from the journal, as it is.
-/

set_option autoImplicit false
namespace ProofKernel

/-! ## Journals -/

namespace Journal

variable {j j' : Journal} {cancelled : Bool} {id : String}

/-- Every text was appended for a session that was created.  Sessions append no others. -/
def Owned (j : Journal) : Prop :=
  ∀ e ∈ j.entries, (j.find? e.1).isSome = true

theorem ready_eq_ok_iff : j.ready cancelled = .ok () ↔ j.isOpen = true ∧ cancelled = false := by
  unfold ready
  cases j.isOpen <;> cases cancelled <;> simp

theorem isOpen_of_writable (h : j.writable cancelled = .ok ()) : j.isOpen = true := by
  unfold writable at h
  cases hready : j.ready cancelled with
  | error fault =>
    rw [hready] at h
    cases h
  | ok _ => exact (ready_eq_ok_iff.1 hready).1

theorem create_eq_ok_iff {r : Record} : j.create cancelled r = .ok j' ↔
    j.writable cancelled = .ok () ∧ j.find? r.id = none ∧
      j' = { j with records := j.records ++ [r] } := by
  unfold create
  cases j.writable cancelled with
  | error fault => exact ⟨nofun, nofun⟩
  | ok _ =>
    cases j.find? r.id with
    | some _ => exact ⟨nofun, nofun⟩
    | none => exact ⟨fun h => ⟨rfl, rfl, (Except.ok.inj h).symm⟩, fun h => congrArg _ h.2.2.symm⟩

/-- A session that was created is found before one that is created later. -/
theorem find?_of_eq_some {r r' : Record} (h : j.find? id = some r) :
    Journal.find? { j with records := j.records ++ [r'] } id = some r := by
  unfold find? at h ⊢
  rw [List.find?_append, h]
  rfl

theorem texts_append (entry : String × Text) :
    Journal.texts { j with entries := j.entries ++ [entry] } id =
      j.texts id ++ if entry.1 = id then [entry.2] else [] := by
  by_cases h : entry.1 = id <;> simp [texts, List.filter_append, h]

theorem Owned.create {r : Record} (hj : j.Owned) (h : j.create cancelled r = .ok j') :
    j'.Owned := by
  obtain ⟨_, _, rfl⟩ := create_eq_ok_iff.1 h
  intro e he
  obtain ⟨r₀, hr₀⟩ := Option.isSome_iff_exists.1 (hj e he)
  rw [find?_of_eq_some hr₀]
  rfl

theorem Owned.append {text : Text} (hj : j.Owned) (hid : (j.find? id).isSome = true)
    (h : j.append cancelled id text = .ok j') : j'.Owned := by
  obtain ⟨_, rfl⟩ := append_eq_ok_iff.1 h
  intro e he
  rcases List.mem_append.1 he with he | he
  · exact hj e he
  · obtain rfl := List.mem_singleton.1 he
    exact hid

theorem Owned.texts_eq_nil (hj : j.Owned) (h : j.find? id = none) : j.texts id = [] := by
  rw [texts, List.map_eq_nil_iff, List.filter_eq_nil_iff]
  intro e he heq
  have hfound := hj e he
  rw [beq_iff_eq.1 heq, h] at hfound
  cases hfound

end Journal

/-! ## Replaying -/

namespace Session

variable {s s' : Session} {label : Nat → String} {i : Nat} {texts : List Text}

theorem replay_cons_eq_ok_iff {input : Text} :
    s.replay label i (input :: texts) = .ok s' ↔ ∃ output,
      (s.execute input).2.value = .ok output ∧
        (s.execute input).1.replay label (i + 1) texts = .ok s' := by
  rw [replay]
  dsimp only
  cases (s.execute input).2.value <;> simp

theorem replay_append {more : List Text} {s'' : Session} (h : s.replay label i texts = .ok s')
    (hmore : s'.replay label (i + texts.length) more = .ok s'') :
    s.replay label i (texts ++ more) = .ok s'' := by
  induction texts generalizing s i with
  | nil =>
    cases h
    exact hmore
  | cons input texts ih =>
    obtain ⟨output, hresult, hrest⟩ := replay_cons_eq_ok_iff.1 h
    rw [List.length_cons, Nat.add_comm texts.length, ← Nat.add_assoc] at hmore
    exact replay_cons_eq_ok_iff.2 ⟨output, hresult, ih hrest hmore⟩

/-- A command that was run on a session is run again by replaying its source. -/
theorem replay_source {input : Text} {command : Command} {table : SymbolTable} {output : String}
    (hinput : input.Settled) (hparse : parseCommand input = .ok command)
    (hrun : (command.statement.run s.options s.table).outcome = .ok (table, output)) :
    s.replay label i [command.source] = .ok { s with table := table } := by
  obtain ⟨command', hparse', hsame⟩ := parseCommand_source hinput hparse
  simp only [replay, execute, hparse', run, hsame, hrun]

theorem options_start {options : Options} {withPrelude persistent : Bool}
    (h : (start options withPrelude persistent).value = .ok s) : s.options = options := by
  unfold start at h
  dsimp only at h
  split at h
  · cases h
  · cases h
    rfl

theorem options_execute (s : Session) (input : Text) :
    (s.execute input).1.options = s.options := by
  unfold execute
  cases parseCommand input with
  | error e => rfl
  | ok command =>
    simp only [run]
    split <;> rfl

theorem options_replay (h : s.replay label i texts = .ok s') : s'.options = s.options := by
  induction texts generalizing s i with
  | nil =>
    cases h
    rfl
  | cons input texts ih =>
    obtain ⟨_, _, hrest⟩ := replay_cons_eq_ok_iff.1 h
    rw [ih hrest, options_execute]

end Session

namespace RecordedSession

variable {options : Options} {j j' : Journal} {cancelled : Bool} {id : String}

theorem start_eq_ok {r : Journal.Record} {t : RecordedSession}
    (h : (start options j cancelled r).value = .ok (t, j')) :
    ∃ s, (Session.start options r.withPrelude true).value = .ok s ∧ t = ⟨r.id, s⟩ ∧
      j.create cancelled r = .ok j' := by
  unfold start at h
  dsimp only at h
  split at h
  · cases h
  · next s hs =>
    split at h
    · cases h
    · next hcreate =>
      cases h
      exact ⟨s, hs, rfl, hcreate⟩

/-- A session that was created is opened again and replayed. -/
theorem value_resume {r : Journal.Record} (hready : j.ready cancelled = .ok ())
    (hfind : j.find? id = some r) : (resume options j cancelled id).value =
      ((Session.start options r.withPrelude true).value >>= fun s =>
        s.replay (replayLabel id) 1 (j.texts id)).map (mk id) := by
  have hsession : j.session cancelled id = .ok (j.summary r) := by
    rw [Journal.session, hready, hfind]
    rfl
  have hcommands : j.commands cancelled id = .ok (j.texts id) := by
    rw [Journal.commands, hsession]
    rfl
  rw [resume, hsession, hcommands]
  dsimp only [Journal.summary]
  split
  · next e he => rw [he]; rfl
  · next s hs => rw [hs]; rfl

/-- **When a session can be resumed**: it was created, and what was appended for it is accepted
again. -/
theorem resume_eq_ok_iff {t : RecordedSession} :
    (resume options j cancelled id).value = .ok t ↔
      j.isOpen = true ∧ cancelled = false ∧ ∃ r s₀ s, j.find? id = some r ∧
        (Session.start options r.withPrelude true).value = .ok s₀ ∧
        s₀.replay (replayLabel id) 1 (j.texts id) = .ok s ∧ ⟨id, s⟩ = t := by
  rw [← and_assoc, ← Journal.ready_eq_ok_iff]
  cases hready : j.ready cancelled with
  | error fault =>
    have hsession : j.session cancelled id = .error fault := by
      rw [Journal.session, hready]
      rfl
    rw [resume, hsession]
    exact ⟨nofun, nofun⟩
  | ok _ =>
    cases hfind : j.find? id with
    | none =>
      have hsession : j.session cancelled id = .error (.unknown id) := by
        rw [Journal.session, hready, hfind]
        rfl
      rw [resume, hsession]
      exact ⟨nofun, fun ⟨_, _, _, _, hr, _⟩ => nomatch hr⟩
    | some r =>
      rw [value_resume hready hfind]
      cases hstart : (Session.start options r.withPrelude true).value with
      | error e => simp [hstart, Except.map, bind, Except.bind]
      | ok s₀ =>
        cases hreplay : s₀.replay (replayLabel id) 1 (j.texts id) <;>
          simp [hstart, hreplay, Except.map, bind, Except.bind]

theorem options_resume {t : RecordedSession} (h : (resume options j cancelled id).value = .ok t) :
    t.session.options = options := by
  obtain ⟨_, _, r, s₀, s, _, hstart, hreplay, rfl⟩ := resume_eq_ok_iff.1 h
  exact (Session.options_replay hreplay).trans (Session.options_start hstart)

/-! ## What the journal does meanwhile -/

/-- A session that was started can be resumed. -/
theorem resume_of_start {r : Journal.Record} {t : RecordedSession} (hj : j.Owned)
    (h : (start options j cancelled r).value = .ok (t, j')) :
    (resume options j' false r.id).value = .ok t := by
  obtain ⟨s, hstart, rfl, hcreate⟩ := start_eq_ok h
  obtain ⟨hwritable, hnew, rfl⟩ := Journal.create_eq_ok_iff.1 hcreate
  refine resume_eq_ok_iff.2
    ⟨Journal.isOpen_of_writable hwritable, rfl, r, s, s, ?_, hstart, ?_, rfl⟩
  · unfold Journal.find? at hnew ⊢
    rw [List.find?_append, hnew]
    simp
  · have htexts : Journal.texts { j with records := j.records ++ [r] } r.id = [] :=
      hj.texts_eq_nil hnew
    rw [htexts]
    rfl

/-- The creation of another session makes no difference. -/
theorem resume_create {r : Journal.Record} {t : RecordedSession} {gaveUp : Bool}
    (h : (resume options j cancelled id).value = .ok t) (hcreate : j.create gaveUp r = .ok j') :
    (resume options j' cancelled id).value = .ok t := by
  obtain ⟨_, _, rfl⟩ := Journal.create_eq_ok_iff.1 hcreate
  obtain ⟨hopen, hcancelled, r₀, s₀, s, hfind, hrest⟩ := resume_eq_ok_iff.1 h
  exact resume_eq_ok_iff.2 ⟨hopen, hcancelled, r₀, s₀, s, Journal.find?_of_eq_some hfind, hrest⟩

/-- A command of another session makes no difference. -/
theorem resume_append_of_ne {other : String} {text : Text} {t : RecordedSession} {gaveUp : Bool}
    (h : (resume options j cancelled id).value = .ok t) (hne : other ≠ id)
    (happend : j.append gaveUp other text = .ok j') :
    (resume options j' cancelled id).value = .ok t := by
  obtain ⟨_, rfl⟩ := Journal.append_eq_ok_iff.1 happend
  obtain ⟨hopen, hcancelled, r, s₀, s, hfind, hstart, hreplay, ht⟩ := resume_eq_ok_iff.1 h
  refine resume_eq_ok_iff.2 ⟨hopen, hcancelled, r, s₀, s, hfind, hstart, ?_, ht⟩
  rwa [Journal.texts_append, if_neg hne, List.append_nil]

/-- **A session that runs a command and records its source can be resumed as it is then.** -/
theorem resume_append {s : Session} {input : Text} {command : Command} {table : SymbolTable}
    {output : String} {gaveUp : Bool} (h : (resume options j cancelled id).value = .ok ⟨id, s⟩)
    (hinput : input.Settled) (hparse : parseCommand input = .ok command)
    (hrun : (command.statement.run s.options s.table).outcome = .ok (table, output))
    (happend : j.append gaveUp id command.source = .ok j') :
    (resume options j' cancelled id).value = .ok ⟨id, { s with table := table }⟩ := by
  obtain ⟨_, rfl⟩ := Journal.append_eq_ok_iff.1 happend
  obtain ⟨hopen, hcancelled, r, s₀, s, hfind, hstart, hreplay, heq⟩ := resume_eq_ok_iff.1 h
  cases heq
  refine resume_eq_ok_iff.2 ⟨hopen, hcancelled, r, s₀, _, hfind, hstart, ?_, rfl⟩
  rw [Journal.texts_append, if_pos rfl]
  exact Session.replay_append hreplay (Session.replay_source hinput hparse hrun)

/-- Whether a command was accepted or rejected, and the journal did not fail. -/
def concluded : Except Failure String → Bool
  | .ok _ | .error (.kernel _) | .error (.script _) => true
  | .error _ => false

theorem Executed.concluded_iff {s t : RecordedSession} {input : Text}
    {result : Except Failure String} (h : Executed s j cancelled input t j' result) :
    concluded result = true ↔ ∀ fault, result ≠ .error (Journal.appendFailure s.id fault) := by
  cases h with
  | unread => simp [concluded, ((Journal.appendFailure_ne s.id _).2 _).symm]
  | rejected => simp [concluded, ((Journal.appendFailure_ne s.id _).1 _).symm]
  | answered | recorded => simp [concluded]
  | @unrecorded _ _ _ fault =>
    have hfailed : concluded (.error (Journal.appendFailure s.id fault)) = false := by
      cases fault <;> rfl
    simp [hfailed]

end RecordedSession

/-! ## Sessions that share a journal -/

/-- A journal, and the sessions that are live on it, by their identifiers. -/
structure Logbook where
  journal : Journal
  live : String → Option Session

namespace Logbook

/-- A journal on which no session is live. -/
def idle (j : Journal) : Logbook :=
  ⟨j, fun _ => none⟩

/-- After a call: the journal, and the session that was called. -/
def put (w : Logbook) (j : Journal) (t : RecordedSession) : Logbook :=
  ⟨j, Function.update w.live t.id (some t.session)⟩

/-- A call: to start a session, to execute a command, or to resume a session. -/
inductive Action where
  | start (options : Options) (r : Journal.Record)
  | execute (id : String) (cancelled : Bool) (input : Text)
  | resume (options : Options) (id : String)

/-- A command is given in composed form. -/
def Action.Settled : Action → Prop
  | execute _ _ input => input.Settled
  | start _ _ | resume _ _ => True

/-- What a call leaves behind, unless the session or the journal fails.  A command may be rejected,
and a session that is resumed takes the place of the one that was live. -/
def perform? (w : Logbook) : Action → Option Logbook
  | .start options r =>
    match (RecordedSession.start options w.journal false r).value with
    | .ok (t, j) => some (w.put j t)
    | .error _ => none
  | .execute id cancelled input =>
    (w.live id).bind fun s =>
      let (t, j, result) := RecordedSession.execute ⟨id, s⟩ w.journal cancelled input
      if RecordedSession.concluded result.value then some (w.put j t) else none
  | .resume options id =>
    match (RecordedSession.resume options w.journal false id).value with
    | .ok t => some (w.put w.journal t)
    | .error _ => none

/-- One call. -/
def Step (w w' : Logbook) : Prop :=
  ∃ a : Action, a.Settled ∧ w.perform? a = some w'

/-- Any number of calls on any of the sessions, in any order. -/
abbrev Run : Logbook → Logbook → Prop :=
  Relation.ReflTransGen Step

variable {w w' : Logbook}

theorem live_put (j : Journal) (t : RecordedSession) : (w.put j t).live t.id = some t.session :=
  Function.update_self _ _ _

theorem live_put_of_ne (j : Journal) {t : RecordedSession} {id : String} (h : t.id ≠ id) :
    (w.put j t).live id = w.live id :=
  Function.update_of_ne (Ne.symm h) _ _

theorem perform?_start {options : Options} {r : Journal.Record} :
    w.perform? (.start options r) = some w' ↔ ∃ t j,
      (RecordedSession.start options w.journal false r).value = .ok (t, j) ∧ w.put j t = w' := by
  rw [perform?]
  split
  · next t j h => simp [h]
  · next h => simp [h]

theorem perform?_resume {options : Options} {id : String} :
    w.perform? (.resume options id) = some w' ↔ ∃ t,
      (RecordedSession.resume options w.journal false id).value = .ok t ∧
        w.put w.journal t = w' := by
  rw [perform?]
  cases (RecordedSession.resume options w.journal false id).value <;> simp

theorem perform?_execute {id : String} {cancelled : Bool} {input : Text} :
    w.perform? (.execute id cancelled input) = some w' ↔ ∃ s, w.live id = some s ∧
      let (t, j, result) := RecordedSession.execute ⟨id, s⟩ w.journal cancelled input
      RecordedSession.concluded result.value = true ∧ w.put j t = w' := by
  rw [perform?, Option.bind_eq_some_iff]
  simp only [Option.ite_none_right_eq_some, Option.some.injEq]

/-- What holds throughout a run: each live session can be resumed, as it is. -/
structure Sound (w : Logbook) : Prop where
  owned : w.journal.Owned
  resumes : ∀ id s, w.live id = some s →
    (RecordedSession.resume s.options w.journal false id).value = .ok ⟨id, s⟩

namespace Sound

theorem idle {j : Journal} (h : j.Owned) : Sound (idle j) :=
  ⟨h, nofun⟩

/-- One session is replaced, and the journal makes no difference to the others. -/
theorem put {j : Journal} {t : RecordedSession} (hj : j.Owned)
    (hself : (RecordedSession.resume t.session.options j false t.id).value = .ok t)
    (hothers : ∀ id s, t.id ≠ id → w.live id = some s →
      (RecordedSession.resume s.options j false id).value = .ok ⟨id, s⟩) : Sound (w.put j t) := by
  refine ⟨hj, fun id s hlive => ?_⟩
  by_cases hid : t.id = id
  · subst hid
    cases (live_put j t).symm.trans hlive
    exact hself
  · rw [live_put_of_ne j hid] at hlive
    exact hothers id s hid hlive

theorem start (h : Sound w) {options : Options} {r : Journal.Record} {t : RecordedSession}
    {j : Journal} (hstart : (RecordedSession.start options w.journal false r).value = .ok (t, j)) :
    Sound (w.put j t) := by
  have hself := RecordedSession.resume_of_start h.owned hstart
  obtain ⟨s, hs, rfl, hcreate⟩ := RecordedSession.start_eq_ok hstart
  refine put (h.owned.create hcreate) ?_ fun id s' _ hlive =>
    RecordedSession.resume_create (h.resumes id s' hlive) hcreate
  rwa [Session.options_start hs]

theorem resume (h : Sound w) {options : Options} {id : String} {t : RecordedSession}
    (hresume : (RecordedSession.resume options w.journal false id).value = .ok t) :
    Sound (w.put w.journal t) := by
  refine put h.owned ?_ fun id' s _ => h.resumes id' s
  obtain ⟨_, _, _, _, _, _, _, _, rfl⟩ := RecordedSession.resume_eq_ok_iff.1 hresume
  rwa [RecordedSession.options_resume hresume]

/-- **A command, accepted or not, leaves the sessions so that they can be resumed.** -/
theorem execute (h : Sound w) {id : String} {s : Session} {cancelled : Bool} {input : Text}
    {t : RecordedSession} {j : Journal} {result : Except Failure String}
    (hlive : w.live id = some s) (hinput : input.Settled)
    (hexecuted : RecordedSession.Executed ⟨id, s⟩ w.journal cancelled input t j result)
    (hconcluded : RecordedSession.concluded result = true) : Sound (w.put j t) := by
  have hself := h.resumes id s hlive
  have hkept := hexecuted.concluded_iff.1 hconcluded
  cases hexecuted with
  | unread | rejected | answered => exact put h.owned hself fun id' s' _ => h.resumes id' s'
  | recorded hparse hrun _ happend =>
    refine put (h.owned.append ?_ happend)
      (RecordedSession.resume_append hself hinput hparse hrun happend) fun id' s' hne hlive' =>
      RecordedSession.resume_append_of_ne (h.resumes id' s' hlive') hne happend
    obtain ⟨_, _, r, _, _, hfind, _⟩ := RecordedSession.resume_eq_ok_iff.1 hself
    simp [hfind]
  | unrecorded => exact absurd rfl (hkept _)

theorem step (h : Sound w) (hstep : w.Step w') : Sound w' := by
  obtain ⟨a, ha, hperform⟩ := hstep
  cases a with
  | start options r =>
    obtain ⟨t, j, hstart, rfl⟩ := perform?_start.1 hperform
    exact h.start hstart
  | execute id cancelled input =>
    obtain ⟨s, hlive, hconcluded, rfl⟩ := perform?_execute.1 hperform
    exact h.execute hlive ha (RecordedSession.execute_cases _ _ cancelled input) hconcluded
  | resume options id =>
    obtain ⟨t, hresume, rfl⟩ := perform?_resume.1 hperform
    exact h.resume hresume

theorem run (h : Sound w) (hrun : w.Run w') : Sound w' := by
  induction hrun with
  | refl => exact h
  | tail _ hstep ih => exact ih.step hstep

end Sound

/-- Calls that are made one after the other are a run. -/
theorem run_of_performAll {actions : List Action} (hsettled : ∀ a ∈ actions, a.Settled)
    (h : actions.foldlM perform? w = some w') : w.Run w' := by
  induction actions generalizing w with
  | nil =>
    cases h
    exact .refl
  | cons a rest ih =>
    rw [List.forall_mem_cons] at hsettled
    obtain ⟨next, hnext, hrest⟩ := Option.bind_eq_some_iff.1 h
    exact .head ⟨a, hsettled.1, hnext⟩ (ih hsettled.2 hrest)

/-- **Every live session can be resumed from the journal, and is then the same session**: with the
same prelude, names, entries and hints.  The journal may be shared with any other sessions, and the
session may itself have been resumed before and executed commands since. -/
theorem Run.resumable {j : Journal} {id : String} {s : Session} (hj : j.Owned)
    (hrun : (idle j).Run w) (hlive : w.live id = some s) :
    (RecordedSession.resume s.options w.journal false id).value = .ok ⟨id, s⟩ :=
  ((Sound.idle hj).run hrun).resumes id s hlive

/-- A session can be resumed whose last definition was given without a period, and which was asked
something, given something wrong and resumed meanwhile, while another one wrote to the journal. -/
theorem Run.resumable_shared :
    let options : Options := ⟨100, false, false, false⟩
    ∃ w s, (idle .empty).Run w ∧ w.live "a" = some s ∧
      s.table.names = ["P"] ∧ s.table.hints = ["P"] ∧
      w.journal.entries = [("a", Text.ofString "Definition P := Prop."),
        ("b", Text.ofString "Axiom Q : Prop."), ("a", Text.ofString "Hint P.")] ∧
      (RecordedSession.resume options w.journal false "a").value = .ok ⟨"a", s⟩ := by
  intro options
  let actions : List Action :=
    [.start options ⟨"a", false, ""⟩, .start options ⟨"b", false, ""⟩,
      .execute "a" false (Text.ofString " Definition P := Prop -- no period"),
      .execute "b" false (Text.ofString "Axiom Q : Prop."),
      .execute "a" true (Text.ofString "Check P."),
      .execute "a" false (Text.ofString "Definition R := Q."), .resume options "a",
      .execute "a" false (Text.ofString "Hint P.")]
  have hsettled : ∀ a ∈ actions, a.Settled := by
    simp only [actions, List.forall_mem_cons, Action.Settled]
    refine ⟨trivial, trivial, Text.settled_of_plain ?_, Text.settled_of_plain ?_,
      Text.settled_of_plain ?_, Text.settled_of_plain ?_, trivial, Text.settled_of_plain ?_,
      by simp⟩ <;> decide +kernel
  have hrun : ((actions.foldlM perform? (idle .empty)).any fun w => (w.live "a").any fun s =>
      decide (s.table.names = ["P"] ∧ s.table.hints = ["P"] ∧
        w.journal.entries = [("a", Text.ofString "Definition P := Prop."),
          ("b", Text.ofString "Axiom Q : Prop."), ("a", Text.ofString "Hint P.")] ∧
        s.options = options)) = true := by decide +kernel
  simp only [Option.any_eq_true, decide_eq_true_eq] at hrun
  obtain ⟨w, hperformed, s, hlive, hnames, hhints, hentries, hoptions⟩ := hrun
  have hw := run_of_performAll hsettled hperformed
  refine ⟨w, s, hw, hlive, hnames, hhints, hentries, ?_⟩
  rw [← hoptions]
  exact Run.resumable (by simp [Journal.Owned, Journal.empty]) hw hlive

end Logbook
end ProofKernel
