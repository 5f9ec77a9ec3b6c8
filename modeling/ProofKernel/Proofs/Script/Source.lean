import ProofKernel.Proofs.Script.Parsing
import ProofKernel.Proofs.Script.Settled
import ProofKernel.Proofs.Script.Tokens

/-!
# Source texts of commands

A command keeps the text it was read from, without what stands before and after it and with a
period at its end.  Read again, that text gives the same command.

* `Parser.Expresses` is what the words of a statement say, wherever they stand.
* `Parser.command_cases` is what is left of the tokens when a command was read, and what its source
  is.
* `Parser.Utters` are the tokens of a command; `Command.Rereadable` is a command that is read from
  its source, whatever closes the source.
* `rereadable_of_parseCommand` and `Command.Rereadable.parseCommand_eq_ok`: the source of a command
  is read as the same command.
-/

set_option autoImplicit false
namespace ProofKernel

/-- A command without the place where it stands. -/
def Command.unplaced (c : Command) : Command :=
  { c with position := .start }

theorem Command.unplaced_eq_iff {c c' : Command} :
    c'.unplaced = c.unplaced ↔ c'.statement = c.statement ∧ c'.source = c.source := by
  simp [unplaced, and_comm]

/-! ## What is left of the tokens -/

namespace Parser

theorem exists_sees (w : Word) (ts : List Token) : ∃ b, sees w ts = .ok (b, ts) := by
  cases ts <;> exact ⟨_, rfl⟩

theorem sees_cons {w : Word} {t : Token} {rest : List Token} :
    sees w (t :: rest) = .ok (true, t :: rest) ↔ t.word = w := by
  have hrun : sees w (t :: rest) = .ok (decide (t.word = w), t :: rest) := rfl
  simp [hrun]

theorem exists_peek (ts : List Token) : ∃ t, peek ts = .ok (t, ts) := by
  cases ts <;> exact ⟨_, rfl⟩

section Whole

variable {α : Type} {value : α}

theorem run_eq_ok_iff {p : Parser α} {ts : List Token} {report : Fault → SyntaxError} :
    Except.mapError report (do return (← p.run ts).1) = .ok value ↔
      ∃ rest, p ts = .ok (value, rest) := by
  cases h : p.run ts with
  | error e => exact ⟨nofun, fun ⟨rest, hrest⟩ => nomatch h.symm.trans hrest⟩
  | ok r =>
    constructor
    · rintro ⟨⟩
      exact ⟨r.2, h⟩
    · rintro ⟨rest, hrest⟩
      cases h.symm.trans hrest
      rfl

/-- A text is read when its tokens are, up to the end of input. -/
theorem whole_eq_ok_iff {path what : String} {text : Text} {rule : Nat → Parser α} :
    whole path text rule what = .ok value ↔
      ∃ ts rest, Lexer.tokens text.composed = .ok ts ∧ rule (fuel ts) ts = .ok (value, rest) ∧
        sees .endOfInput rest = .ok (true, rest) := by
  have hclose : ∀ {ts rest : List Token}, (do
        let value ← rule (fuel ts)
        if ← sees .endOfInput then return value
        unexpected what : Parser α) ts = .ok (value, rest) ↔
      rule (fuel ts) ts = .ok (value, rest) ∧ sees .endOfInput rest = .ok (true, rest) := by
    intro ts rest
    simp only [bind_eq_ok_iff]
    constructor
    · rintro ⟨v, left, hrule, b, left', hb, h⟩
      obtain ⟨b', hb'⟩ := exists_sees .endOfInput left
      cases hb.symm.trans hb'
      cases b with
      | true =>
        cases h
        exact ⟨hrule, hb⟩
      | false => cases left <;> cases h
    · rintro ⟨hrule, hend⟩
      exact ⟨value, rest, hrule, true, rest, hend, rfl⟩
  unfold whole
  cases hts : Lexer.tokens text.composed with
  | error e =>
    refine ⟨nofun, ?_⟩
    rintro ⟨ts, rest, hts', _⟩
    cases hts'
  | ok ts =>
    refine run_eq_ok_iff.trans ⟨fun ⟨rest, h⟩ => ⟨ts, rest, rfl, hclose.1 h⟩, ?_⟩
    rintro ⟨_, rest, ⟨⟩, h⟩
    exact ⟨rest, hclose.2 h⟩

end Whole

theorem accept_cases {w : Word} (hw : w ≠ .endOfInput) {ts rest : List Token} {b : Bool}
    (h : accept w ts = .ok (b, rest)) :
    b = true ∧ (∃ t, ts = t :: rest ∧ t.word = w) ∨ b = false ∧ rest = ts := by
  cases ts with
  | nil =>
    have hrun : accept w [] = (if decide (Word.endOfInput = w) = true then do
        let _ ← advance
        return true
      else return false : Parser Bool) [] := rfl
    rw [hrun, if_neg (by simpa using hw.symm)] at h
    cases h
    exact .inr ⟨rfl, rfl⟩
  | cons t ts =>
    by_cases ht : t.word = w
    · rw [accept_of_eq ts hw ht] at h
      cases h
      exact .inl ⟨rfl, t, rfl, ht⟩
    · rw [accept_of_ne ts ht] at h
      cases h
      exact .inr ⟨rfl, rfl⟩

/-- **How reading a command ends**: behind its period, or before the end of input. -/
theorem command_cases {n : Nat} {terminated : Bool} {ts rest : List Token} {c : Command}
    (h : command n terminated ts = .ok (c, rest)) :
    ∃ left, statement n ts = .ok (c.statement, left) ∧
      ((∃ d, left = d :: rest ∧ d.word = .dot ∧
          c.source = Token.source (ts.take (ts.length - rest.length))) ∨
        terminated = false ∧ left = rest ∧ sees .endOfInput rest = .ok (true, rest) ∧
          c.source = Token.source (ts.take (ts.length - rest.length)) ++ [.char '.']) := by
  unfold command at h
  simp only [bind_eq_ok_iff] at h
  obtain ⟨_, _, ⟨⟩, first, _, hpeek, said, left, hsaid, _, _, ⟨⟩, b, left', hdot, h⟩ := h
  obtain ⟨_, hfirst⟩ := exists_peek ts
  cases hpeek.symm.trans hfirst
  rcases accept_cases Word.noConfusion hdot with ⟨rfl, d, rfl, hd⟩ | ⟨rfl, hleft⟩
  · cases h
    exact ⟨_, hsaid, .inl ⟨d, rfl, hd, rfl⟩⟩
  · subst hleft
    rw [if_neg Bool.false_ne_true, bind_eq_ok_iff] at h
    obtain ⟨b, _, hsees, h⟩ := h
    obtain ⟨_, hend⟩ := exists_sees .endOfInput left'
    cases hsees.symm.trans hend
    cases terminated with
    | true => cases left' <;> cases h
    | false =>
      cases b with
      | true =>
        cases h
        exact ⟨_, hsaid, .inr ⟨rfl, rfl, hend, rfl⟩⟩
      | false => cases left' <;> cases h

theorem command_of_dot {n : Nat} (terminated : Bool) {ts rest : List Token} {d : Token}
    {said : Statement} (h : statement n ts = .ok (said, d :: rest)) (hd : d.word = .dot) :
    ∃ c, command n terminated ts = .ok (c, rest) ∧ c.statement = said ∧
      c.source = Token.source (ts.take (ts.length - rest.length)) := by
  obtain ⟨first, hpeek⟩ := exists_peek ts
  unfold command
  simp only [bind_eq_ok_iff]
  exact ⟨_, ⟨ts, ts, rfl, first, ts, hpeek, said, _, h, _, _, rfl, true, rest,
    accept_of_eq rest nofun hd, rfl⟩, rfl, rfl⟩

/-- What stands before the last tokens of a list. -/
theorem take_length_sub (before after : List Token) :
    (before ++ after).take ((before ++ after).length - after.length) = before := by
  simp

/-! ## What words say -/

/-- The statement that is read from words, wherever they stand before the close of a command. -/
def Expresses (words : List Word) (said : Statement) : Prop :=
  ∀ (n : Nat) (pre left : List Token), pre.map Token.word = words → Closed left →
    fuel (pre ++ left) ≤ n → statement n (pre ++ left) = .ok (said, left)

theorem ne_endOfInput {w : Word} (h : closes w = false) : w ≠ .endOfInput := by
  rintro rfl
  cases h

theorem exists_closed {ts : List Token} (h : ∃ t ∈ ts, closes t.word = true) :
    ∃ pre post, ts = pre ++ post ∧ Closed post ∧ ∀ t ∈ pre, closes t.word = false := by
  induction ts with
  | nil => simp at h
  | cons t ts ih =>
    cases ht : closes t.word with
    | true => exact ⟨[], _, rfl, ⟨t, ts, rfl, ht⟩, by simp⟩
    | false =>
      obtain ⟨pre, post, rfl, hpost, hpre⟩ := ih (by simpa [ht] using h)
      exact ⟨t :: pre, post, rfl, hpost, List.forall_mem_cons.2 ⟨ht, hpre⟩⟩

/-- **A statement that is read up to where the command closes** takes all that stands before, and
is said by the words of that. -/
theorem expresses_of_statement {n : Nat} {ts left : List Token} {said : Statement}
    (hclosed : ∃ t ∈ ts, closes t.word = true) (hn : fuel ts ≤ n)
    (h : statement n ts = .ok (said, left))
    (hleft : ∀ t rest, left = t :: rest → closes t.word = true) :
    ∃ pre, ts = pre ++ left ∧ pre ≠ [] ∧ (∀ t ∈ pre, closes t.word = false) ∧
      Expresses (pre.map Token.word) said := by
  obtain ⟨pre, post, rfl, hpost, hpre⟩ := exists_closed hclosed
  have henough : ∀ {us : List Token} {m : Nat}, fuel us ≤ m → 4 * us.length + 3 ≤ m :=
    fun hm => Nat.le_trans (Nat.le_succ _) hm
  have halike : Alike post post (pre ++ post) (pre ++ post) := .of_map hpost hpost hpre rfl
  obtain ⟨_, _, hrest, hlt⟩ := follows_statement halike ⟨henough hn, henough hn⟩ said left h
  obtain ⟨t, rest, _, _, rfl, _, _⟩ := hrest.head
  obtain ⟨rfl, _⟩ := hrest.eq_of_closed ⟨t, rest, rfl, hleft t rest rfl⟩
  refine ⟨pre, rfl, ?_, hpre, fun m pre' left' hwords hleft' hm => ?_⟩
  · rintro rfl
    exact Nat.lt_irrefl _ hlt
  · have halike' : Alike (t :: rest) left' (pre ++ t :: rest) (pre' ++ left') :=
      .of_map hpost hleft' hpre hwords
    obtain ⟨rest', hread, hrest', _⟩ :=
      follows_statement halike' ⟨henough hn, henough hm⟩ said _ h
    obtain ⟨_, rfl⟩ := hrest'.eq_of_closed hpost
    exact hread

/-! ## The tokens of a command -/

theorem source_append_singleton {pre : List Token} (hne : pre ≠ []) (d : Token) :
    Token.source (pre ++ [d]) = Token.source pre ++ (d.gap ++ d.lexeme) := by
  obtain ⟨t, pre, rfl⟩ := List.exists_cons_of_ne_nil hne
  simp [Token.source]

/-- The period that is added to a command that has none. -/
def period : Token :=
  ⟨.dot, [], [.char '.'], .start⟩

/-- The tokens of a command: those of its statement, and its period. -/
structure Utters (c : Command) (pre : List Token) (d : Token) : Prop where
  ne_nil : pre ≠ []
  inner : ∀ t ∈ pre, closes t.word = false
  expresses : Expresses (pre.map Token.word) c.statement
  dot : d.word = .dot
  source : c.source = Token.source (pre ++ [d])

namespace Utters

variable {c : Command} {pre : List Token} {d : Token}

theorem ne_endOfInput_of_mem (h : Utters c pre d) : ∀ t ∈ pre ++ [d], t.word ≠ .endOfInput := by
  simpa [or_imp, forall_and, h.dot] using fun t ht => ne_endOfInput (h.inner t ht)

/-- The tokens of a command are read as the command. -/
theorem command_eq_ok (h : Utters c pre d) {n : Nat} {rest : List Token} (terminated : Bool)
    (hn : fuel (pre ++ d :: rest) ≤ n) :
    ∃ c', command n terminated (pre ++ d :: rest) = .ok (c', rest) ∧
      c'.unplaced = c.unplaced := by
  have hclosed : Closed (d :: rest) := ⟨d, rest, rfl, closes_iff.2 (.inl h.dot)⟩
  obtain ⟨c', hc', hsaid, hsource⟩ :=
    command_of_dot terminated (h.expresses n pre (d :: rest) rfl hclosed hn) h.dot
  rw [List.append_cons, take_length_sub, ← h.source] at hsource
  exact ⟨c', hc', Command.unplaced_eq_iff.2 ⟨hsaid, hsource⟩⟩

/-- A command is read from tokens of the same words and the same source. -/
theorem of_words (h : Utters c pre d) {pre' : List Token} {d' : Token}
    (hwords : pre'.map Token.word = pre.map Token.word) (hd : d'.word = d.word)
    (hsource : Token.source (pre' ++ [d']) = Token.source (pre ++ [d])) : Utters c pre' d' where
  ne_nil := by
    rintro rfl
    exact h.ne_nil (List.map_eq_nil_iff.1 hwords.symm)
  inner t ht := by
    have hmem : t.word ∈ pre.map Token.word := hwords ▸ List.mem_map_of_mem ht
    obtain ⟨u, hu, heq⟩ := List.mem_map.1 hmem
    exact heq ▸ h.inner u hu
  expresses := hwords ▸ h.expresses
  dot := hd.trans h.dot
  source := h.source.trans hsource.symm

/-- The gap before the first token of a command is no part of it. -/
theorem setGap {t : Token} (h : Utters c (t :: pre) d) (g : Text) :
    Utters c ({ t with gap := g } :: pre) d :=
  h.of_words rfl rfl rfl

end Utters

/-- **A command is read from its tokens**, up to its period or, where that may be left out, up to
the end of input. -/
theorem utters_of_command {n : Nat} {terminated : Bool} {ts rest : List Token} {c : Command}
    (hclosed : ∃ t ∈ ts, closes t.word = true) (hn : fuel ts ≤ n)
    (h : command n terminated ts = .ok (c, rest)) :
    (∃ pre d, ts = pre ++ d :: rest ∧ Utters c pre d) ∨
      terminated = false ∧ ∃ pre, ts = pre ++ rest ∧ Utters c pre period := by
  obtain ⟨left, hsaid, hcase⟩ := command_cases h
  have hleft : ∀ t later, left = t :: later → closes t.word = true := by
    rintro t later rfl
    rcases hcase with ⟨d, heq, hd, _⟩ | ⟨_, rfl, hend, _⟩
    · cases heq
      exact closes_iff.2 (.inl hd)
    · exact closes_iff.2 (.inr (sees_cons.1 hend))
  obtain ⟨pre, rfl, hne, hpre, hexpresses⟩ := expresses_of_statement hclosed hn hsaid hleft
  rcases hcase with ⟨d, rfl, hd, hsource⟩ | ⟨hterminated, rfl, hend, hsource⟩
  · rw [List.append_cons, take_length_sub] at hsource
    exact .inl ⟨pre, d, rfl, hne, hpre, hexpresses, hd, hsource⟩
  · rw [take_length_sub] at hsource
    exact .inr ⟨hterminated, pre, rfl, hne, hpre, hexpresses, rfl,
      hsource.trans (source_append_singleton hne period).symm⟩

/-! ## The first symbol of a source -/

/-- The words that begin a statement. -/
def openers : List String :=
  ["Definition", "Axiom", "Inductive", "Check", "Eval", "Hint"]

theorem opener_of_statement {n : Nat} {t : Token} {ts rest : List Token} {said : Statement}
    (h : statement n (t :: ts) = .ok (said, rest)) : ∃ k ∈ openers, t.word = .ident k := by
  unfold statement at h
  obtain ⟨_, _, ⟨⟩, h⟩ := bind_eq_ok_iff.1 h
  cases hw : t.word with
  | ident k =>
    refine ⟨k, Classical.byContradiction fun hk => ?_, rfl⟩
    simp only [openers, List.mem_cons, List.not_mem_nil, or_false, not_or] at hk
    obtain ⟨hdefinition, hpostulate, hfamily, hcheck, heval, hhint⟩ := hk
    -- the parser is simplified before it is applied to the tokens
    rw [hw] at h
    conv at h =>
      lhs
      fun
      simp only [hdefinition, hpostulate, hfamily, hcheck, heval, hhint]
    cases h
  | _ =>
    rw [hw] at h
    cases h

end Parser

/-- The first symbol of a name is its first character. -/
theorem Lexer.eq_char_of_word {s : Symbol} {rest : Text} {k : String} {n : Nat}
    (h : Lexer.word s rest = .ok (.ident k, n)) (hfun : k ≠ "fun") (hforall : k ≠ "forall") :
    ∃ c tail, s = .char c ∧ k = String.ofList (c :: tail) := by
  unfold word at h
  dsimp only at h
  split at h
  · next hname =>
    cases h
    cases s with
    | char c => exact ⟨c, _, rfl, rfl⟩
    | stray b => cases hname
  · split at h
    · unfold numberWord at h
      dsimp only at h
      split at h <;> cases h
    · split at h
      · split at h <;> cases h
      · split at h
        · next hsigns =>
          cases h
          unfold signs at hsigns
          split at hsigns <;> cases hsigns
          · exact absurd rfl hfun
          · exact absurd rfl hforall
        · cases h

namespace Lexer

/-- The source of a command begins with a plain symbol. -/
theorem exists_plain_source {place : Position} {text : Text} {t : Token} {later pre : List Token}
    (h : tokensFrom place text = .ok (t :: later)) {k : String} (hk : k ∈ Parser.openers)
    (ht : t.word = .ident k) :
    ∃ s rest, Token.source (t :: pre) = s :: rest ∧ Composed.isPlain s = true := by
  rcases tokensFrom_cases h with ⟨t', heq, hend, _⟩ |
    ⟨t', later', s, rest, n, heq, _, hword, hlexeme, _⟩
  · obtain ⟨rfl, -⟩ := List.cons.inj heq
    simp [hend] at ht
  obtain ⟨rfl, -⟩ := List.cons.inj heq
  obtain ⟨m, rfl⟩ : ∃ m, n = m + 1 := ⟨n - 1, by have := word_pos hword; omega⟩
  refine ⟨s, _, by rw [Token.source, hlexeme, List.take_succ_cons, List.cons_append], ?_⟩
  rw [ht] at hword
  simp only [Parser.openers, List.mem_cons, List.not_mem_nil, or_false] at hk
  obtain ⟨c, tail, rfl, hchars⟩ := eq_char_of_word hword (by rintro rfl; simp at hk)
    (by rintro rfl; simp at hk)
  have hhead := congrArg (·.toList.head?) hchars
  simp only [String.toList_ofList, List.head?_cons] at hhead
  rcases hk with rfl | rfl | rfl | rfl | rfl | rfl <;>
  · cases hhead
    rfl

end Lexer

/-! ## Commands that are read again -/

/-- A command that is read from its source, at any place and whatever closes the source. -/
structure Command.Rereadable (c : Command) : Prop where
  composed : c.source.composed = c.source
  plain : ∃ s rest, c.source = s :: rest ∧ Composed.isPlain s = true
  tokens : ∀ {T : Text}, Lexer.Closing T → ∀ place, ∃ pre d, Parser.Utters c pre d ∧
    Lexer.tokensFrom place (c.source ++ T) =
      (Lexer.tokensFrom (place.after c.source) T).map (pre ++ d :: ·)

namespace Parser

variable {place : Position} {text : Text} {c : Command} {pre rest : List Token}

theorem exists_plain_of_expresses {later : List Token} {said : Statement}
    (hts : Lexer.tokensFrom place text = .ok (pre ++ later)) (hne : pre ≠ [])
    (hexpresses : Expresses (pre.map Token.word) said) (more : List Token) :
    ∃ s rest, Token.source (pre ++ more) = s :: rest ∧ Composed.isPlain s = true := by
  obtain ⟨t, pre, rfl⟩ := List.exists_cons_of_ne_nil hne
  let e : Token := ⟨.endOfInput, [], [], place⟩
  have hread := hexpresses _ (t :: pre) [e] rfl ⟨e, [], rfl, rfl⟩ (Nat.le_refl _)
  obtain ⟨k, hk, ht⟩ := opener_of_statement hread
  exact Lexer.exists_plain_source hts hk ht

/-- **A command of a text in composed form is read again from its source.** -/
theorem Utters.rereadable {d : Token} (h : Utters c pre d) (htext : text.Settled)
    (hts : Lexer.tokensFrom place text = .ok (pre ++ d :: rest)) : c.Rereadable where
  composed := by
    rw [List.append_cons] at hts
    rw [h.source]
    exact htext _ (Lexer.source_infix hts)
  plain := by
    rw [h.source]
    exact exists_plain_of_expresses hts h.ne_nil h.expresses [d]
  tokens {T} hT place' := by
    rw [List.append_cons] at hts
    obtain ⟨all, hwords, hsource, hread⟩ :=
      Lexer.tokensFrom_source hT hts h.ne_endOfInput_of_mem place'
    rw [List.map_append, List.map_singleton] at hwords
    obtain ⟨pre', last, rfl, hpre, hlast⟩ := List.map_eq_append_iff.1 hwords
    obtain ⟨d', rfl, hd⟩ := List.map_eq_singleton_iff.1 hlast
    refine ⟨pre', d', h.of_words hpre hd hsource, ?_⟩
    rw [h.source, hread]
    simp only [List.append_assoc, List.singleton_append]

/-- **So is a command to whose source a period was added.** -/
theorem Utters.rereadable_period (h : Utters c pre period) (htext : text.Settled)
    (hts : Lexer.tokensFrom place text = .ok (pre ++ rest)) : c.Rereadable where
  composed := by
    rw [h.source, source_append_singleton h.ne_nil]
    exact Text.composed_period (htext _ (Lexer.source_infix hts))
  plain := by
    rw [h.source]
    exact exists_plain_of_expresses hts h.ne_nil h.expresses [period]
  tokens {T} hT place' := by
    obtain ⟨pre', hwords, hsource, hread⟩ := Lexer.tokensFrom_source
      (.period hT.takeWhile_isNumeral) hts (fun t ht => ne_endOfInput (h.inner t ht)) place'
    have hne : pre' ≠ [] := by
      rintro rfl
      exact h.ne_nil (List.map_eq_nil_iff.1 hwords.symm)
    let after := place'.after (Token.source pre)
    refine ⟨pre', { period with position := after }, h.of_words hwords rfl ?_, ?_⟩
    · rw [source_append_singleton hne, source_append_singleton h.ne_nil, hsource]
    · have hplace : place'.after c.source = after.next (.char '.') := by
        rw [h.source, source_append_singleton h.ne_nil, Position.after_append]
        rfl
      rw [hplace, h.source, source_append_singleton h.ne_nil, List.append_assoc]
      refine hread.trans ?_
      rw [Lexer.tokensFrom_dot]
      cases Lexer.tokensFrom (after.next (.char '.')) T <;> rfl

/-- Tokens of a text have a word that closes a command. -/
theorem exists_closes {ts : List Token} (h : Lexer.tokensFrom place text = .ok ts) :
    ∃ t ∈ ts, closes t.word = true := by
  obtain ⟨_, init, last, rfl, hlast, _⟩ := Lexer.tokensFrom_append h
  exact ⟨last, by simp, closes_iff.2 (.inr hlast)⟩

end Parser

open ProofKernel.Parser

variable {input : Text} {c : Command}

/-- A command that was read from a text is read again from its source. -/
theorem rereadable_of_parseCommand (hinput : input.composed.Settled)
    (h : parseCommand input = .ok c) : c.Rereadable := by
  obtain ⟨ts, rest, hts, hcommand, _⟩ := whole_eq_ok_iff.1 h
  rcases utters_of_command (exists_closes hts) (Nat.le_refl _) hcommand with
    ⟨pre, d, rfl, hutters⟩ | ⟨_, pre, rfl, hutters⟩
  · exact hutters.rereadable hinput hts
  · exact hutters.rereadable_period hinput hts

/-- **The source of a command is read as the command.** -/
theorem Command.Rereadable.parseCommand_eq_ok (h : c.Rereadable) :
    ∃ c', parseCommand c.source = .ok c' ∧ c'.unplaced = c.unplaced := by
  obtain ⟨pre, d, hutters, hread⟩ := h.tokens .nil .start
  let e : Token := ⟨.endOfInput, [], [], Position.start.after c.source⟩
  have htokens : Lexer.tokens c.source.composed = .ok (pre ++ d :: [e]) := by
    rw [List.append_nil, Lexer.tokensFrom_empty] at hread
    rw [h.composed]
    exact hread
  obtain ⟨c', hc', hsame⟩ :=
    hutters.command_eq_ok false (Nat.le_refl (fuel (pre ++ d :: [e])))
  have hend : sees .endOfInput [e] = .ok (true, [e]) := sees_cons.2 rfl
  exact ⟨c', whole_eq_ok_iff.2 ⟨_, _, htokens, hc', hend⟩, hsame⟩

/-- The source of a command gives the same statement. -/
theorem parseCommand_source (hinput : input.Settled) (h : parseCommand input = .ok c) :
    ∃ c', parseCommand c.source = .ok c' ∧ c'.statement = c.statement := by
  obtain ⟨c', hc', hsame⟩ := (rereadable_of_parseCommand hinput.composed h).parseCommand_eq_ok
  exact ⟨c', hc', (Command.unplaced_eq_iff.1 hsame).1⟩

end ProofKernel
