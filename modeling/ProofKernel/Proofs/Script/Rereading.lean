import ProofKernel.Proofs.Script.Source

/-!
# Scripts that are read again

The commands of a script are read again from their sources, each on its own or all of them one below
the other.

* `Parser.Recites` are the tokens of a script, command by command.  They are what the commands of a
  script are read from (`Parser.recites_of_commands`), and are read as these commands
  (`Parser.Recites.commands_eq_ok`).
* `recites_lines`: sources one below the other are read as the tokens of their commands.
* `sources_reread` is the whole, for single commands and for scripts.
-/

set_option autoImplicit false
namespace ProofKernel

namespace Lexer

/-- The later tokens of a text are those of the text behind the earlier ones. -/
theorem tokensFrom_suffix {place : Position} {text : Text} {pre post : List Token}
    (h : tokensFrom place text = .ok (pre ++ post)) (hpre : ∀ t ∈ pre, t.word ≠ .endOfInput) :
    ∃ place' text', text' <:+ text ∧ tokensFrom place' text' = .ok post := by
  induction pre generalizing place text with
  | nil => exact ⟨place, text, List.suffix_rfl, h⟩
  | cons t pre ih =>
    obtain ⟨ht, hpre⟩ := List.forall_mem_cons.1 hpre
    rcases tokensFrom_cases h with ⟨t', heq, hend, _⟩ |
      ⟨t', later, s, rest, n, heq, hgap, _, _, hlater⟩
    · obtain ⟨rfl, -⟩ := List.cons.inj heq
      exact absurd hend ht
    · obtain ⟨rfl, rfl⟩ := List.cons.inj heq
      obtain ⟨place', text', htext', hpost⟩ := ih hlater hpre
      have hrest : s :: rest <:+ text := ⟨_, gap_append hgap⟩
      exact ⟨place', text', htext'.trans ((List.drop_suffix n _).trans hrest), hpost⟩

/-- Nothing follows the end of input. -/
theorem eq_singleton_of_endOfInput {place : Position} {text : Text} {t : Token}
    {later : List Token} (h : tokensFrom place text = .ok (t :: later))
    (ht : t.word = .endOfInput) : later = [] := by
  rcases tokensFrom_cases h with ⟨t', heq, _⟩ | ⟨t', _, _, _, _, heq, _, hword, _⟩
  · exact (List.cons.inj heq).2
  · obtain ⟨rfl, -⟩ := List.cons.inj heq
    exact absurd ht (word_le hword).2

end Lexer

namespace Parser

/-! ## The tokens of a script -/

/-- The tokens of commands, one after the other, up to the end of input. -/
inductive Recites : List Command → List Token → Prop
  | nil {e : Token} (he : e.word = .endOfInput) : Recites [] [e]
  | cons {c : Command} {cs : List Command} {pre rest : List Token} {d : Token}
      (h : Utters c pre d) (hrest : Recites cs rest) : Recites (c :: cs) (pre ++ d :: rest)

variable {place : Position} {text : Text} {n k : Nat} {ts rest : List Token} {cs : List Command}

theorem commands_end {e : Token} (he : e.word = .endOfInput) (n k : Nat) (ts : List Token) :
    commands n k (e :: ts) = .ok ([], e :: ts) := by
  cases k with
  | zero => rfl
  | succ k =>
    rw [commands]
    exact bind_eq_ok_iff.2 ⟨true, e :: ts, sees_cons.2 he, rfl⟩

theorem commands_succ_eq_ok_iff {t : Token} (ht : t.word ≠ .endOfInput) :
    commands n (k + 1) (t :: ts) = .ok (cs, rest) ↔ ∃ c left later,
      command n true (t :: ts) = .ok (c, left) ∧ commands n k left = .ok (later, rest) ∧
        cs = c :: later := by
  have hsees : sees .endOfInput (t :: ts) = .ok (decide (t.word = .endOfInput), t :: ts) := rfl
  rw [decide_eq_false ht] at hsees
  rw [commands, bind_eq_ok_iff]
  constructor
  · rintro ⟨b, _, hb, h⟩
    cases hsees.symm.trans hb
    rw [if_neg Bool.false_ne_true, bind_eq_ok_iff] at h
    obtain ⟨c, left, hc, h⟩ := h
    obtain ⟨later, _, hlater, ⟨⟩⟩ := bind_eq_ok_iff.1 h
    exact ⟨c, left, later, hc, hlater, rfl⟩
  · rintro ⟨c, left, later, hc, hlater, rfl⟩
    refine ⟨false, t :: ts, hsees, ?_⟩
    rw [if_neg Bool.false_ne_true]
    exact bind_eq_ok_iff.2 ⟨c, left, hc, bind_eq_ok_iff.2 ⟨later, rest, hlater, rfl⟩⟩

/-- Tokens that begin with the end of input are no others. -/
theorem exists_eq_end (hts : Lexer.tokensFrom place text = .ok ts)
    (hend : sees .endOfInput ts = .ok (true, ts)) : ∃ e, ts = [e] ∧ e.word = .endOfInput := by
  cases ts with
  | nil => simpa using exists_closes hts
  | cons e later =>
    have he := sees_cons.1 hend
    exact ⟨e, by rw [Lexer.eq_singleton_of_endOfInput hts he], he⟩

/-- **The commands of a script are read from their tokens.** -/
theorem recites_of_commands (hts : Lexer.tokensFrom place text = .ok ts) (hn : fuel ts ≤ n)
    (h : commands n k ts = .ok (cs, rest)) (hend : sees .endOfInput rest = .ok (true, rest)) :
    Recites cs ts := by
  induction k generalizing place text ts cs with
  | zero =>
    cases h
    obtain ⟨e, rfl, he⟩ := exists_eq_end hts hend
    exact .nil he
  | succ k ih =>
    cases ts with
    | nil => simpa using exists_closes hts
    | cons t ts =>
      by_cases ht : t.word = .endOfInput
      · rw [commands_end ht] at h
        cases h
        rw [Lexer.eq_singleton_of_endOfInput hts ht]
        exact .nil ht
      · obtain ⟨c, left, later, hc, hlater, rfl⟩ := (commands_succ_eq_ok_iff ht).1 h
        rcases utters_of_command (exists_closes hts) hn hc with
          ⟨pre, d, heq, hutters⟩ | ⟨hterminated, _⟩
        · rw [heq, List.append_cons] at hts
          obtain ⟨_, _, _, hleft⟩ := Lexer.tokensFrom_suffix hts hutters.ne_endOfInput_of_mem
          have hfuel : fuel left ≤ n := by
            refine Nat.le_trans ?_ hn
            rw [heq]
            simp only [fuel, List.length_append, List.length_cons]
            omega
          rw [heq]
          exact .cons hutters (ih hleft hfuel hlater)
        · cases hterminated

namespace Recites

/-- The commands of a text in composed form are read again from their sources. -/
theorem rereadable (h : Recites cs ts) (hts : Lexer.tokensFrom place text = .ok ts)
    (htext : text.Settled) : ∀ c ∈ cs, c.Rereadable := by
  induction h generalizing place text with
  | nil => exact nofun
  | @cons c cs pre rest d h _ ih =>
    refine List.forall_mem_cons.2 ⟨h.rereadable htext hts, ?_⟩
    rw [List.append_cons] at hts
    obtain ⟨place', text', hsuffix, hrest⟩ := Lexer.tokensFrom_suffix hts h.ne_endOfInput_of_mem
    exact ih hrest (htext.part hsuffix.isInfix)

/-- **The tokens of commands are read as the commands.** -/
theorem commands_eq_ok (h : Recites cs ts) (hn : fuel ts ≤ n) (hk : cs.length ≤ k) :
    ∃ cs' e, commands n k ts = .ok (cs', [e]) ∧ e.word = .endOfInput ∧
      cs'.map Command.unplaced = cs.map Command.unplaced := by
  induction h generalizing k with
  | @nil e he => exact ⟨[], e, commands_end he n k [], he, rfl⟩
  | @cons c cs pre rest d h _ ih =>
    obtain ⟨k, rfl⟩ : ∃ k', k = k' + 1 := Nat.exists_eq_succ_of_ne_zero (by rintro rfl; cases hk)
    obtain ⟨c', hc, hsame⟩ := h.command_eq_ok true hn
    have hfuel : fuel rest ≤ n := by
      refine Nat.le_trans ?_ hn
      simp only [fuel, List.length_append, List.length_cons]
      omega
    obtain ⟨later, e, hlater, he, hrest⟩ := ih hfuel (Nat.le_of_succ_le_succ hk)
    obtain ⟨t, pre, rfl⟩ := List.exists_cons_of_ne_nil h.ne_nil
    have ht : t.word ≠ .endOfInput := ne_endOfInput (h.inner t List.mem_cons_self)
    refine ⟨c' :: later, e, ?_, he, by rw [List.map_cons, List.map_cons, hsame, hrest]⟩
    exact (commands_succ_eq_ok_iff ht).2 ⟨c', rest, later, hc, hlater, rfl⟩

/-- Every command takes a token at least. -/
theorem length_lt (h : Recites cs ts) : cs.length < ts.length := by
  induction h with
  | nil => exact Nat.one_pos
  | cons _ _ ih =>
    simp only [List.length_cons, List.length_append]
    omega

/-- The gap before the first token of a script is no part of a command. -/
theorem setGap {t : Token} {later : List Token} (h : Recites cs (t :: later)) (g : Text) :
    Recites cs ({ t with gap := g } :: later) := by
  generalize heq : t :: later = ts at h
  cases h with
  | nil he =>
    cases heq
    exact .nil he
  | @cons c cs pre rest d h hrest =>
    obtain ⟨t', pre, rfl⟩ := List.exists_cons_of_ne_nil h.ne_nil
    cases heq
    exact .cons (h.setGap g) hrest

end Recites

end Parser

open ProofKernel.Parser

/-! ## Sources one below the other -/

/-- The sources of commands, one below the other. -/
def Command.lines (cs : List Command) : Text :=
  [.char '\n'].intercalate (cs.map Command.source)

variable {cs : List Command}

theorem lines_cons_cons (c c' : Command) (cs : List Command) :
    Command.lines (c :: c' :: cs) = c.source ++ .char '\n' :: Command.lines (c' :: cs) := by
  simp [Command.lines, List.intercalate]

theorem lines_singleton (c : Command) : Command.lines [c] = c.source := by
  simp [Command.lines, List.intercalate]

/-- Sources begin with a plain symbol. -/
theorem exists_plain_lines {c : Command} (h : c.Rereadable) (cs : List Command) :
    ∃ s rest, Command.lines (c :: cs) = s :: rest ∧ Composed.isPlain s = true := by
  obtain ⟨s, rest, hsource, hs⟩ := h.plain
  cases cs with
  | nil => exact ⟨s, rest, by rw [lines_singleton, hsource], hs⟩
  | cons c' cs => exact ⟨s, _, by rw [lines_cons_cons, hsource, List.cons_append], hs⟩

/-- Sources one below the other are in composed form. -/
theorem composed_lines (h : ∀ c ∈ cs, c.Rereadable) :
    (Command.lines cs).composed = Command.lines cs := by
  induction cs with
  | nil => rfl
  | cons c cs ih =>
    obtain ⟨hc, hcs⟩ := List.forall_mem_cons.1 h
    cases cs with
    | nil => rw [lines_singleton, hc.composed]
    | cons c' cs =>
      obtain ⟨s, rest, hlines, hs⟩ := exists_plain_lines (hcs c' List.mem_cons_self) cs
      have hrest := ih hcs
      rw [hlines] at hrest
      rw [lines_cons_cons, hlines, Text.composed_newline hs hc.composed hrest]

/-- **Sources one below the other are read as the tokens of their commands.** -/
theorem recites_lines (h : ∀ c ∈ cs, c.Rereadable) (place : Position) :
    ∃ ts, Lexer.tokensFrom place (Command.lines cs) = .ok ts ∧ Recites cs ts := by
  induction cs generalizing place with
  | nil => exact ⟨_, Lexer.tokensFrom_empty place, .nil rfl⟩
  | cons c cs ih =>
    obtain ⟨hc, hcs⟩ := List.forall_mem_cons.1 h
    cases cs with
    | nil =>
      obtain ⟨pre, d, hutters, hread⟩ := hc.tokens .nil place
      rw [List.append_nil, Lexer.tokensFrom_empty] at hread
      rw [lines_singleton]
      exact ⟨_, hread, .cons hutters (.nil rfl)⟩
    | cons c' cs =>
      -- the other sources stand on the next lines
      obtain ⟨pre, d, hutters, hread⟩ :=
        hc.tokens (.newline (Command.lines (c' :: cs))) place
      obtain ⟨later, hlater, hrecites⟩ :=
        ih hcs ((place.after c.source).next (.char '\n'))
      have hlength := Nat.zero_lt_of_lt hrecites.length_lt
      obtain ⟨t, later, rfl⟩ := List.exists_cons_of_ne_nil (List.ne_nil_of_length_pos hlength)
      rw [Lexer.tokensFrom_newline hlater] at hread
      rw [lines_cons_cons]
      exact ⟨_, hread, .cons hutters (hrecites.setGap _)⟩

/-! ## Scripts -/

theorem parseScript_eq_ok_iff {path : String} {text : Text} {script : Script} :
    parseScript path text = .ok script ↔ script.path = path ∧ ∃ ts rest,
      Lexer.tokens text.composed = .ok ts ∧
      commands (fuel ts) (fuel ts) ts = .ok (script.commands, rest) ∧
      sees .endOfInput rest = .ok (true, rest) := by
  have hwhole : whole path text (fun fuel => commands fuel fuel) "end of script" =
      .ok script.commands ↔ _ := whole_eq_ok_iff
  rw [← hwhole, parseScript]
  cases whole path text (fun fuel => commands fuel fuel) "end of script" with
  | error e => simp [Except.map]
  | ok cs =>
    obtain ⟨path', cs'⟩ := script
    simp [Except.map, eq_comm]

/-- A script is read again from the sources of its commands. -/
theorem parseScript_lines (h : ∀ c ∈ cs, c.Rereadable) (path : String) :
    ∃ script, parseScript path (Command.lines cs) = .ok script ∧
      script.commands.map Command.unplaced = cs.map Command.unplaced := by
  obtain ⟨ts, hts, hrecites⟩ := recites_lines h .start
  have hk : cs.length ≤ fuel ts := by
    have hlt := hrecites.length_lt
    rw [fuel]
    omega
  obtain ⟨cs', e, hread, he, hsame⟩ := hrecites.commands_eq_ok (Nat.le_refl _) hk
  refine ⟨⟨path, cs'⟩, parseScript_eq_ok_iff.2 ⟨rfl, ts, [e], ?_, hread, sees_cons.2 he⟩, hsame⟩
  rw [composed_lines h]
  exact hts

/-- The commands of a script are read again from their sources. -/
theorem rereadable_of_parseScript {path : String} {text : Text} {script : Script}
    (htext : text.composed.Settled) (h : parseScript path text = .ok script) :
    ∀ c ∈ script.commands, c.Rereadable := by
  obtain ⟨_, ts, rest, hts, hcommands, hend⟩ := parseScript_eq_ok_iff.1 h
  exact (recites_of_commands hts (Nat.le_refl _) hcommands hend).rereadable hts htext

/-- **The source of a command is read as the command.**  For a command that was read from a text, or
in a script, its source is accepted as a command with the same statement and the same source; and
the sources of the commands of a script, one below the other, are accepted as a script with the same
commands up to their places.  All that is asked of the text is that composing leaves its composed
form, and the parts of that, as they are. -/
theorem sources_reread :
    (∀ (input : Text) (c : Command), input.composed.Settled → parseCommand input = .ok c →
      ∃ c', parseCommand c.source = .ok c' ∧ c'.statement = c.statement ∧ c'.source = c.source) ∧
    ∀ (path : String) (text : Text) (script : Script), text.composed.Settled →
      parseScript path text = .ok script →
      (∀ c ∈ script.commands, ∃ c', parseCommand c.source = .ok c' ∧
        c'.statement = c.statement ∧ c'.source = c.source) ∧
      ∀ path' : String, ∃ script', parseScript path' (Command.lines script.commands) = .ok script' ∧
        script'.commands.map Command.unplaced = script.commands.map Command.unplaced := by
  have hone : ∀ c : Command, c.Rereadable → ∃ c', parseCommand c.source = .ok c' ∧
      c'.statement = c.statement ∧ c'.source = c.source := by
    intro c hc
    obtain ⟨c', hc', hsame⟩ := hc.parseCommand_eq_ok
    exact ⟨c', hc', Command.unplaced_eq_iff.1 hsame⟩
  refine ⟨fun input c hinput h => hone c (rereadable_of_parseCommand hinput h), ?_⟩
  intro path text script htext h
  have hall := rereadable_of_parseScript htext h
  exact ⟨fun c hc => hone c (hall c hc), parseScript_lines hall⟩

/-- A command without its period that ends in a number, and a script with comments, a string with a
quote in it, a number before a period and letters that are not ASCII. -/
theorem sources_reread_numbers :
    let input := Text.ofString "Eval fun é : Int => 12 -- no period"
    let text := Text.ofString
      "(* a (* b *) *) Definition é (x : Int) := -5 .\n-- c\nCheck \"\\\" --\". Hint é. "
    input.composed.Settled ∧ text.composed.Settled ∧
      (∃ c c', parseCommand input = .ok c ∧
        c.source = Text.ofString "Eval fun é : Int => 12." ∧
        parseCommand c.source = .ok c' ∧ c'.statement = c.statement ∧ c'.source = c.source) ∧
      ∃ script script', parseScript "a" text = .ok script ∧
        Command.lines script.commands =
          Text.ofString "Definition é (x : Int) := -5 .\nCheck \"\\\" --\".\nHint é." ∧
        (∀ c ∈ script.commands, ∃ c', parseCommand c.source = .ok c' ∧
          c'.statement = c.statement ∧ c'.source = c.source) ∧
        parseScript "b" (Command.lines script.commands) = .ok script' ∧
        script'.commands.map Command.unplaced = script.commands.map Command.unplaced := by
  intro input text
  have hchars : input = _ := Text.ofString_ofList _
  have hchars' : text = _ := Text.ofString_ofList _
  have hinput : input.composed.Settled := by
    rw [hchars]
    exact Text.Settled.composed (.of_separate (by decide +kernel))
  have htext : text.composed.Settled := by
    rw [hchars']
    exact Text.Settled.composed (.of_separate (by decide +kernel))
  have hcommand : (parseCommand input).toOption.map Command.source =
      some (Text.ofString "Eval fun é : Int => 12.") := by
    rw [hchars, Text.ofString_ofList]
    decide +kernel
  have hscript : (parseScript "a" text).toOption.map (fun s => Command.lines s.commands) = some
      (Text.ofString "Definition é (x : Int) := -5 .\nCheck \"\\\" --\".\nHint é.") := by
    rw [hchars', Text.ofString_ofList]
    decide +kernel
  cases hc : parseCommand input with
  | error e =>
    rw [hc] at hcommand
    cases hcommand
  | ok c =>
    cases hs : parseScript "a" text with
    | error e =>
      rw [hs] at hscript
      cases hscript
    | ok script =>
      rw [hc] at hcommand
      rw [hs] at hscript
      obtain ⟨c', hc'⟩ := sources_reread.1 input c hinput hc
      obtain ⟨heach, hall⟩ := sources_reread.2 "a" text script htext hs
      obtain ⟨script', hs'⟩ := hall "b"
      exact ⟨hinput, htext, ⟨c, c', rfl, Option.some.inj hcommand, hc'⟩, script, script', rfl,
        Option.some.inj hscript, heach, hs'⟩

end ProofKernel
