import Mathlib.Data.List.Forall2
import ProofKernel.Proofs.Script.Grammar
import ProofKernel.Proofs.Script.Rereading
import ProofKernel.Proofs.Script.Sentence

/-!
# Names are resolved lexically

Of every text that is read, the parser gives terms in which each identifier refers to the innermost
binder of its name whose scope it stands in, unless the type of a group of binders is copied under
one of them that captures it.

* `Parser.covers_statement` and `Parser.command_words`: from the tokens of a command the parser
  reads the words of one orderly sentence.
* `Grammar.Phrase.Spells` and `Grammar.Sentence.Spells`: a phrase, or a sentence, is how a text is
  written.
* `parse_resolves` is the whole, for terms and for commands.
-/

set_option autoImplicit false
namespace ProofKernel

open Grammar

namespace Parser

variable {α β : Type} {ts : List Token} {fuel : Nat}

/-! ## Statements -/

theorem covers_peekName? : Covers peekName? ts fun ws found rest =>
    ws = [] ∧ rest = ts ∧ found = (next ts).name? := by
  intro found rest h
  cases ts <;> cases h <;> exact ⟨[], rfl, List.forall_mem_nil _, rfl, rfl, rfl⟩

/-- Constructors are read in a scope, up to a word that is no part of them. -/
theorem covers_constructors {scope : List String} {n : Nat} (hn : 4 * ts.length + 3 ≤ fuel)
    (hcount : ts.length ≤ n) :
    Covers (constructors fuel scope n) ts fun ws found rest => ∃ clauses : Clauses,
      clauses.words = ws ∧ clauses.Orderly ∧ clauses.elaborate scope = found ∧
        clauses.takes (next rest) = false := by
  induction n generalizing ts with
  | zero =>
    obtain rfl := List.length_eq_zero_iff.1 (Nat.le_zero.1 hcount)
    exact .pure ⟨.nil, rfl, trivial, rfl, rfl⟩
  | succ n ih =>
    rw [constructors]
    refine covers_peekName?.bind fun _ found left hlength hfound => ?_
    obtain ⟨rfl, rfl, rfl⟩ := hfound
    cases hname : (next left).name? with
    | none =>
      refine .pure ⟨.nil, rfl, trivial, rfl, ?_⟩
      rw [Clauses.takes, hname]
      rfl
    | some _ =>
      refine covers_name.bind fun _ c r₁ hlength₁ hc => ?_
      obtain ⟨rfl, hc⟩ := hc
      refine (covers_expect .colon (by decide)).bind fun _ _ r₂ hlength₂ hw => ?_
      cases hw
      refine ((grammatical fuel).term (by omega)).bind fun _ _ r₃ hlength₃ htype => ?_
      obtain ⟨type, rfl, htype, rfl, hnext⟩ := htype
      refine (covers_accept .bar (by decide)).bind fun _ b r₄ hlength₄ hb => ?_
      rcases hb with ⟨rfl, rfl, hbar⟩ | ⟨rfl, rfl, rfl, hne⟩
      · rw [hbar] at hnext
        refine (ih (by omega) ?_).bind fun _ _ r₅ _ hmore => ?_
        · simp only [List.length_cons, List.length_nil] at hlength₁
          omega
        obtain ⟨more, rfl, hmore, rfl, hlast⟩ := hmore
        exact .pure ⟨.cons c hc type more, by simp [Clauses.words], ⟨htype, hnext, hmore⟩, rfl,
          hlast⟩
      · exact .pure ⟨.last c hc type, by simp [Clauses.words], htype, rfl,
          by simp [Clauses.takes, hnext, hne]⟩

/-- The type that may stand in front of the body of a declaration, and what is read after it. -/
theorem covers_type? {Q : List Word → β → List Token → Prop} {scope : List String} {f : Term → α}
    {body : Option α → Parser β} (hn : 4 * ts.length + 3 ≤ fuel)
    (hbody : ∀ (type : Option Phrase) rest, rest.length ≤ ts.length → (∀ p ∈ type, p.Orderly) →
      Covers (body (type.map fun p => f (p.elaborate scope))) rest fun ws b last =>
        Q (ascription type ++ ws) b last) :
    Covers
      (do
        if ← accept .colon then
          let type ← term fuel scope
          let type ← pure (some (f type))
          body type
        else
          let type ← pure none
          body type) ts Q := by
  refine (covers_accept .colon (by decide)).bind fun _ b left hlength hb => ?_
  rcases hb with ⟨rfl, rfl, -⟩ | ⟨rfl, rfl, rfl, -⟩
  · refine ((grammatical fuel).term (by omega)).bind fun _ _ r₁ hlength₁ htype => ?_
    obtain ⟨type, rfl, htype, rfl, -⟩ := htype
    exact hbody (some type) r₁ (by omega) (by simpa using htype)
  · exact hbody none left (by omega) (by simp)

/-- What the parser says of a declaration, behind the word that begins it. -/
abbrev OfSentence (opener : String) (ws : List Word) (said : Statement) : Prop :=
  ∃ s : Sentence, s.words = .ident opener :: ws ∧ s.Orderly ∧ s.statement = said

theorem extend_header (params : Groups) :
    extend [] (params.elaborate []) = params.names.reverse := by
  rw [extend_elaborate, List.append_nil]

theorem covers_definition (hn : 4 * ts.length + 3 ≤ fuel) :
    Covers (definition fuel) ts fun ws d _ => OfSentence "Definition" ws (.declare d) := by
  unfold definition
  refine covers_name.bind fun _ x r₁ hlength₁ hx => ?_
  obtain ⟨rfl, hx⟩ := hx
  refine ((grammatical fuel).groups (by omega)).bind fun _ _ r₂ hlength₂ hparams => ?_
  obtain ⟨params, rfl, hparams, rfl, -⟩ := hparams
  dsimp only
  rw [extend_header]
  refine covers_type? (by omega) fun type r₃ hlength₃ htype => ?_
  refine (covers_expect .assign (by decide)).bind fun _ _ r₄ hlength₄ hw => ?_
  cases hw
  refine ((grammatical fuel).term (by omega)).bind fun _ _ r₅ _ hbody => ?_
  obtain ⟨body, rfl, hbody, rfl, -⟩ := hbody
  refine .pure ⟨.definition x hx params type body, by simp [Sentence.words],
    ⟨hparams, htype, hbody⟩, ?_⟩
  simp only [Sentence.statement, Groups.elaborate_front]
  rfl

theorem covers_postulate (hn : 4 * ts.length + 3 ≤ fuel) :
    Covers (postulate fuel) ts fun ws d _ => OfSentence "Axiom" ws (.declare d) := by
  unfold postulate
  refine covers_name.bind fun _ x r₁ hlength₁ hx => ?_
  obtain ⟨rfl, hx⟩ := hx
  refine ((grammatical fuel).groups (by omega)).bind fun _ _ r₂ hlength₂ hparams => ?_
  obtain ⟨params, rfl, hparams, rfl, -⟩ := hparams
  refine (covers_expect .colon (by decide)).bind fun _ _ r₃ hlength₃ hw => ?_
  cases hw
  rw [extend_header]
  refine ((grammatical fuel).term (by omega)).bind fun _ _ r₄ _ htype => ?_
  obtain ⟨type, rfl, htype, rfl, -⟩ := htype
  refine .pure ⟨.postulate x hx params type, by simp [Sentence.words], ⟨hparams, htype⟩, ?_⟩
  rw [Sentence.statement, Groups.elaborate_front]
  rfl

theorem covers_family (hn : 4 * ts.length + 3 ≤ fuel) :
    Covers (family fuel) ts fun ws d _ => OfSentence "Inductive" ws (.declare d) := by
  unfold family
  refine covers_name.bind fun _ x r₁ hlength₁ hx => ?_
  obtain ⟨rfl, hx⟩ := hx
  refine ((grammatical fuel).groups (by omega)).bind fun _ _ r₂ hlength₂ hparams => ?_
  obtain ⟨params, rfl, hparams, rfl, -⟩ := hparams
  dsimp only
  rw [extend_header]
  refine covers_type? (by omega) fun sort r₃ hlength₃ hsort => ?_
  refine (covers_expect .assign (by decide)).bind fun _ _ r₄ hlength₄ hw => ?_
  cases hw
  refine (covers_accept .bar (by decide)).bind fun ws bar r₅ hlength₅ hb => ?_
  have hbar : ws = if bar then [.bar] else [] := by
    rcases hb with ⟨rfl, rfl, -⟩ | ⟨rfl, rfl, -⟩ <;> rfl
  refine (covers_constructors (by omega) (by omega)).bind fun _ _ r₆ _ hclauses => ?_
  obtain ⟨clauses, rfl, hclauses, rfl, -⟩ := hclauses
  exact .pure ⟨.family x hx params sort bar clauses, by simp [Sentence.words, hbar],
    ⟨hparams, hsort, hclauses⟩, rfl⟩

/-- **The parser reads one orderly sentence**, and builds its statement. -/
theorem covers_statement (hn : 4 * ts.length + 3 ≤ fuel) :
    Covers (statement fuel) ts fun ws said _ => ∃ s : Sentence,
      s.words = ws ∧ s.Orderly ∧ s.statement = said := by
  unfold statement
  refine .peek fun t ht => ?_
  cases hw : t.word with
  | ident word =>
    rw [hw] at ht
    dsimp only
    split
    · refine .advance ht.symm (by simp) fun _ r hlength => ?_
      refine (covers_definition (by omega)).bind fun _ d _ _ hd => ?_
      exact .pure (by simpa using hd)
    · refine .advance ht.symm (by simp) fun _ r hlength => ?_
      refine (covers_postulate (by omega)).bind fun _ d _ _ hd => ?_
      exact .pure (by simpa using hd)
    · refine .advance ht.symm (by simp) fun _ r hlength => ?_
      refine (covers_family (by omega)).bind fun _ d _ _ hd => ?_
      exact .pure (by simpa using hd)
    · refine .advance ht.symm (by simp) fun _ r hlength => ?_
      refine ((grammatical fuel).term (by omega)).bind fun _ _ _ _ hp => ?_
      obtain ⟨p, rfl, hp, rfl, -⟩ := hp
      exact .pure ⟨.check p, by simp [Sentence.words], hp, rfl⟩
    · refine .advance ht.symm (by simp) fun _ r hlength => ?_
      refine ((grammatical fuel).term (by omega)).bind fun _ _ _ _ hp => ?_
      obtain ⟨p, rfl, hp, rfl, -⟩ := hp
      exact .pure ⟨.eval p, by simp [Sentence.words], hp, rfl⟩
    · refine .advance ht.symm (by simp) fun _ r hlength => ?_
      refine covers_name.bind fun _ x _ _ hx => ?_
      obtain ⟨rfl, hx⟩ := hx
      exact .pure ⟨.hint x hx, rfl, trivial, rfl⟩
    · exact .fail _ _
  | _ => exact .unexpected _

/-! ## Whole texts -/

variable {place : Position} {text : Text} {pre rest : List Token}

/-- The tokens of a text up to the end of input, behind some of them. -/
theorem exists_end (hts : Lexer.tokensFrom place text = .ok (pre ++ rest))
    (hpre : ∀ t ∈ pre, t.word ≠ .endOfInput) (hend : sees .endOfInput rest = .ok (true, rest)) :
    rest.map Token.word = [.endOfInput] := by
  obtain ⟨_, _, -, hrest⟩ := Lexer.tokensFrom_suffix hts hpre
  obtain ⟨e, rfl, he⟩ := exists_eq_end hrest hend
  exact congrArg (fun w => [w]) he

/-- **A command is read from one orderly sentence**, and a period that may be left out. -/
theorem exists_sentence {n : Nat} {c : Command}
    (hts : Lexer.tokensFrom place text = .ok ts) (hn : Parser.fuel ts ≤ n)
    (h : command n false ts = .ok (c, rest)) (hend : sees .endOfInput rest = .ok (true, rest)) :
    ∃ s : Sentence, s.Orderly ∧ s.statement = c.statement ∧
      (ts.map Token.word = s.words ++ [.dot, .endOfInput] ∨
        ts.map Token.word = s.words ++ [.endOfInput]) := by
  obtain ⟨left, hsaid, hcase⟩ := command_cases h
  have hfuel : 4 * ts.length + 3 ≤ n := Nat.le_trans (Nat.le_succ _) hn
  obtain ⟨pre, rfl, hpre, s, hwords, hs, hstatement⟩ := covers_statement hfuel _ left hsaid
  refine ⟨s, hs, hstatement, ?_⟩
  rcases hcase with ⟨d, rfl, hd, -⟩ | ⟨-, rfl, -, -⟩
  · rw [List.append_cons] at hts
    have hrest := exists_end hts
      (List.forall_mem_append.2 ⟨hpre, List.forall_mem_singleton.2 (by simp [hd])⟩) hend
    rw [List.map_append, List.map_cons, hd, hrest, hwords]
    exact .inl rfl
  · rw [List.map_append, exists_end hts hpre hend, hwords]
    exact .inr rfl

/-- The tokens of a command are those of one orderly sentence. -/
theorem Utters.exists_sentence {c : Command} {d : Token} (h : Utters c pre d) :
    ∃ s : Sentence, s.Orderly ∧ s.statement = c.statement := by
  have hclosed : Closed [d] := ⟨d, [], rfl, closes_iff.2 (.inl h.dot)⟩
  have hread := h.expresses (Parser.fuel (pre ++ [d])) pre [d] rfl hclosed (Nat.le_refl _)
  obtain ⟨_, _, _, s, _, hs, hstatement⟩ := covers_statement (Nat.le_succ _) _ _ hread
  exact ⟨s, hs, hstatement⟩

end Parser

open ProofKernel.Parser

/-- The words of a text, which is composed first. -/
def Text.words? (text : Text) : Except Fault (List Word) :=
  (Lexer.tokens text.composed).map (·.map Token.word)

namespace Grammar

variable {text : Text}

/-- How a term is written in a text: in these words, up to the end of input. -/
structure Phrase.Spells (p : Phrase) (text : Text) : Prop where
  orderly : p.Orderly
  words : text.words? = .ok (p.words ++ [.endOfInput])

/-- How a command is written in a text.  Its period may be left out. -/
structure Sentence.Spells (s : Sentence) (text : Text) : Prop where
  orderly : s.Orderly
  words : text.words? = .ok (s.words ++ [.dot, .endOfInput]) ∨
    text.words? = .ok (s.words ++ [.endOfInput])

theorem Phrase.Spells.unique {p p' : Phrase} (h : p.Spells text) (h' : p'.Spells text) :
    p' = p :=
  (Phrase.words_append_inj (Except.ok.inj (h'.words.symm.trans h.words)) h'.orderly h.orderly
    (p'.takes_eq_false rfl) (p.takes_eq_false rfl)).1

theorem Sentence.Spells.unique {s s' : Sentence} (h : s.Spells text) (h' : s'.Spells text) :
    s' = s := by
  have hrest : ∀ {s : Sentence}, s.Spells text → ∃ rest, continues (front rest) = false ∧
      text.words? = .ok (s.words ++ rest) := by
    rintro s ⟨-, hwords | hwords⟩
    · exact ⟨_, rfl, hwords⟩
    · exact ⟨_, rfl, hwords⟩
  obtain ⟨rest, hnext, hwords⟩ := hrest h
  obtain ⟨rest', hnext', hwords'⟩ := hrest h'
  exact (Sentence.words_append_inj (Except.ok.inj (hwords'.symm.trans hwords)) h'.orderly
    h.orderly hnext' hnext).1

/-- **The term that is read from a text** is built from the phrase it is written as. -/
theorem Phrase.exists_spells {t : Term} (h : parseTerm text = .ok t) :
    ∃ p : Phrase, p.Spells text ∧ p.elaborate [] = t := by
  obtain ⟨ts, rest, hts, hterm, hend⟩ := whole_eq_ok_iff.1 h
  obtain ⟨pre, rfl, hpre, p, hwords, hp, hvalue, -⟩ :=
    (grammatical _).term (Nat.le_succ _) t rest hterm
  refine ⟨p, ⟨hp, ?_⟩, hvalue⟩
  rw [Text.words?, hts, hwords, ← exists_end hts hpre hend, ← List.map_append]
  rfl

/-- **The command that is read from a text** is built from the sentence it is written as. -/
theorem Sentence.exists_spells {c : Command} (h : parseCommand text = .ok c) :
    ∃ s : Sentence, s.Spells text ∧ s.statement = c.statement := by
  obtain ⟨ts, rest, hts, hcommand, hend⟩ := whole_eq_ok_iff.1 h
  obtain ⟨s, hs, hstatement, hwords⟩ := exists_sentence hts (Nat.le_refl _) hcommand hend
  refine ⟨s, ⟨hs, ?_⟩, hstatement⟩
  rw [Text.words?, hts]
  exact hwords.imp (congrArg Except.ok) (congrArg Except.ok)

/-- **The commands that are read from a script** are built from sentences. -/
theorem Sentence.exists_of_parseScript {path : String} {script : Script}
    (h : parseScript path text = .ok script) :
    ∀ c ∈ script.commands, ∃ s : Sentence, s.Orderly ∧ s.statement = c.statement := by
  obtain ⟨-, ts, rest, hts, hcommands, hend⟩ := parseScript_eq_ok_iff.1 h
  have hrecites := recites_of_commands hts (Nat.le_refl _) hcommands hend
  generalize script.commands = cs at hrecites ⊢
  clear hts hcommands
  induction hrecites with
  | nil => exact nofun
  | cons h _ ih => exact List.forall_mem_cons.2 ⟨h.exists_sentence, ih⟩

end Grammar

/-- **Names are resolved lexically, unless one is captured.**  A text that is read is written as one
phrase, or one sentence.  In each of the terms that it gives, every identifier refers to the
innermost binder of its name whose scope it stands in, iff no copy of the type of a group stands
under a binder of the group that captures a name in it. -/
theorem parse_resolves (text : Text) :
    (∀ t, parseTerm text = .ok t → ∃ p : Phrase, (∀ p' : Phrase, p'.Spells text ↔ p' = p) ∧
      (t.nameless = p.resolve [] ↔ p.captures [] = false)) ∧
    ∀ c, parseCommand text = .ok c → ∃ s : Sentence, (∀ s' : Sentence, s'.Spells text ↔ s' = s) ∧
      List.Forall₂ (fun t p => t.nameless = p.resolve [] ↔ p.captures [] = false)
        c.statement.closed s.phrases := by
  constructor
  · intro t h
    obtain ⟨p, hp, rfl⟩ := Phrase.exists_spells h
    exact ⟨p, fun p' => ⟨hp.unique, fun heq => heq ▸ hp⟩, p.nameless_elaborate_iff⟩
  · intro c h
    obtain ⟨s, hs, hstatement⟩ := Sentence.exists_spells h
    refine ⟨s, fun s' => ⟨hs.unique, fun heq => heq ▸ hs⟩, ?_⟩
    rw [← hstatement, s.closed_statement, List.forall₂_map_left_iff]
    exact List.forall₂_same.2 fun p _ => p.nameless_elaborate_iff

/-- The second copy of `x` in `x y : x` stands under the first binder of the group, which captures
it.  The second text captures nothing. -/
theorem parse_resolves_shared :
    let x : Grammar.Atom := .name "x" (by decide)
    let y : Grammar.Atom := .name "y" (by decide)
    let prop : Grammar.Atom := .constant (.ident "Prop") (.sort .prop) rfl
    let phrase (a : Grammar.Atom) : Phrase := .application (.mk a .nil)
    let outer : Groups := .cons ⟨["x"], by decide⟩ (by decide) (phrase prop) .nil
    let inner : Groups := .cons ⟨["x", "y"], by decide⟩ (by decide) (phrase x) .nil
    let term : Phrase := .bind .lam true outer (.bind .lam true inner (phrase y))
    let params : Groups := .cons ⟨["x", "y"], by decide⟩ (by decide) (phrase prop) .nil
    let sentence : Sentence :=
      .postulate "weaken" (by decide) params (.arrow (.mk x .nil) (phrase x))
    let text := Text.ofString "fun x : Prop => fun x y : x => y"
    let source := Text.ofString "Axiom weaken (x y : Prop) : x -> x"
    (∃ t, parseTerm text = .ok t ∧ term.Spells text ∧ t.nameless ≠ term.resolve []) ∧
      ∃ c, parseCommand source = .ok c ∧ sentence.Spells source ∧
        c.statement.closed.map Term.nameless = sentence.phrases.map fun p => p.resolve [] := by
  intro x y prop phrase outer inner term params sentence text source
  have hchars : text = _ := Text.ofString_ofList _
  have hchars' : source = _ := Text.ofString_ofList _
  have hterm : term.Spells text := by
    refine ⟨by repeat constructor, ?_⟩
    rw [hchars]
    decide +kernel
  have hsentence : sentence.Spells source := by
    refine ⟨by repeat constructor, .inr ?_⟩
    rw [hchars']
    decide +kernel
  have hread : (parseTerm text).toOption.isSome = true := by
    rw [hchars]
    decide +kernel
  have hsaid : (parseCommand source).toOption.isSome = true := by
    rw [hchars']
    decide +kernel
  refine ⟨?_, ?_⟩
  · cases ht : parseTerm text with
    | error e =>
      rw [ht] at hread
      cases hread
    | ok t =>
      obtain ⟨p, hp, hlexical⟩ := (parse_resolves text).1 t ht
      rw [← (hp term).1 hterm] at hlexical
      exact ⟨t, rfl, hterm, fun h => Bool.noConfusion (hlexical.1 h)⟩
  · cases hc : parseCommand source with
    | error e =>
      rw [hc] at hsaid
      cases hsaid
    | ok c =>
      obtain ⟨s, hs, hlexical⟩ := (parse_resolves source).2 c hc
      rw [← (hs sentence).1 hsentence] at hlexical
      obtain ⟨t, _, hfirst, hrest, hclosed⟩ := List.forall₂_cons_right_iff.1 hlexical
      obtain rfl := List.forall₂_nil_right_iff.1 hrest
      exact ⟨c, rfl, hsentence, by rw [hclosed]; exact congrArg (fun t => [t]) (hfirst.2 rfl)⟩

end ProofKernel
