import ProofKernel.Proofs.Script.Lexical
import ProofKernel.Proofs.Script.Orderly
import ProofKernel.Script.Command

/-!
# The concrete syntax of commands

Commands as they are written.  A declaration has groups of binders in its header, whose scope is the
rest of the declaration.

* `Grammar.Sentence` is a command as it is written, without its period, and `Sentence.words` are its
  words.
* `Sentence.statement` is the statement that is built from it.
* `Statement.closed` are the terms that a statement says something about, and `Sentence.phrases` are
  the phrases they are built from (`Sentence.closed_statement`): the header stands in front of each.
* `Sentence.words_append_inj`: orderly sentences are unambiguous.
-/

set_option autoImplicit false
namespace ProofKernel

open ProofKernel.Parser (startsAtom)

/-- The terms that a statement says something about.  The parameters of an inductive type close its
sort and the types of its constructors. -/
def Statement.closed : Statement → List Term
  | declare (.definition _ type body) => type.toList ++ [body]
  | declare (.postulate _ type) => [type]
  | declare (.family _ params sort constructors) =>
    (sort.getD (.sort (.type 0)) :: constructors.map Prod.snd).map (Term.pis params)
  | check t | eval t => [t]
  | hint _ => []

namespace Grammar

/-- The constructors of an inductive type, separated by bars; one more bar may follow. -/
inductive Clauses where
  | nil
  | last (name : String) (h : name ∉ Word.keywords) (type : Phrase)
  | cons (name : String) (h : name ∉ Word.keywords) (type : Phrase) (rest : Clauses)

/-- A command without its period. -/
inductive Sentence where
  | definition (name : String) (h : name ∉ Word.keywords) (params : Groups) (type : Option Phrase)
      (body : Phrase)
  | postulate (name : String) (h : name ∉ Word.keywords) (params : Groups) (type : Phrase)
  | family (name : String) (h : name ∉ Word.keywords) (params : Groups) (sort : Option Phrase)
      (bar : Bool) (clauses : Clauses)
  | check (p : Phrase)
  | eval (p : Phrase)
  | hint (name : String) (h : name ∉ Word.keywords)

/-! ## Words -/

/-- A type that may be left out. -/
def ascription : Option Phrase → List Word
  | none => []
  | some type => .colon :: type.words

def Clauses.words : Clauses → List Word
  | nil => []
  | last name _ type => .ident name :: .colon :: type.words
  | cons name _ type rest => .ident name :: .colon :: type.words ++ .bar :: rest.words

/-- The words of a sentence. -/
def Sentence.words : Sentence → List Word
  | definition name _ params type body =>
    .ident "Definition" :: .ident name :: params.words false ++ ascription type ++
      .assign :: body.words
  | postulate name _ params type =>
    .ident "Axiom" :: .ident name :: params.words false ++ .colon :: type.words
  | family name _ params sort bar clauses =>
    .ident "Inductive" :: .ident name :: params.words false ++ ascription sort ++
      .assign :: (if bar then [.bar] else []) ++ clauses.words
  | check p => .ident "Check" :: p.words
  | eval p => .ident "Eval" :: p.words
  | hint name _ => [.ident "Hint", .ident name]

/-- Whether a word right behind constructors is read as part of them. -/
def Clauses.takes : Clauses → Word → Bool
  | nil, w => w.name?.isSome
  | last _ _ type, w => w = .bar || type.takes w
  | cons _ _ _ rest, w => rest.takes w

def Clauses.Orderly : Clauses → Prop
  | nil => True
  | last _ _ type => type.Orderly
  | cons _ _ type rest => type.Orderly ∧ type.takes .bar = false ∧ rest.Orderly

/-- No word of a sentence could be read as part of what stands before it. -/
def Sentence.Orderly : Sentence → Prop
  | definition _ _ params type body =>
    params.Orderly ∧ (∀ p ∈ type, p.Orderly) ∧ body.Orderly
  | postulate _ _ params type => params.Orderly ∧ type.Orderly
  | family _ _ params sort _ clauses =>
    params.Orderly ∧ (∀ p ∈ sort, p.Orderly) ∧ clauses.Orderly
  | check p | eval p => p.Orderly
  | hint _ _ => True

/-! ## Statements -/

def Clauses.elaborate (scope : List String) : Clauses → Telescope
  | nil => []
  | last name _ type => [(name, type.elaborate scope)]
  | cons name _ type rest => (name, type.elaborate scope) :: rest.elaborate scope

/-- A term behind the groups of a header. -/
def Groups.front (params : Groups) (q : Quantifier) (p : Phrase) : Phrase :=
  .bind q false params p

theorem Groups.elaborate_front (params : Groups) (q : Quantifier) (p : Phrase) :
    (params.front q p).elaborate [] =
      q.close (params.elaborate []) (p.elaborate params.names.reverse) := by
  rw [front, Phrase.elaborate, List.append_nil]

/-- The statement that is built from a sentence. -/
def Sentence.statement : Sentence → Statement
  | definition name _ params type body =>
    .declare (.definition name (type.map fun p => (params.front .pi p).elaborate [])
      ((params.front .lam body).elaborate []))
  | postulate name _ params type =>
    .declare (.postulate name ((params.front .pi type).elaborate []))
  | family name _ params sort _ clauses =>
    let scope := params.names.reverse
    .declare (.family name (params.elaborate []) (sort.map fun p => p.elaborate scope)
      (clauses.elaborate scope))
  | check p => .check (p.elaborate [])
  | eval p => .eval (p.elaborate [])
  | hint name _ => .hint name

def Clauses.types : Clauses → List Phrase
  | nil => []
  | last _ _ type => [type]
  | cons _ _ type rest => type :: rest.types

/-- The sort `Type`, for an inductive type that has no other. -/
def lowest : Phrase :=
  .application (.mk (.constant (.ident "Type") (.sort (.type 0)) rfl) .nil)

/-- The phrases that a sentence says something about. -/
def Sentence.phrases : Sentence → List Phrase
  | definition _ _ params type body =>
    type.toList.map (params.front .pi) ++ [params.front .lam body]
  | postulate _ _ params type => [params.front .pi type]
  | family _ _ params sort _ clauses =>
    (sort.getD lowest :: clauses.types).map (params.front .pi)
  | check p | eval p => [p]
  | hint _ _ => []

theorem Clauses.map_snd_elaborate (scope : List String) :
    ∀ clauses : Clauses, (clauses.elaborate scope).map Prod.snd =
      clauses.types.map fun p => p.elaborate scope
  | nil => rfl
  | last _ _ _ => rfl
  | cons _ _ type rest => congrArg (type.elaborate scope :: ·) (rest.map_snd_elaborate scope)

/-- The terms of a statement are built from the phrases of its sentence. -/
theorem Sentence.closed_statement (s : Sentence) :
    s.statement.closed = s.phrases.map fun p => p.elaborate [] := by
  cases s with
  | definition name h params type body => cases type <;> rfl
  | family name h params sort bar clauses =>
    rw [statement, Statement.closed, phrases, List.map_map, clauses.map_snd_elaborate]
    cases sort <;> simp [Function.comp_def, Groups.elaborate_front, Quantifier.close, lowest,
      Phrase.elaborate, Application.elaborate, Args.elaborate, Atom.elaborate]
  | _ => rfl

/-! ## Equal words -/

variable {rest rest' : List Word}

theorem Clauses.takes_eq_false {w : Word} (h : continues w = false) :
    ∀ clauses : Clauses, clauses.takes w = false
  | nil => by
    cases w with
    | ident x => simp_all [continues, takes, startsAtom]
    | _ => rfl
  | last _ _ type => by
    rw [takes, type.takes_eq_false h]
    simp_all [continues]
  | cons _ _ _ rest => rest.takes_eq_false h

/-- Constructors begin with a name or are none. -/
theorem Clauses.front_ne_bar (clauses : Clauses) (h : front rest ≠ .bar) :
    front (clauses.words ++ rest) ≠ .bar := by
  cases clauses with
  | nil => exact h
  | _ => rintro ⟨⟩

theorem ascription_append_inj {type type' : Option Phrase}
    (h : ascription type ++ .assign :: rest = ascription type' ++ .assign :: rest')
    (htype : ∀ p ∈ type, p.Orderly) (htype' : ∀ p ∈ type', p.Orderly) :
    type = type' ∧ rest = rest' := by
  cases type with
  | none =>
    cases type' with
    | none => exact ⟨rfl, (List.cons.inj h).2⟩
    | some p' => cases h
  | some p =>
    cases type' with
    | none => cases h
    | some p' =>
      obtain ⟨rfl, hrests⟩ := Phrase.words_append_inj (List.cons.inj h).2 (htype p rfl)
        (htype' p' rfl) (p.takes_eq_false rfl) (p'.takes_eq_false rfl)
      exact ⟨rfl, (List.cons.inj hrests).2⟩

/-- No name follows constructors. -/
theorem Clauses.ident_ne {name : String} {ws : List Word} (h : name ∉ Word.keywords)
    (hnext : nil.takes (front rest) = false) : rest ≠ .ident name :: ws := by
  rintro rfl
  rw [takes, front_cons, Word.name?, if_neg h] at hnext
  cases hnext

theorem Clauses.words_append_inj : ∀ {clauses clauses' : Clauses} {rest rest' : List Word},
    clauses.words ++ rest = clauses'.words ++ rest' → clauses.Orderly → clauses'.Orderly →
    clauses.takes (front rest) = false → clauses'.takes (front rest') = false →
    clauses = clauses' ∧ rest = rest'
  | nil, nil, _, _, h, _, _, _, _ => ⟨rfl, h⟩
  | nil, last _ hname _, _, _, h, _, _, hnext, _ => absurd h (ident_ne hname hnext)
  | nil, cons _ hname _ _, _, _, h, _, _, hnext, _ => absurd h (ident_ne hname hnext)
  | last _ hname _, nil, _, _, h, _, _, _, hnext' => absurd h.symm (ident_ne hname hnext')
  | cons _ hname _ _, nil, _, _, h, _, _, _, hnext' => absurd h.symm (ident_ne hname hnext')
  | last name hname type, last name' hname' type', rest, rest', h, htype, htype', hnext,
      hnext' => by
    simp only [takes, Bool.or_eq_false_iff] at hnext hnext'
    simp only [words, List.cons_append, List.cons.injEq, Word.ident.injEq, true_and] at h
    obtain ⟨rfl, htail⟩ := h
    obtain ⟨rfl, hrests⟩ := Phrase.words_append_inj htail htype htype' hnext.2 hnext'.2
    exact ⟨rfl, hrests⟩
  | last name hname type, cons name' hname' type' more', rest, rest', h, htype,
      ⟨htype', hbar', _⟩, hnext, _ => by
    simp only [takes, Bool.or_eq_false_iff] at hnext
    simp only [words, List.cons_append, List.append_assoc, List.cons.injEq, true_and] at h
    obtain ⟨-, rfl⟩ := Phrase.words_append_inj h.2 htype htype' hnext.2 hbar'
    cases hnext.1
  | cons name hname type more, last name' hname' type', rest, rest', h, ⟨htype, hbar, _⟩,
      htype', _, hnext' => by
    simp only [takes, Bool.or_eq_false_iff] at hnext'
    simp only [words, List.cons_append, List.append_assoc, List.cons.injEq, true_and] at h
    obtain ⟨-, rfl⟩ := Phrase.words_append_inj h.2 htype htype' hbar hnext'.2
    cases hnext'.1
  | cons name hname type more, cons name' hname' type' more', rest, rest', h,
      ⟨htype, hbar, hmore⟩, ⟨htype', hbar', hmore'⟩, hnext, hnext' => by
    simp only [words, List.cons_append, List.append_assoc, List.cons.injEq, Word.ident.injEq,
      true_and] at h
    obtain ⟨rfl, htail⟩ := h
    obtain ⟨rfl, htail₁⟩ := Phrase.words_append_inj htail htype htype' hbar hbar'
    obtain ⟨rfl, hrests⟩ :=
      words_append_inj (List.cons.inj htail₁).2 hmore hmore' hnext hnext'
    exact ⟨rfl, hrests⟩

/-- **Orderly sentences are unambiguous**, where no word behind them is a part of them. -/
theorem Sentence.words_append_inj {s s' : Sentence} (h : s.words ++ rest = s'.words ++ rest')
    (hs : s.Orderly) (hs' : s'.Orderly) (hnext : continues (front rest) = false)
    (hnext' : continues (front rest') = false) : s = s' ∧ rest = rest' := by
  -- a header ends before a colon or an assignment
  have hheader : ∀ {type : Option Phrase} {ws : List Word},
      front (ascription type ++ .assign :: ws) ≠ .openParen := by
    rintro (_ | p) ws ⟨⟩
  have hphrase : ∀ {p p' : Phrase}, p.words ++ rest = p'.words ++ rest' → p.Orderly →
      p'.Orderly → p = p' ∧ rest = rest' := fun {p p'} h hp hp' =>
    Phrase.words_append_inj h hp hp' (p.takes_eq_false hnext) (p'.takes_eq_false hnext')
  cases s with
  | definition name hname params type body =>
    cases s' with
    | definition name' hname' params' type' body' =>
      simp only [words, List.cons_append, List.append_assoc, List.cons.injEq, true_and,
        Word.ident.injEq] at h
      obtain ⟨rfl, htail⟩ := h
      obtain ⟨rfl, htail₁⟩ := Groups.words_append_inj htail hs.1 hs'.1 hheader hheader
      obtain ⟨rfl, htail₂⟩ := ascription_append_inj htail₁ hs.2.1 hs'.2.1
      obtain ⟨rfl, hrests⟩ := hphrase htail₂ hs.2.2 hs'.2.2
      exact ⟨rfl, hrests⟩
    | _ => simp [words] at h
  | postulate name hname params type =>
    cases s' with
    | postulate name' hname' params' type' =>
      simp only [words, List.cons_append, List.append_assoc, List.cons.injEq, true_and,
        Word.ident.injEq] at h
      obtain ⟨rfl, htail⟩ := h
      obtain ⟨rfl, htail₁⟩ := Groups.words_append_inj htail hs.1 hs'.1
        (by rintro ⟨⟩) (by rintro ⟨⟩)
      obtain ⟨rfl, hrests⟩ := hphrase (List.cons.inj htail₁).2 hs.2 hs'.2
      exact ⟨rfl, hrests⟩
    | _ => simp [words] at h
  | family name hname params sort bar clauses =>
    cases s' with
    | family name' hname' params' sort' bar' clauses' =>
      simp only [words, List.cons_append, List.append_assoc, List.cons.injEq, true_and,
        Word.ident.injEq] at h
      obtain ⟨rfl, htail⟩ := h
      obtain ⟨rfl, htail₁⟩ := Groups.words_append_inj htail hs.1 hs'.1 hheader hheader
      obtain ⟨rfl, htail₂⟩ := ascription_append_inj htail₁ hs.2.1 hs'.2.1
      have hbar : ∀ {ws : List Word}, continues (front ws) = false → front ws ≠ .bar := by
        intro ws hws heq
        rw [heq] at hws
        cases hws
      obtain ⟨rfl, htail₃⟩ : bar = bar' ∧ clauses.words ++ rest = clauses'.words ++ rest' := by
        cases bar <;> cases bar'
        · exact ⟨rfl, htail₂⟩
        · exact absurd (congrArg front htail₂) (clauses.front_ne_bar (hbar hnext))
        · exact absurd (congrArg front htail₂.symm) (clauses'.front_ne_bar (hbar hnext'))
        · exact ⟨rfl, (List.cons.inj htail₂).2⟩
      obtain ⟨rfl, hrests⟩ := Clauses.words_append_inj htail₃ hs.2.2 hs'.2.2
        (clauses.takes_eq_false hnext) (clauses'.takes_eq_false hnext')
      exact ⟨rfl, hrests⟩
    | _ => simp [words] at h
  | check p =>
    cases s' with
    | check p' =>
      obtain ⟨rfl, hrests⟩ := hphrase (List.cons.inj h).2 hs hs'
      exact ⟨rfl, hrests⟩
    | _ => simp [words] at h
  | eval p =>
    cases s' with
    | eval p' =>
      obtain ⟨rfl, hrests⟩ := hphrase (List.cons.inj h).2 hs hs'
      exact ⟨rfl, hrests⟩
    | _ => simp [words] at h
  | hint name hname =>
    cases s' with
    | hint name' hname' =>
      simp only [words, List.cons_append, List.nil_append, List.cons.injEq, true_and,
        Word.ident.injEq] at h
      obtain ⟨rfl, hrests⟩ := h
      exact ⟨rfl, hrests⟩
    | _ => simp [words] at h

end Grammar
end ProofKernel
