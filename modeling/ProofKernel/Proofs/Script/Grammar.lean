import ProofKernel.Proofs.Script.Orderly
import ProofKernel.Proofs.Script.Source

/-!
# What the parser reads

From the tokens of a term the parser reads the words of one orderly phrase, and what it returns is
what is built from that phrase.

* `Parser.Covers` says what is true of the words that a parser takes, of its value and of what it
  leaves; `Parser.Covers.bind` puts parsers together.
* `Parser.Grammatical` says of all parsers of terms that they read phrases, and is shown for one
  more unit of fuel at a time (`Parser.grammatical`).
-/

set_option autoImplicit false
namespace ProofKernel

open Grammar

namespace Parser

variable {α β : Type} {ts : List Token}

/-! ## Words that are taken -/

/-- Whatever a parser reads from tokens, it takes the first of them, but never the end of input;
their words, the value and the tokens that are left have a property. -/
def Covers (p : Parser α) (ts : List Token) (P : List Word → α → List Token → Prop) : Prop :=
  ∀ a rest, p ts = .ok (a, rest) → ∃ pre, ts = pre ++ rest ∧
    (∀ t ∈ pre, t.word ≠ .endOfInput) ∧ P (pre.map Token.word) a rest

/-- The word of the next token. -/
def next (ts : List Token) : Word :=
  front (ts.map Token.word)

theorem exists_of_next {w : Word} (h : next ts = w) (hw : w ≠ .endOfInput) :
    ∃ t rest, ts = t :: rest ∧ t.word = w := by
  cases ts with
  | nil => exact absurd h.symm hw
  | cons t rest => exact ⟨t, rest, rfl, h⟩

namespace Covers

variable {P : List Word → α → List Token → Prop} {Q : List Word → β → List Token → Prop}
  {p : Parser α}

theorem mono {P' : List Word → α → List Token → Prop} (h : Covers p ts P)
    (hP : ∀ ws a rest, P ws a rest → P' ws a rest) : Covers p ts P' := by
  intro a rest hp
  obtain ⟨pre, hts, hpre, ha⟩ := h a rest hp
  exact ⟨pre, hts, hpre, hP _ _ _ ha⟩

theorem congr {p' : Parser α} (h : Covers p' ts P) (heq : p ts = p' ts) : Covers p ts P := by
  unfold Covers
  rw [heq]
  exact h

/-- The next token is the first that is taken, or else the first that is left. -/
theorem front (h : Covers p ts P) : Covers p ts fun ws a rest =>
    P ws a rest ∧ Grammar.front (ws ++ rest.map Token.word) = Parser.next ts := by
  intro a rest hp
  obtain ⟨pre, rfl, hpre, ha⟩ := h a rest hp
  exact ⟨pre, rfl, hpre, ha, by rw [← List.map_append]; rfl⟩

/-- **A parser takes what its first part takes, and then what its second part does.** -/
theorem bind {f : α → Parser β} (h : Covers p ts P)
    (hf : ∀ ws a rest, rest.length + ws.length = ts.length → P ws a rest →
      Covers (f a) rest fun ws' b last => Q (ws ++ ws') b last) :
    Covers (p >>= f) ts Q := by
  intro b last hrun
  obtain ⟨a, rest, hp, hb⟩ := bind_eq_ok_iff.1 hrun
  obtain ⟨pre, rfl, hpre, ha⟩ := h a rest hp
  have hlength : rest.length + (pre.map Token.word).length = (pre ++ rest).length := by
    rw [List.length_map, List.length_append, Nat.add_comm]
  obtain ⟨pre', rfl, hpre', hresult⟩ := hf _ a rest hlength ha b last hb
  refine ⟨pre ++ pre', (List.append_assoc ..).symm, List.forall_mem_append.2 ⟨hpre, hpre'⟩, ?_⟩
  rw [List.map_append]
  exact hresult

theorem pure {a : α} (h : P [] a ts) : Covers (Pure.pure a) ts P := by
  rintro _ _ ⟨⟩
  exact ⟨[], rfl, List.forall_mem_nil _, h⟩

theorem fail (position : Position) (flaw : Flaw) : Covers (Parser.fail position flaw) ts P := by
  intro a rest h
  cases h

theorem unexpected (what : String) : Covers (Parser.unexpected what) ts P := by
  intro a rest h
  cases ts <;> cases h

/-- Looking at the next token takes none. -/
theorem peek {f : Token → Parser β} (h : ∀ t, t.word = next ts → Covers (f t) ts Q) :
    Covers (Parser.peek >>= f) ts Q := by
  cases ts with
  | nil => exact h default rfl
  | cons t rest => exact h t rfl

theorem advance {f : Token → Parser β} {w : Word} (hnext : next ts = w) (hw : w ≠ .endOfInput)
    (h : ∀ t rest, rest.length + 1 = ts.length →
      Covers (f t) rest fun ws b last => Q (w :: ws) b last) :
    Covers (Parser.advance >>= f) ts Q := by
  obtain ⟨t, rest, rfl, rfl⟩ := exists_of_next hnext hw
  intro b last hrun
  obtain ⟨a, left, hadvance, hb⟩ := bind_eq_ok_iff.1 hrun
  rw [advance_cons rest hw] at hadvance
  cases hadvance
  obtain ⟨pre, rfl, hpre, hresult⟩ := h t rest rfl b last hb
  exact ⟨t :: pre, rfl, List.forall_mem_cons.2 ⟨hw, hpre⟩, hresult⟩

end Covers

theorem covers_accept (w : Word) (hw : w ≠ .endOfInput) :
    Covers (accept w) ts fun ws b rest =>
      b = true ∧ ws = [w] ∧ next ts = w ∨ b = false ∧ ws = [] ∧ rest = ts ∧ next ts ≠ w := by
  intro b rest h
  rcases accept_cases hw h with ⟨rfl, t, rfl, ht⟩ | ⟨rfl, rfl⟩
  · exact ⟨[t], rfl, List.forall_mem_singleton.2 (ht ▸ hw),
      .inl ⟨rfl, congrArg (fun w => [w]) ht, ht⟩⟩
  · refine ⟨[], rfl, List.forall_mem_nil _, .inr ⟨rfl, rfl, rfl, fun hnext => ?_⟩⟩
    obtain ⟨t, more, rfl, ht⟩ := exists_of_next hnext hw
    rw [accept_of_eq more hw ht] at h
    cases h

theorem covers_expect (w : Word) (hw : w ≠ .endOfInput) :
    Covers (expect w) ts fun ws _ _ => ws = [w] := by
  refine (covers_accept w hw).bind fun ws b rest _ hb => ?_
  rcases hb with ⟨rfl, rfl, -⟩ | ⟨rfl, -⟩
  · exact .pure rfl
  · exact .unexpected _

theorem name?_eq_some {w : Word} {x : String} (h : w.name? = some x) :
    w = .ident x ∧ x ∉ Word.keywords := by
  cases w with
  | ident y =>
    have hread : (if y ∈ Word.keywords then none else some y) = some x := h
    split_ifs at hread with hy
    cases hread
    exact ⟨rfl, hy⟩
  | _ => cases h

theorem covers_name : Covers name ts fun ws x _ => ws = [.ident x] ∧ x ∉ Word.keywords := by
  cases ts with
  | nil =>
    intro x rest h
    cases h
  | cons t rest =>
    cases hname : t.word.name? with
    | none => exact (Covers.unexpected _).congr (name_of_none hname rest)
    | some x =>
      obtain ⟨hword, hx⟩ := name?_eq_some hname
      have hnext : next (t :: rest) = .ident x := hword
      have htaken : Covers (do let _ ← advance; return x) (t :: rest) fun ws y _ =>
          ws = [.ident y] ∧ y ∉ Word.keywords :=
        .advance hnext (by simp) fun _ _ _ => .pure ⟨rfl, hx⟩
      exact htaken.congr (name_of_some hname rest)

theorem covers_names : Covers names ts fun ws xs rest =>
    ∃ found : Names, found.words = ws ∧ found.list = xs ∧ (next rest).name? = none := by
  have hsplit : ∀ ts, ∃ pre, ts = pre ++ (splitNames ts).2 ∧
      (∀ t ∈ pre, t.word ≠ .endOfInput) ∧ ∃ found : Names,
      found.words = pre.map Token.word ∧ found.list = (splitNames ts).1 ∧
        (next (splitNames ts).2).name? = none := by
    intro ts
    induction ts with
    | nil => exact ⟨[], rfl, List.forall_mem_nil _, ⟨[], List.forall_mem_nil _⟩, rfl, rfl, rfl⟩
    | cons t rest ih =>
      rw [splitNames]
      cases hname : t.word.name? with
      | none => exact ⟨[], rfl, List.forall_mem_nil _, ⟨[], List.forall_mem_nil _⟩, rfl, rfl, hname⟩
      | some x =>
        obtain ⟨hword, hx⟩ := name?_eq_some hname
        obtain ⟨pre, hrest, hpre, found, hwords, hlist, hnext⟩ := ih
        refine ⟨t :: pre, congrArg (t :: ·) hrest,
          List.forall_mem_cons.2 ⟨by simp [hword], hpre⟩,
          ⟨x :: found.list, List.forall_mem_cons.2 ⟨hx, found.bindable⟩⟩, ?_,
          congrArg (x :: ·) hlist, hnext⟩
        rw [List.map_cons, hword, ← hwords]
        rfl
  rintro _ _ ⟨⟩
  exact hsplit ts

theorem covers_sees (w : Word) : Covers (sees w) ts fun ws b rest =>
    ws = [] ∧ rest = ts ∧ b = decide (next ts = w) := by
  intro b rest h
  cases ts <;> cases h <;> exact ⟨[], rfl, List.forall_mem_nil _, rfl, rfl, rfl⟩

/-! ## Terms -/

section Parts

variable (scope : List String)

/-- The words of an atom, the term it is in a scope, and what is behind it. -/
abbrev OfAtom (ws : List Word) (t : Term) (rest : List Token) : Prop :=
  ∃ a : Grammar.Atom,
    a.words = ws ∧ a.Orderly ∧ a.elaborate scope = t ∧ a.takes (next rest) = false

/-- The words of arguments behind an atom, and the application of a term to them. -/
abbrev OfArgs (before : Grammar.Atom) (fn : Term) (ws : List Word) (t : Term)
    (rest : List Token) : Prop :=
  ∃ args : Args,
    args.words = ws ∧ args.Orderly before ∧ args.elaborate scope fn = t ∧
      startsAtom (next rest) = false

abbrev OfApplication (ws : List Word) (t : Term) (rest : List Token) : Prop :=
  ∃ a : Application,
    a.words = ws ∧ a.Orderly ∧ a.elaborate scope = t ∧ startsAtom (next rest) = false

abbrev OfPhrase (ws : List Word) (t : Term) (rest : List Token) : Prop :=
  ∃ p : Phrase,
    p.words = ws ∧ p.Orderly ∧ p.elaborate scope = t ∧ p.takes (next rest) = false

abbrev OfCases (ws : List Word) (found : List Term) (rest : List Token) : Prop :=
  ∃ cases : Cases,
    cases.words = ws ∧ cases.Orderly ∧ cases.elaborate scope = found ∧
      cases.takes (next rest) = false

/-- The words of a group without parentheses, and its names with their types. -/
abbrev OfGroup (ws : List Word) (telescope : Telescope) (_ : List Token) : Prop :=
  ∃ (names : Names) (type : Phrase),
    names.list ≠ [] ∧ names.words ++ .colon :: type.words = ws ∧ type.Orderly ∧
      (names.list.map fun x => (x, type.elaborate scope)) = telescope

abbrev OfGroups (ws : List Word) (telescope : Telescope) (rest : List Token) : Prop :=
  ∃ groups : Groups,
    groups.words false = ws ∧ groups.Orderly ∧ groups.elaborate scope = telescope ∧
      next rest ≠ .openParen

abbrev OfBinders (ws : List Word) (telescope : Telescope) (_ : List Token) : Prop :=
  ∃ (bare : Bool) (groups : Groups),
    groups.words bare = ws ∧ groups.fits bare = true ∧ groups.Orderly ∧
      groups.elaborate scope = telescope

end Parts

/-- The scope behind names that share a type. -/
theorem extend_shared (scope xs : List String) (a : Term) :
    extend scope (xs.map fun x => (x, a)) = xs.reverse ++ scope := by
  rw [extend, List.map_map]
  exact congrArg (List.reverse · ++ scope) (List.map_id xs)

/-- The scope behind groups. -/
theorem extend_elaborate (scope : List String) (groups : Groups) :
    extend scope (groups.elaborate scope) = groups.names.reverse ++ scope := by
  rw [extend, groups.map_fst_elaborate]

theorem takes_constant {w : Word} {t : Term} (h : constant? w = some t)
    (hw : w ≠ .ident "Type") (w' : Word) : (Grammar.Atom.constant w t h).takes w' = false := by
  rw [Grammar.Atom.takes, decide_eq_false hw, Bool.false_and]

/-- The level of `Type` may follow as a word of its own. -/
theorem covers_reference_type {scope : List String} {position : Position} :
    Covers (reference scope position "Type") ts fun ws t rest =>
      OfAtom scope (.ident "Type" :: ws) t rest := by
  have hplain : isLevel (next ts) = false → Covers (pure (.sort (.type 0))) ts fun ws t rest =>
      OfAtom scope (.ident "Type" :: ws) t rest :=
    fun hlevel => .pure ⟨.constant _ (.sort (.type 0)) rfl, rfl, trivial, rfl, hlevel⟩
  refine .peek fun t ht => ?_
  rw [← ht] at hplain
  cases hw : t.word with
  | integer digits =>
    rw [hw] at hplain
    dsimp only
    split
    · next hsign => exact hplain (by simp [isLevel, hsign])
    · next hsign =>
      refine .advance (ht.symm.trans hw) (by simp) fun _ rest _ => ?_
      cases hlevel : readLevel? digits.toList with
      | none => exact Covers.bind (P := fun _ _ _ => False) (.fail _ _) fun _ _ _ _ => False.elim
      | some level =>
        have hread : level? (.integer digits) = some level := (if_neg hsign).trans hlevel
        exact .pure ⟨.leveled _ level hread, rfl, trivial, rfl, rfl⟩
  | _ =>
    rw [hw] at hplain
    exact hplain rfl

/-- **A name is read as an atom**: a hole, a sort, or a reference. -/
theorem covers_reference {scope : List String} {position : Position} {x : String}
    (hx : x ∉ Word.keywords) :
    Covers (reference scope position x) ts fun ws t rest =>
      OfAtom scope (.ident x :: ws) t rest := by
  by_cases htype : x = "Type"
  · rw [htype]
    exact covers_reference_type
  have hconstant : ∀ {t : Term}, constant? (.ident x) = some t →
      Covers (pure t) ts fun ws t rest => OfAtom scope (.ident x :: ws) t rest := fun ht =>
    .pure ⟨.constant _ _ ht, rfl, trivial, rfl, takes_constant ht (by simpa using htype) _⟩
  unfold reference
  dsimp only
  by_cases hhole : x = Term.placeholder
  · rw [if_pos hhole]
    exact hconstant (if_pos hhole)
  rw [if_neg hhole]
  by_cases hprop : x = "Prop"
  · rw [if_pos hprop]
    exact hconstant ((if_neg hhole).trans (if_pos hprop))
  rw [if_neg hprop, if_neg htype]
  have hlevel : constant? (.ident x) = ((levelDigits? x).bind readLevel?).map fun level =>
      .sort (.type level) :=
    (if_neg hhole).trans ((if_neg hprop).trans (if_neg htype))
  cases hdigits : levelDigits? x with
  | some digits =>
    rw [hdigits, Option.bind_some] at hlevel
    dsimp only
    cases hread : readLevel? digits with
    | none => exact .fail _ _
    | some level =>
      rw [hread] at hlevel
      exact hconstant hlevel
  | none =>
    have hrefers : refers x = true := by simp [refers, hx, hhole, hprop, htype, hdigits]
    exact .pure ⟨.name x hrefers, rfl, trivial, rfl, rfl⟩

/-- All parsers of terms read phrases, with this fuel and tokens for which it is enough. -/
structure Grammatical (n : Nat) : Prop where
  term : ∀ {scope : List String} {ts : List Token}, 4 * ts.length + 3 ≤ n →
    Covers (term n scope) ts (OfPhrase scope)
  cases : ∀ {scope : List String} {ts : List Token}, 4 * ts.length + 1 ≤ n →
    Covers (cases n scope) ts (OfCases scope)
  application : ∀ {scope : List String} {ts : List Token}, 4 * ts.length + 2 ≤ n →
    Covers (application n scope) ts (OfApplication scope)
  arguments : ∀ {scope : List String} {fn : Term} {before : Grammar.Atom} {ts : List Token},
    4 * ts.length + 2 ≤ n → before.takes (next ts) = false →
    Covers (arguments n scope fn) ts (OfArgs scope before fn)
  atom : ∀ {scope : List String} {ts : List Token}, 4 * ts.length + 1 ≤ n →
    Covers (atom n scope) ts (OfAtom scope)
  binders : ∀ {scope : List String} {ts : List Token}, 4 * ts.length + 2 ≤ n →
    Covers (binders n scope) ts (OfBinders scope)
  groups : ∀ {scope : List String} {ts : List Token}, 4 * ts.length + 1 ≤ n →
    Covers (groups n scope) ts (OfGroups scope)
  group : ∀ {scope : List String} {ts : List Token}, 4 * ts.length + 1 ≤ n →
    Covers (group n scope) ts (OfGroup scope)

section Step

variable {n : Nat} {scope : List String} (ih : Grammatical n)
include ih

theorem covers_atom (hn : 4 * ts.length + 1 ≤ n + 1) :
    Covers (atom (n + 1) scope) ts (OfAtom scope) := by
  rw [atom]
  refine .peek fun t ht => ?_
  cases hw : t.word with
  | openParen =>
    refine .advance (ht.symm.trans hw) (by simp) fun _ rest hlength => ?_
    refine (ih.term (by omega)).bind fun ws inner left hlength₁ hp => ?_
    obtain ⟨p, rfl, horderly, rfl, -⟩ := hp
    refine (covers_expect .closeParen (by decide)).bind fun _ _ last _ hclose => ?_
    cases hclose
    exact .pure ⟨.paren p, rfl, horderly, rfl, rfl⟩
  | integer digits =>
    refine .advance (ht.symm.trans hw) (by simp) fun _ rest hlength => ?_
    cases hvalue : readInt? digits with
    | none => exact .fail _ _
    | some value =>
      have hconstant : constant? (.integer digits) = some (.lit (.int value)) :=
        congrArg (Option.map _) hvalue
      exact .pure ⟨.constant _ _ hconstant, rfl, trivial, rfl, rfl⟩
  | float digits =>
    refine .advance (ht.symm.trans hw) (by simp) fun _ rest hlength => ?_
    cases hvalue : readFloat? digits with
    | none => exact .fail _ _
    | some value =>
      have hconstant : constant? (.float digits) = some (.lit (.float value)) :=
        congrArg (Option.map _) hvalue
      exact .pure ⟨.constant _ _ hconstant, rfl, trivial, rfl, rfl⟩
  | string value =>
    refine .advance (ht.symm.trans hw) (by simp) fun _ rest hlength => ?_
    exact .pure ⟨.constant _ _ rfl, rfl, trivial, rfl, rfl⟩
  | ident x =>
    dsimp only
    cases hname : (Word.ident x).name? with
    | none => exact .unexpected _
    | some y =>
      obtain ⟨hxy, hy⟩ := name?_eq_some hname
      cases hxy
      refine .advance (ht.symm.trans hw) (by simp) fun _ rest hlength => ?_
      exact covers_reference hy
  | _ => exact .unexpected _

theorem covers_arguments {fn : Term} {before : Grammar.Atom} (hn : 4 * ts.length + 2 ≤ n + 1)
    (hbefore : before.takes (next ts) = false) :
    Covers (arguments (n + 1) scope fn) ts (OfArgs scope before fn) := by
  rw [arguments]
  refine .peek fun t ht => ?_
  rw [ht]
  cases hstart : startsAtom (next ts) with
  | false => exact .pure ⟨.nil, rfl, trivial, rfl, hstart⟩
  | true =>
    refine (ih.atom (by omega)).front.bind fun _ _ left hlength harg => ?_
    obtain ⟨⟨arg, rfl, harg, rfl, hnext⟩, hfront⟩ := harg
    have hpos := arg.length_words_pos
    refine (ih.arguments (by omega) hnext).mono fun _ _ rest hmore => ?_
    obtain ⟨more, rfl, hmore, rfl, hrest⟩ := hmore
    rw [arg.front_words] at hfront
    exact ⟨.cons arg more, rfl, ⟨hfront ▸ hbefore, harg, hmore⟩, rfl, hrest⟩

theorem covers_application (hn : 4 * ts.length + 2 ≤ n + 1) :
    Covers (application (n + 1) scope) ts (OfApplication scope) := by
  rw [application]
  refine (ih.atom (by omega)).bind fun ws fn left hlength ha => ?_
  obtain ⟨head, rfl, hhead, rfl, hnext⟩ := ha
  have hpos := head.length_words_pos
  refine (ih.arguments (by omega) hnext).mono fun ws' t rest hargs => ?_
  obtain ⟨args, rfl, hargs, rfl, hrest⟩ := hargs
  exact ⟨.mk head args, rfl, ⟨hhead, hargs⟩, rfl, hrest⟩

theorem covers_cases (hn : 4 * ts.length + 1 ≤ n + 1) :
    Covers (cases (n + 1) scope) ts (OfCases scope) := by
  rw [cases]
  refine (covers_accept .bar (by decide)).bind fun ws b left hlength hb => ?_
  rcases hb with ⟨rfl, rfl, -⟩ | ⟨rfl, rfl, rfl, hbar⟩
  · refine covers_name.bind fun _ c left₁ hlength₁ hname => ?_
    obtain ⟨rfl, hc⟩ := hname
    refine covers_names.bind fun _ _ left₂ hlength₂ hnames => ?_
    obtain ⟨fields, rfl, rfl, -⟩ := hnames
    refine (covers_expect .doubleArrow (by decide)).bind fun _ _ left₃ hlength₃ harrow => ?_
    cases harrow
    simp only [List.length_cons, List.length_nil] at hlength hlength₁ hlength₃
    refine (ih.term (by omega)).bind fun _ _ left₄ hlength₄ hbody => ?_
    obtain ⟨body, rfl, hbody, rfl, hnext⟩ := hbody
    refine (ih.cases (by omega)).front.bind fun _ _ left₅ _ hrest => ?_
    obtain ⟨⟨rest, rfl, hrest, rfl, hlast⟩, hfront⟩ := hrest
    refine .pure ⟨.cons c hc fields body rest, ?_, ⟨hbody, hrest, ?_⟩, rfl, ?_⟩
    · simp [Cases.words]
    · -- the next case begins with a bar
      intro hmore
      cases rest with
      | nil => cases hmore
      | cons =>
        have hbar : .bar = next left₄ := hfront
        rwa [← hbar] at hnext
    · rw [Cases.takes, hlast, Bool.or_false, Bool.and_eq_false_imp]
      intro hnil
      cases rest with
      | nil =>
        have hsame : next left₅ = next left₄ := hfront
        rwa [hsame]
      | cons => cases hnil
  · exact .pure ⟨.nil, rfl, trivial, rfl, by simpa [Cases.takes] using hbar⟩

theorem covers_arrow (hn : 4 * ts.length + 3 ≤ n + 1) :
    Covers
      (do
        let left ← application n scope
        if ← accept .arrow then
          let right ← term n scope
          return .arrow left right
        return left) ts (OfPhrase scope) := by
  refine (ih.application (by omega)).bind fun _ _ r₁ hlength₁ hleft => ?_
  obtain ⟨left, rfl, hleft, rfl, hstart⟩ := hleft
  have hpos := left.length_words_pos
  refine (covers_accept .arrow (by decide)).bind fun _ b r₂ hlength₂ hb => ?_
  rcases hb with ⟨rfl, rfl, -⟩ | ⟨rfl, rfl, rfl, hne⟩
  · refine (ih.term (by omega)).bind fun _ _ r₃ _ hright => ?_
    obtain ⟨right, rfl, hright, rfl, hnext⟩ := hright
    exact .pure ⟨.arrow left right, by simp [Phrase.words], ⟨hleft, hright⟩, rfl, hnext⟩
  · exact .pure ⟨.application left, by simp [Phrase.words], hleft, rfl,
      by simp [Phrase.takes, hstart, hne]⟩

theorem covers_binding (hn : 4 * ts.length + 3 ≤ n + 1) (q : Quantifier)
    (hq : next ts = .ident q.keyword) :
    Covers
      (do
        let _ ← advance
        let bound ← binders n scope
        expect q.separator
        let body ← term n (extend scope bound)
        return q.close bound body) ts (OfPhrase scope) := by
  refine .advance hq (by simp) fun _ r₁ hlength₁ => ?_
  refine (ih.binders (by omega)).bind fun _ _ r₂ hlength₂ hbound => ?_
  obtain ⟨bare, groups, rfl, hfits, hgroups, rfl⟩ := hbound
  refine (covers_expect q.separator (by cases q <;> decide)).bind fun _ _ r₃ hlength₃ hw => ?_
  cases hw
  rw [extend_elaborate]
  refine (ih.term (by omega)).bind fun _ _ r₄ _ hbody => ?_
  obtain ⟨body, rfl, hbody, rfl, hnext⟩ := hbody
  exact .pure ⟨.bind q bare groups body, by simp [Phrase.words], ⟨hfits, hgroups, hbody⟩, rfl,
    hnext⟩

theorem covers_fix (hn : 4 * ts.length + 3 ≤ n + 1) (hfix : next ts = .ident "fix") :
    Covers
      (do
        let _ ← advance
        let self ← name
        expect .doubleArrow
        let body ← term n (self :: scope)
        return .fix self body) ts (OfPhrase scope) := by
  refine .advance hfix (by simp) fun _ r₁ hlength₁ => ?_
  refine covers_name.bind fun _ self r₂ hlength₂ hself => ?_
  obtain ⟨rfl, hself⟩ := hself
  refine (covers_expect .doubleArrow (by decide)).bind fun _ _ r₃ hlength₃ hw => ?_
  cases hw
  refine (ih.term (by omega)).bind fun _ _ r₄ _ hbody => ?_
  obtain ⟨body, rfl, hbody, rfl, hnext⟩ := hbody
  exact .pure ⟨.fix self hself body, by simp [Phrase.words], hbody, rfl, hnext⟩

theorem covers_elim (hn : 4 * ts.length + 3 ≤ n + 1) (hmatch : next ts = .ident "match") :
    Covers
      (do
        let _ ← advance
        let scrutinee ← application n scope
        expect (.ident "return")
        let motive ← application n scope
        expect (.ident "with")
        let cases ← cases n scope
        let _ ← accept (.ident "end")
        return .elim scrutinee motive cases) ts (OfPhrase scope) := by
  refine .advance hmatch (by simp) fun _ r₁ hlength₁ => ?_
  refine (ih.application (by omega)).bind fun _ _ r₂ hlength₂ hscrutinee => ?_
  obtain ⟨scrutinee, rfl, hscrutinee, rfl, -⟩ := hscrutinee
  refine (covers_expect (.ident "return") (by decide)).bind fun _ _ r₃ hlength₃ hw => ?_
  cases hw
  refine (ih.application (by omega)).bind fun _ _ r₄ hlength₄ hmotive => ?_
  obtain ⟨motive, rfl, hmotive, rfl, -⟩ := hmotive
  refine (covers_expect (.ident "with") (by decide)).bind fun _ _ r₅ hlength₅ hw => ?_
  cases hw
  refine (ih.cases (by omega)).bind fun _ _ r₆ hlength₆ hcases => ?_
  obtain ⟨cases, rfl, hcases, rfl, hnext⟩ := hcases
  refine (covers_accept (.ident "end") (by decide)).bind fun _ b r₇ _ hb => ?_
  -- `end` is taken wherever it stands, so the cases before it do not take it
  rcases hb with ⟨rfl, rfl, hend⟩ | ⟨rfl, rfl, rfl, hne⟩
  · exact .pure ⟨.elim scrutinee motive cases true, by simp [Phrase.words, closing],
      ⟨hscrutinee, hmotive, hcases, fun _ => hend ▸ hnext⟩, rfl, rfl⟩
  · exact .pure ⟨.elim scrutinee motive cases false, by simp [Phrase.words, closing],
      ⟨hscrutinee, hmotive, hcases, by simp⟩, rfl, by simp [Phrase.takes, hnext, hne]⟩

theorem covers_term (hn : 4 * ts.length + 3 ≤ n + 1) :
    Covers (term (n + 1) scope) ts (OfPhrase scope) := by
  rw [term]
  refine .peek fun t ht => ?_
  split
  · next hw => exact covers_binding ih hn .lam (ht.symm.trans hw)
  · next hw => exact covers_binding ih hn .pi (ht.symm.trans hw)
  · next hw => exact covers_fix ih hn (ht.symm.trans hw)
  · next hw => exact covers_elim ih hn (ht.symm.trans hw)
  · exact covers_arrow ih hn

theorem covers_group (hn : 4 * ts.length + 1 ≤ n + 1) :
    Covers (group (n + 1) scope) ts (OfGroup scope) := by
  rw [group]
  refine covers_names.bind fun _ bound left hlength hnames => ?_
  obtain ⟨xs, rfl, rfl, -⟩ := hnames
  dsimp only
  cases hxs : xs.list with
  | nil =>
    exact Covers.bind (P := fun _ _ _ => False) (.unexpected _) fun _ _ _ _ => False.elim
  | cons x more =>
    refine (covers_expect .colon (by decide)).bind fun _ _ left₁ hlength₁ hcolon => ?_
    cases hcolon
    simp only [List.length_cons, List.length_nil] at hlength₁
    refine (ih.term (by omega)).bind fun _ _ left₂ _ htype => ?_
    obtain ⟨type, rfl, htype, rfl, -⟩ := htype
    exact .pure ⟨xs, type, by simp [hxs], by simp, htype, by rw [hxs]⟩

theorem covers_groups (hn : 4 * ts.length + 1 ≤ n + 1) :
    Covers (groups (n + 1) scope) ts (OfGroups scope) := by
  rw [groups]
  refine (covers_accept .openParen (by decide)).bind fun ws b left hlength hb => ?_
  rcases hb with ⟨rfl, rfl, -⟩ | ⟨rfl, rfl, rfl, hparen⟩
  · simp only [List.length_cons, List.length_nil] at hlength
    refine (ih.group (by omega)).bind fun _ _ left₁ hlength₁ hgroup => ?_
    obtain ⟨names, type, hne, rfl, htype, rfl⟩ := hgroup
    refine (covers_expect .closeParen (by decide)).bind fun _ _ left₂ hlength₂ hclose => ?_
    cases hclose
    rw [extend_shared]
    refine (ih.groups (by omega)).bind fun _ _ left₃ _ hrest => ?_
    obtain ⟨rest, rfl, hrest, rfl, hnext⟩ := hrest
    exact .pure ⟨.cons names hne type rest, by simp [Groups.words], ⟨htype, hrest⟩, rfl, hnext⟩
  · exact .pure ⟨.nil, rfl, trivial, rfl, hparen⟩

theorem covers_binders (hn : 4 * ts.length + 2 ≤ n + 1) :
    Covers (binders (n + 1) scope) ts (OfBinders scope) := by
  rw [binders]
  refine (covers_sees .openParen).bind fun _ b left hlength hb => ?_
  obtain ⟨rfl, rfl, rfl⟩ := hb
  by_cases hparen : next left = .openParen
  · rw [if_pos (decide_eq_true hparen)]
    refine (ih.groups (by omega)).front.mono fun _ _ rest hread => ?_
    obtain ⟨⟨read, rfl, hread, rfl, hnext⟩, hfront⟩ := hread
    cases read with
    | nil => exact absurd (Eq.trans hfront hparen) hnext
    | cons names hne type more => exact ⟨false, .cons names hne type more, rfl, rfl, hread, rfl⟩
  · rw [if_neg (by simpa using hparen)]
    refine (ih.group (by omega)).mono fun _ _ rest hread => ?_
    obtain ⟨names, type, hne, rfl, htype, rfl⟩ := hread
    refine ⟨true, .cons names hne type .nil, ?_, rfl, ⟨htype, trivial⟩, ?_⟩
    · simp [Groups.words]
    · simp [Groups.elaborate]

end Step

/-- **All parsers of terms read phrases.** -/
theorem grammatical (n : Nat) : Grammatical n := by
  induction n with
  | zero => constructor <;> intros <;> omega
  | succ n ih =>
    constructor
    · exact covers_term ih
    · exact covers_cases ih
    · exact covers_application ih
    · exact covers_arguments ih
    · exact covers_atom ih
    · exact covers_binders ih
    · exact covers_groups ih
    · exact covers_group ih

end Parser
end ProofKernel
