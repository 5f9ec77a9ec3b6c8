import ProofKernel.Script.Parser

/-!
# Tokens that are alike

A parser of terms looks at words only, and never past the word that closes a command: a period, or
the end of input.  So it reads the same from two lists of tokens that have the same words up to
there.

* `Parser.Alike` compares two lists of tokens, `Parser.Follows` what two parsers read from them.
* `Parser.Follows.bind` puts parsers together; the others here are about those that take a token.
-/

set_option autoImplicit false
namespace ProofKernel
namespace Parser

/-! ## Tokens that are alike -/

/-- The words that close a command. -/
def closes : Word → Bool
  | .dot | .endOfInput => true
  | _ => false

theorem closes_iff {w : Word} : closes w = true ↔ w = .dot ∨ w = .endOfInput := by
  cases w <;> simp [closes]

theorem ne_of_closes {w w' : Word} (hw : closes w = false) (hw' : closes w' = true) : w' ≠ w := by
  rintro rfl
  rw [hw] at hw'
  cases hw'

/-- Tokens that begin where a command closes. -/
def Closed (ts : List Token) : Prop :=
  ∃ t rest, ts = t :: rest ∧ closes t.word = true

/-- The same words, up to where the command closes in both lists. -/
inductive Alike (post post' : List Token) : List Token → List Token → Prop
  | close (h : Closed post) (h' : Closed post') : Alike post post' post post'
  | word {t t' : Token} {rest rest' : List Token} (hword : t'.word = t.word)
      (hopen : closes t.word = false) (h : Alike post post' rest rest') :
      Alike post post' (t :: rest) (t' :: rest')

variable {post post' ts ts' : List Token}

namespace Alike

theorem length (h : Alike post post' ts ts') :
    ts.length + post'.length = ts'.length + post.length := by
  induction h with
  | close => exact Nat.add_comm _ _
  | word _ _ _ ih =>
    simp only [List.length_cons]
    omega

/-- The first tokens close the command, or have the same word. -/
theorem head (h : Alike post post' ts ts') :
    ∃ t rest t' rest', ts = t :: rest ∧ ts' = t' :: rest' ∧
      (closes t.word = true ∧ closes t'.word = true ∨
        closes t.word = false ∧ t'.word = t.word ∧ Alike post post' rest rest') := by
  cases h with
  | close h h' =>
    obtain ⟨t, rest, rfl, ht⟩ := h
    obtain ⟨t', rest', rfl, ht'⟩ := h'
    exact ⟨t, rest, t', rest', rfl, rfl, .inl ⟨ht, ht'⟩⟩
  | word hword hopen h => exact ⟨_, _, _, _, rfl, rfl, .inr ⟨hopen, hword, h⟩⟩

/-- Where one list closes the command, both have reached the end of what is alike. -/
theorem eq_of_closed (h : Alike post post' ts ts') (hts : Closed ts) : ts = post ∧ ts' = post' := by
  cases h with
  | close => exact ⟨rfl, rfl⟩
  | word hword hopen h =>
    obtain ⟨t, rest, heq, ht⟩ := hts
    cases heq
    rw [hopen] at ht
    cases ht

/-- Words that are the same make tokens alike. -/
theorem of_map {pre pre' : List Token} (hpost : Closed post) (hpost' : Closed post')
    (hpre : ∀ t ∈ pre, closes t.word = false) (hwords : pre'.map Token.word = pre.map Token.word) :
    Alike post post' (pre ++ post) (pre' ++ post') := by
  induction pre generalizing pre' with
  | nil =>
    obtain rfl : pre' = [] := List.map_eq_nil_iff.1 hwords
    exact .close hpost hpost'
  | cons t pre ih =>
    obtain ⟨t', rest', rfl, hword, hwords⟩ := List.map_eq_cons_iff.1 hwords
    obtain ⟨ht, hpre⟩ := List.forall_mem_cons.1 hpre
    exact .word hword ht (ih hpre hwords)

end Alike

/-! ## Parsers side by side -/

theorem advance_cons {t : Token} (rest : List Token) (h : t.word ≠ .endOfInput) :
    advance (t :: rest) = .ok (t, rest) := by
  have hrun : advance (t :: rest) = (if t.word ≠ .endOfInput then do
      modify List.tail
      return t
    else return t : Parser Token) (t :: rest) := rfl
  rw [hrun, if_pos h]
  rfl

section Follows

variable {α β : Type} {P : α → Nat → Prop} {Q : β → Nat → Prop}

theorem bind_eq_ok_iff {p : Parser α} {f : α → Parser β} {b : β} {last : List Token} :
    (p >>= f) ts = .ok (b, last) ↔
      ∃ a rest, p ts = .ok (a, rest) ∧ f a rest = .ok (b, last) := by
  have hrun : (p >>= f) ts = p ts >>= fun r => f r.1 r.2 := rfl
  rw [hrun]
  constructor
  · intro h
    cases hp : p ts with
    | error e =>
      rw [hp] at h
      cases h
    | ok r =>
      rw [hp] at h
      exact ⟨r.1, r.2, rfl, h⟩
  · rintro ⟨a, rest, hp, hf⟩
    rw [hp]
    exact hf

/-- What a parser reads, another one reads from tokens alike; the value and the number of tokens
that are left have a property. -/
def Follows (post post' : List Token) (P : α → Nat → Prop) (p p' : Parser α)
    (ts ts' : List Token) : Prop :=
  ∀ a rest, p ts = .ok (a, rest) → ∃ rest', p' ts' = .ok (a, rest') ∧
    Alike post post' rest rest' ∧ P a rest.length

namespace Follows

theorem mono {P' : α → Nat → Prop} {p p' : Parser α} (h : Follows post post' P p p' ts ts')
    (hP : ∀ a k, P a k → P' a k) : Follows post post' P' p p' ts ts' := by
  intro a rest hp
  obtain ⟨rest', hp', halike, ha⟩ := h a rest hp
  exact ⟨rest', hp', halike, hP _ _ ha⟩

/-- **Parsers that follow the same ones read the same.** -/
theorem bind {p p' : Parser α} {f f' : α → Parser β} (h : Follows post post' P p p' ts ts')
    (hf : ∀ a rest rest', Alike post post' rest rest' → P a rest.length →
      Follows post post' Q (f a) (f' a) rest rest') :
    Follows post post' Q (p >>= f) (p' >>= f') ts ts' := by
  intro b last hb
  obtain ⟨a, rest, hp, hb⟩ := bind_eq_ok_iff.1 hb
  obtain ⟨rest', hp', halike, ha⟩ := h a rest hp
  obtain ⟨last', hlast, hresult⟩ := hf a rest rest' halike ha b last hb
  exact ⟨last', bind_eq_ok_iff.2 ⟨a, rest', hp', hlast⟩, hresult⟩

theorem pure {a : α} (h : Alike post post' ts ts') (ha : P a ts.length) :
    Follows post post' P (Pure.pure a) (Pure.pure a) ts ts' := by
  rintro _ _ ⟨⟩
  exact ⟨ts', rfl, h, ha⟩

/-- A parser that fails is followed by any. -/
theorem fail {p' : Parser α} (position : Position) (flaw : Flaw) :
    Follows post post' P (Parser.fail position flaw) p' ts ts' :=
  nofun

theorem unexpected {p' : Parser α} (what : String) :
    Follows post post' P (Parser.unexpected what) p' ts ts' := by
  intro a rest h
  cases ts <;> cases h

/-- Looking at the next token takes none. -/
theorem peek {f f' : Token → Parser β} {t t' : Token} {rest rest' : List Token}
    (h : Follows post post' Q (f t) (f' t') (t :: rest) (t' :: rest')) :
    Follows post post' Q (Parser.peek >>= f) (Parser.peek >>= f') (t :: rest) (t' :: rest') :=
  h

/-- A word that does not close the command is taken from both. -/
theorem advance {f f' : Token → Parser β} {t t' : Token} {rest rest' : List Token}
    (hopen : closes t.word = false) (hword : t'.word = t.word)
    (h : Follows post post' Q (f t) (f' t') rest rest') :
    Follows post post' Q (Parser.advance >>= f) (Parser.advance >>= f') (t :: rest)
      (t' :: rest') := by
  have hend : t.word ≠ .endOfInput := by
    intro heq
    rw [heq] at hopen
    cases hopen
  have hrun : ∀ (u : Token) (us : List Token) (g : Token → Parser β), u.word = t.word →
      (Parser.advance >>= g) (u :: us) = g u us := by
    intro u us g hu
    have hadvance := advance_cons us (hu ▸ hend)
    show (Parser.advance (u :: us) >>= fun r => g r.1 r.2) = g u us
    rw [hadvance]
    rfl
  intro b last hb
  rw [hrun t rest f rfl] at hb
  rw [hrun t' rest' f' hword]
  exact h b last hb

end Follows
end Follows

/-! ## Single tokens -/

theorem accept_of_eq {w : Word} {t : Token} (rest : List Token) (hw : w ≠ .endOfInput)
    (h : t.word = w) : accept w (t :: rest) = .ok (true, rest) := by
  have hrun : accept w (t :: rest) = (if decide (t.word = w) = true then do
      let _ ← advance
      return true
    else return false : Parser Bool) (t :: rest) := rfl
  rw [hrun, if_pos (decide_eq_true h)]
  show (advance (t :: rest) >>= fun r => (pure true : Parser Bool) r.2) = _
  rw [advance_cons rest (h ▸ hw)]
  rfl

theorem accept_of_ne {w : Word} {t : Token} (rest : List Token) (h : t.word ≠ w) :
    accept w (t :: rest) = .ok (false, t :: rest) := by
  have hrun : accept w (t :: rest) = (if decide (t.word = w) = true then do
      let _ ← advance
      return true
    else return false : Parser Bool) (t :: rest) := rfl
  rw [hrun, if_neg (by simpa using h)]
  rfl

/-- A word that does not close the command is taken from both lists, or from none. -/
theorem follows_accept {w : Word} (hw : closes w = false) (h : Alike post post' ts ts') :
    Follows post post' (fun b k => k ≤ ts.length ∧ (b = true → k < ts.length)) (accept w) (accept w)
      ts ts' := by
  intro b left hb
  obtain ⟨t, rest, t', rest', rfl, rfl, ⟨ht, ht'⟩ | ⟨hopen, hword, hrest⟩⟩ := h.head
  · rw [accept_of_ne rest (ne_of_closes hw ht)] at hb
    cases hb
    exact ⟨_, accept_of_ne rest' (ne_of_closes hw ht'), h, Nat.le_refl _, nofun⟩
  · by_cases heq : t.word = w
    · have hend : w ≠ .endOfInput := by
        rintro rfl
        cases hw
      rw [accept_of_eq rest hend heq] at hb
      cases hb
      exact ⟨_, accept_of_eq rest' hend (hword.trans heq), hrest, by simp⟩
    · rw [accept_of_ne rest heq] at hb
      cases hb
      exact ⟨_, accept_of_ne rest' (hword ▸ heq), h, Nat.le_refl _, nofun⟩

theorem follows_sees {w : Word} (hw : closes w = false) (h : Alike post post' ts ts') :
    Follows post post' (fun _ k => k ≤ ts.length) (sees w) (sees w) ts ts' := by
  have hrun : ∀ (u : Token) (us : List Token),
      sees w (u :: us) = .ok (decide (u.word = w), u :: us) := fun _ _ => rfl
  intro b left hb
  obtain ⟨t, rest, t', rest', rfl, rfl, hhead⟩ := h.head
  rw [hrun] at hb
  cases hb
  refine ⟨t' :: rest', ?_, h, Nat.le_refl _⟩
  rw [hrun]
  rcases hhead with ⟨ht, ht'⟩ | ⟨_, hword, _⟩
  · rw [decide_eq_false (ne_of_closes hw ht), decide_eq_false (ne_of_closes hw ht')]
  · rw [hword]

theorem follows_expect {w : Word} (hw : closes w = false) (h : Alike post post' ts ts') :
    Follows post post' (fun _ k => k < ts.length) (expect w) (expect w) ts ts' := by
  refine (follows_accept hw h).bind fun b rest rest' halike hb => ?_
  cases b with
  | true => exact .pure halike (hb.2 rfl)
  | false => exact .unexpected _

theorem name?_of_closes {w : Word} (h : closes w = true) : w.name? = none := by
  rcases closes_iff.1 h with rfl | rfl <;> rfl

theorem follows_peekName? (h : Alike post post' ts ts') :
    Follows post post' (fun _ k => k ≤ ts.length) peekName? peekName? ts ts' := by
  have hrun : ∀ (u : Token) (us : List Token), peekName? (u :: us) = .ok (u.word.name?, u :: us) :=
    fun _ _ => rfl
  intro found left hfound
  obtain ⟨t, rest, t', rest', rfl, rfl, hhead⟩ := h.head
  rw [hrun] at hfound
  cases hfound
  refine ⟨t' :: rest', ?_, h, Nat.le_refl _⟩
  rw [hrun]
  rcases hhead with ⟨ht, ht'⟩ | ⟨_, hword, _⟩
  · rw [name?_of_closes ht, name?_of_closes ht']
  · rw [hword]

theorem peekName?_bind {α : Type} (k : Option String → Parser α) (t : Token) (rest : List Token) :
    (peekName? >>= k) (t :: rest) = k t.word.name? (t :: rest) := rfl

theorem name_of_some {t : Token} {x : String} (h : t.word.name? = some x) (rest : List Token) :
    name (t :: rest) = (do let _ ← advance; return x : Parser String) (t :: rest) := by
  rw [name, peekName?_bind, h]

theorem name_of_none {t : Token} (h : t.word.name? = none) (rest : List Token) :
    name (t :: rest) = unexpected "identifier" (t :: rest) := by
  rw [name, peekName?_bind, h]

theorem follows_name (h : Alike post post' ts ts') :
    Follows post post' (fun _ k => k < ts.length) name name ts ts' := by
  obtain ⟨t, rest, t', rest', rfl, rfl, hhead⟩ := h.head
  intro x left hx
  rcases hhead with ⟨ht, _⟩ | ⟨hopen, hword, hrest⟩
  · rw [name_of_none (name?_of_closes ht)] at hx
    cases hx
  · cases hname : t.word.name? with
    | none =>
      rw [name_of_none hname] at hx
      cases hx
    | some y =>
      rw [name_of_some hname] at hx
      rw [name_of_some (hword ▸ hname)]
      have htaken : Follows post post' (fun _ k => k < (t :: rest).length)
          (do let _ ← advance; return y) (do let _ ← advance; return y) (t :: rest)
          (t' :: rest') :=
        .advance hopen hword (.pure hrest (Nat.lt_succ_self _))
      exact htaken x left hx

/-- Names are taken from both lists, as many as there are. -/
theorem follows_names (h : Alike post post' ts ts') :
    Follows post post' (fun xs k => k + xs.length ≤ ts.length) names names ts ts' := by
  have hsplit : (splitNames ts').1 = (splitNames ts).1 ∧
      Alike post post' (splitNames ts).2 (splitNames ts').2 ∧
      (splitNames ts).2.length + (splitNames ts).1.length ≤ ts.length := by
    induction h with
    | close hpost hpost' =>
      have hnone : ∀ {us : List Token}, Closed us → splitNames us = ([], us) := by
        rintro us ⟨t, rest, rfl, ht⟩
        rw [splitNames, name?_of_closes ht]
      rw [hnone hpost, hnone hpost']
      exact ⟨rfl, .close hpost hpost', Nat.le_refl _⟩
    | @word t t' rest rest' hword hopen hrest ih =>
      rw [splitNames, splitNames, hword]
      cases t.word.name? with
      | none => exact ⟨rfl, .word hword hopen hrest, Nat.le_refl _⟩
      | some x =>
        obtain ⟨hnames, halike, hlength⟩ := ih
        refine ⟨congrArg (x :: ·) hnames, halike, ?_⟩
        simp only [List.length_cons]
        omega
  obtain ⟨hnames, halike, hlength⟩ := hsplit
  have hrun : ∀ us, names us = .ok ((splitNames us).1, (splitNames us).2) := fun _ => rfl
  intro xs left hxs
  rw [hrun, Except.ok.injEq, Prod.mk.injEq] at hxs
  obtain ⟨rfl, rfl⟩ := hxs
  refine ⟨(splitNames ts').2, ?_, halike, hlength⟩
  rw [hrun, hnames]

theorem follows_reference {scope : List String} {position position' : Position} {x : String}
    (h : Alike post post' ts ts') :
    Follows post post' (fun _ k => k ≤ ts.length) (reference scope position x)
      (reference scope position' x) ts ts' := by
  have hle := Nat.le_refl ts.length
  unfold reference
  dsimp only
  split
  · exact .pure h hle
  split
  · exact .pure h hle
  by_cases htype : x = "Type"
  · rw [if_pos htype, if_pos htype]
    obtain ⟨t, rest, t', rest', rfl, rfl, hhead⟩ := h.head
    refine .peek ?_
    rcases hhead with ⟨ht, ht'⟩ | ⟨hopen, hword, hrest⟩
    · -- a word that closes the command is no level
      rcases closes_iff.1 ht with hw | hw <;> rcases closes_iff.1 ht' with hw' | hw' <;>
      · rw [hw, hw']
        exact .pure h hle
    · rw [hword]
      cases hw : t.word with
      | integer digits =>
        dsimp only
        split
        · exact .pure h hle
        · refine .advance hopen hword ?_
          cases readLevel? digits.toList with
          | some level => exact .pure hrest (Nat.le_succ _)
          | none => exact Follows.bind (P := fun _ _ => False) (.fail _ _) fun _ _ _ _ => False.elim
      | _ => exact .pure h hle
  · rw [if_neg htype, if_neg htype]
    split
    · split
      · exact .pure h hle
      · exact .fail _ _
    · exact .pure h hle

end Parser
end ProofKernel
