import ProofKernel.Proofs.Script.Words

/-!
# Reading the text of tokens again

The tokens of a text are read again from their own text, at any place, when what followed them is
replaced by something else that closes it.

* `Lexer.gap_replace`: a gap that ends within a text is the same when what follows the text is
  replaced.
* `Lexer.tokensFrom_cases` takes the tokens of a text apart, and `Lexer.tokensFrom_append` puts them
  together again.
* `Lexer.tokensFrom_replace` reads the text of tokens again, and `Lexer.tokensFrom_source` their
  source, which has no gap before the first word.
-/

set_option autoImplicit false
namespace ProofKernel
namespace Lexer

variable {A G T : Text}

/-! ## Gaps -/

/-- A comment ends where it is closed, whatever follows. -/
theorem blockComment_replace {depth : Nat} {text body after : Text}
    (h : blockComment depth text = some (body, after)) :
    body ≠ [] ∧ ∀ after', blockComment depth (body ++ after') = some (body, after') := by
  fun_induction blockComment depth text generalizing body after with
  | case1 => cases h
  | case2 depth rest ih =>
    obtain ⟨⟨b, a⟩, hb, heq⟩ := Option.map_eq_some_iff.1 h
    cases heq
    exact ⟨List.cons_ne_nil _ _, fun after' => by simp [blockComment, (ih hb).2 after']⟩
  | case3 rest =>
    cases h
    exact ⟨List.cons_ne_nil _ _, fun _ => rfl⟩
  | case4 rest depth ih =>
    obtain ⟨⟨b, a⟩, hb, heq⟩ := Option.map_eq_some_iff.1 h
    cases heq
    exact ⟨List.cons_ne_nil _ _, fun after' => by simp [blockComment, (ih hb).2 after']⟩
  | case5 depth s rest hopen hclose ih =>
    obtain ⟨⟨b, a⟩, hb, heq⟩ := Option.map_eq_some_iff.1 h
    cases heq
    obtain ⟨hne, hagain⟩ := ih hb
    have happend := blockComment_append hb
    refine ⟨List.cons_ne_nil _ _, fun after' => ?_⟩
    -- what follows the symbol is the same, since the comment goes on
    obtain ⟨x, b', rfl⟩ := List.exists_cons_of_ne_nil hne
    rw [List.cons_append] at happend
    have hagain' := hagain after'
    rw [List.cons_append] at hagain'
    rw [List.cons_append, List.cons_append, blockComment, hagain']
    · rfl
    · rintro _ rfl ⟨⟩
      exact hopen _ rfl happend.symm
    · rintro _ rfl ⟨⟩
      exact hclose _ rfl happend.symm

theorem gap_blockComment {rest body after : Text} (h : blockComment 0 rest = some (body, after)) :
    gap (.char '(' :: .char '*' :: rest) = (gap after).after (.char '(' :: .char '*' :: body) := by
  rw [gap]
  split
  · next hnone => simp [h] at hnone
  · next hsome =>
    rw [h] at hsome
    cases hsome
    rfl

theorem gap_lineComment (rest : Text) :
    gap (.char '-' :: .char '-' :: rest) = (gap (rest.dropWhile notNewline)).after
      (.char '-' :: .char '-' :: rest.takeWhile notNewline) := by
  rw [gap]

/-- A symbol is in no gap iff it is not blank and opens no comment. -/
theorem gap_cons_iff {s : Symbol} {rest : Text} :
    gap (s :: rest) = .ok ([], s :: rest) ↔ s.holds isBlank = false ∧
      (s = .char '(' → rest.head? ≠ some (.char '*')) ∧
      (s = .char '-' → rest.head? ≠ some (.char '-')) := by
  constructor
  · intro h
    unfold gap at h
    split at h
    · next heq => cases heq
    · split at h
      · cases h
      · obtain ⟨_, _, hnil⟩ := GapResult.after_eq_ok h
        cases hnil
    · obtain ⟨_, _, hnil⟩ := GapResult.after_eq_ok h
      cases hnil
    · next s' rest' hopen hline heq =>
      cases heq
      split at h
      · obtain ⟨_, _, hnil⟩ := GapResult.after_eq_ok h
        cases hnil
      · next hblank =>
        refine ⟨by simpa using hblank, ?_, ?_⟩
        · rintro rfl hhead
          obtain ⟨tail, rfl⟩ := List.head?_eq_some_iff.1 hhead
          exact hopen tail rfl rfl
        · rintro rfl hhead
          obtain ⟨tail, rfl⟩ := List.head?_eq_some_iff.1 hhead
          exact hline tail rfl rfl
  · rintro ⟨hblank, hopen, hline⟩
    rw [gap, if_neg (by simp [hblank])]
    · rintro tail rfl rfl
      exact hopen rfl rfl
    · rintro tail rfl rfl
      exact hline rfl rfl

/-- What follows a gap does not begin with one. -/
theorem gap_rest {text g rest : Text} (h : gap text = .ok (g, rest)) :
    gap rest = .ok ([], rest) := by
  fun_induction gap text generalizing g rest with
  | case1 =>
    cases h
    rw [gap]
  | case2 => cases h
  | case3 tail body after hb ih =>
    obtain ⟨g', hg, rfl⟩ := GapResult.after_eq_ok h
    exact ih hg
  | case4 tail ih =>
    obtain ⟨g', hg, rfl⟩ := GapResult.after_eq_ok h
    exact ih hg
  | case5 s tail hopen hline hs ih =>
    obtain ⟨g', hg, rfl⟩ := GapResult.after_eq_ok h
    exact ih hg
  | case6 s tail hopen hline hs =>
    cases h
    rw [gap, if_neg hs]
    · exact hopen
    · exact hline

/-- A gap ends where a symbol stands that is in no gap. -/
theorem gap_of_stop {text g rest : Text} {s : Symbol} (h : gap text = .ok (g, s :: rest))
    {rest' : Text} (hstop : gap (s :: rest') = .ok ([], s :: rest')) :
    gap (g ++ s :: rest') = .ok (g, s :: rest') := by
  fun_induction gap text generalizing g with
  | case1 => cases h
  | case2 => cases h
  | case3 tail body after hb ih =>
    obtain ⟨g', hg, rfl⟩ := GapResult.after_eq_ok h
    have hcomment := gap_blockComment ((blockComment_replace hb).2 (g' ++ s :: rest'))
    simp only [List.cons_append, List.append_assoc] at hcomment ⊢
    rw [hcomment, ih hg]
    simp [GapResult.after]
  | case4 tail ih =>
    obtain ⟨g', hg, rfl⟩ := GapResult.after_eq_ok h
    have happend := gap_append hg
    -- the line ends at the same place, since a symbol follows
    have hline : ∀ a ∈ tail.takeWhile notNewline, notNewline a = true :=
      List.all_eq_true.1 List.all_takeWhile
    have hend : (g' ++ s :: rest').takeWhile notNewline = [] ∧
        (g' ++ s :: rest').dropWhile notNewline = g' ++ s :: rest' := by
      have hhead := List.head?_dropWhile_not notNewline tail
      rw [← happend] at hhead
      cases g' with
      | nil =>
        have hs : notNewline s = false := hhead
        simp [hs]
      | cons c g' =>
        have hc : notNewline c = false := hhead
        simp [hc]
    simp only [List.cons_append, List.append_assoc, gap_lineComment]
    rw [List.takeWhile_append_of_pos hline, List.dropWhile_append_of_pos hline, hend.1, hend.2,
      ih hg]
    simp [GapResult.after]
  | case5 a tail hopen hline hs ih =>
    obtain ⟨g', hg, rfl⟩ := GapResult.after_eq_ok h
    rw [List.singleton_append, List.cons_append, gap, if_pos hs, ih hg]
    · rfl
    · rintro _ rfl
      cases hs
    · rintro _ rfl
      cases hs
  | case6 a tail hopen hline hs =>
    cases h
    exact hstop

/-- **A gap that ends within a text does not depend on what follows the text.** -/
theorem gap_replace {text g : Text} {s : Symbol} (hT : Closing T)
    (h : gap text = .ok (g, s :: (A ++ G))) :
    gap (g ++ s :: (A ++ T)) = .ok (g, s :: (A ++ T)) := by
  refine gap_of_stop h ?_
  obtain ⟨hblank, hopen, hline⟩ := gap_cons_iff.1 (gap_rest h)
  refine gap_cons_iff.2 ⟨hblank, ?_⟩
  cases A with
  | nil => cases hT <;> simp
  | cons b A => exact ⟨hopen, hline⟩

/-! ## Tokens -/

/-- The text of tokens, with the gap before each. -/
def written (ts : List Token) : Text :=
  ts.flatMap fun t => t.gap ++ t.lexeme

theorem written_cons (t : Token) (ts : List Token) :
    written (t :: ts) = t.gap ++ (t.lexeme ++ written ts) := by
  rw [written, List.flatMap_cons, List.append_assoc]
  rfl

theorem written_append (ts us : List Token) : written (ts ++ us) = written ts ++ written us :=
  List.flatMap_append

/-- A gap up to the end is the end of input. -/
theorem tokensFrom_end {place : Position} {g text : Text} (hgap : gap text = .ok (g, [])) :
    tokensFrom place text = .ok [⟨.endOfInput, g, [], place.after g⟩] := by
  rw [tokensFrom]
  split
  · next heq => simp [hgap] at heq
  · next heq =>
    rw [hgap] at heq
    cases heq
    rfl
  · next heq => simp [hgap] at heq

/-- One token: a gap, a word and what is read after it. -/
theorem tokensFrom_word {place : Position} {g rest text : Text} {s : Symbol} {w : Word} {n : Nat}
    (hgap : gap text = .ok (g, s :: rest)) (hword : word s rest = .ok (w, n)) :
    tokensFrom place text = (tokensFrom ((place.after g).after ((s :: rest).take n))
      ((s :: rest).drop n)).map fun later =>
        ⟨w, g, (s :: rest).take n, place.after g⟩ :: later := by
  rw [tokensFrom]
  split
  · next heq => simp [hgap] at heq
  · next heq => simp [hgap] at heq
  · next heq =>
    rw [hgap] at heq
    cases heq
    split
    · next heq => simp [hword] at heq
    · next heq =>
      rw [hword] at heq
      cases heq
      dsimp only
      cases tokensFrom ((place.after g).after ((s :: rest).take n)) ((s :: rest).drop n) <;> rfl

/-- Tokens are the end of input, or a word and the tokens after it. -/
theorem tokensFrom_cases {place : Position} {text : Text} {ts : List Token}
    (h : tokensFrom place text = .ok ts) :
    (∃ t, ts = [t] ∧ t.word = .endOfInput ∧ t.gap ++ t.lexeme = text ∧ gap text = .ok (t.gap, [])) ∨
      ∃ t later s rest n, ts = t :: later ∧ gap text = .ok (t.gap, s :: rest) ∧
        word s rest = .ok (t.word, n) ∧ t.lexeme = (s :: rest).take n ∧
        tokensFrom ((place.after t.gap).after t.lexeme) ((s :: rest).drop n) = .ok later := by
  cases hgap : gap text with
  | error before =>
    rw [tokensFrom] at h
    split at h <;> simp_all
  | ok found =>
    obtain ⟨g, following⟩ := found
    cases following with
    | nil =>
      rw [tokensFrom_end hgap] at h
      cases h
      exact .inl ⟨_, rfl, rfl, gap_append hgap, rfl⟩
    | cons s rest =>
      cases hword : word s rest with
      | error flaw =>
        rw [tokensFrom] at h
        split at h
        · simp_all
        · simp_all
        · next heq =>
          rw [hgap] at heq
          cases heq
          split at h <;> simp_all
      | ok found =>
        obtain ⟨w, n⟩ := found
        rw [tokensFrom_word hgap hword] at h
        cases hlater : tokensFrom ((place.after g).after ((s :: rest).take n))
          ((s :: rest).drop n) with
        | error e => simp [hlater, Except.map] at h
        | ok later =>
          simp only [hlater, Except.map, Except.ok.injEq] at h
          exact .inr ⟨_, later, s, rest, n, h.symm, rfl, hword, rfl, hlater⟩

/-- **Tokens give back the text**, and end with the end of input, which is nowhere else. -/
theorem tokensFrom_append {place : Position} {text : Text} {ts : List Token}
    (h : tokensFrom place text = .ok ts) :
    written ts = text ∧ ∃ init last, ts = init ++ [last] ∧ last.word = .endOfInput ∧
      ∀ t ∈ init, t.word ≠ .endOfInput := by
  induction hn : ts.length generalizing place text ts with
  | zero =>
    rcases tokensFrom_cases h with ⟨t, rfl, _⟩ | ⟨t, later, _, _, _, rfl, _⟩
    · cases hn
    · cases hn
  | succ n ih =>
    rcases tokensFrom_cases h with ⟨t, rfl, hend, htext, _⟩ |
      ⟨t, later, s, rest, k, rfl, hgap, hword, hlexeme, hlater⟩
    · exact ⟨by simpa [written] using htext, [], t, rfl, hend, nofun⟩
    · obtain ⟨happend, init, last, rfl, hend, hinit⟩ := ih hlater (Nat.succ.inj hn)
      refine ⟨?_, t :: init, last, rfl, hend, ?_⟩
      · rw [written_cons, happend, hlexeme, List.take_append_drop]
        exact gap_append hgap
      · exact List.forall_mem_cons.2 ⟨(word_le hword).2, hinit⟩

/-! ### The same text elsewhere -/

/-- Tokens when their text starts at another place. -/
def relocate (place : Position) : List Token → List Token
  | [] => []
  | t :: ts =>
    { t with position := place.after t.gap } :: relocate ((place.after t.gap).after t.lexeme) ts

@[simp] theorem map_word_relocate (place : Position) (ts : List Token) :
    (relocate place ts).map Token.word = ts.map Token.word := by
  induction ts generalizing place with
  | nil => rfl
  | cons t ts ih => simp [relocate, ih]

@[simp] theorem written_relocate (place : Position) (ts : List Token) :
    written (relocate place ts) = written ts := by
  induction ts generalizing place with
  | nil => rfl
  | cons t ts ih => simp [relocate, written_cons, ih]

/-- **Tokens are read again from their text**, at any place and when what follows it is replaced. -/
theorem tokensFrom_replace {place : Position} {text : Text} {pre post : List Token}
    (hT : Closing T) (h : tokensFrom place text = .ok (pre ++ post))
    (hpre : ∀ t ∈ pre, t.word ≠ .endOfInput) (place' : Position) :
    tokensFrom place' (written pre ++ T) =
      (tokensFrom (place'.after (written pre)) T).map (relocate place' pre ++ ·) := by
  induction pre generalizing place text place' with
  | nil => exact (id_map (f := Except Fault) _).symm
  | cons t pre ih =>
    rw [List.cons_append] at h
    obtain ⟨ht, hpre⟩ := List.forall_mem_cons.1 hpre
    rcases tokensFrom_cases h with ⟨t', heq, hend, _⟩ |
      ⟨t', later, s, rest, n, heq, hgap, hword, hlexeme, hlater⟩
    · have htt' : t = t' := (List.cons.inj heq).1
      exact absurd (htt' ▸ hend) ht
    obtain ⟨rfl, rfl⟩ := List.cons.inj heq
    -- after the first symbol stand the rest of the word and the text of the other tokens
    obtain ⟨m, rfl⟩ : ∃ m, n = m + 1 := ⟨n - 1, by have := word_pos hword; omega⟩
    have hm : (rest.take m).length = m := by
      have hle := (word_le hword).1
      rw [List.length_take]
      omega
    rw [List.take_succ_cons] at hlexeme
    rw [List.drop_succ_cons] at hlater
    have hrest : rest = (rest.take m ++ written pre) ++ written post := by
      have happend := (tokensFrom_append hlater).1
      rw [written_append] at happend
      rw [List.append_assoc, happend, List.take_append_drop]
    rw [hrest] at hgap hword
    have hgap' := gap_replace hT hgap
    have hword' := word_replace hT hword (by rw [List.length_append]; omega)
    have hdrop : (s :: (rest.take m ++ written pre ++ T)).drop (m + 1) = written pre ++ T := by
      rw [List.drop_succ_cons, List.append_assoc]
      exact List.drop_left' hm
    have htake : (s :: (rest.take m ++ written pre ++ T)).take (m + 1) = t.lexeme := by
      rw [List.take_succ_cons, List.append_assoc, hlexeme]
      exact congrArg _ (List.take_left' hm)
    have htext : written (t :: pre) ++ T = t.gap ++ s :: (rest.take m ++ written pre ++ T) := by
      rw [written_cons, hlexeme]
      simp
    have hplace : place'.after (written (t :: pre)) =
        ((place'.after t.gap).after t.lexeme).after (written pre) := by
      rw [written_cons, Position.after_append, Position.after_append]
    rw [htext, tokensFrom_word hgap' hword', hdrop, htake, hplace, ih hlater hpre]
    cases tokensFrom (((place'.after t.gap).after t.lexeme).after (written pre)) T <;> rfl

/-- Tokens without the gap before the first of them. -/
theorem tokensFrom_dropGap {place : Position} {text : Text} {t : Token} {later : List Token}
    (h : tokensFrom place text = .ok (t :: later)) (ht : t.word ≠ .endOfInput) :
    tokensFrom (place.after t.gap) (t.lexeme ++ written later) =
      .ok ({ t with gap := [], position := place.after t.gap } :: later) := by
  rcases tokensFrom_cases h with ⟨t', heq, hend, _⟩ |
    ⟨t', later', s, rest, n, heq, hgap, hword, hlexeme, hlater⟩
  · have htt' : t = t' := (List.cons.inj heq).1
    exact absurd (htt' ▸ hend) ht
  obtain ⟨rfl, rfl⟩ := List.cons.inj heq
  rw [(tokensFrom_append hlater).1, hlexeme, List.take_append_drop,
    tokensFrom_word (gap_rest hgap) hword, Position.after_nil, ← hlexeme, hlater]
  rfl

/-- The source of tokens is their text, when there is no gap before the first. -/
theorem written_eq_source {ts : List Token} (h : ∀ t ∈ ts.head?, t.gap = []) :
    written ts = Token.source ts := by
  cases ts with
  | nil => rfl
  | cons t ts =>
    rw [written_cons, h t rfl, List.nil_append]
    rfl

/-- **The source of tokens is read as the same words**, at any place and whatever closes it. -/
theorem tokensFrom_source {place : Position} {text : Text} {pre post : List Token}
    (hT : Closing T) (h : tokensFrom place text = .ok (pre ++ post))
    (hpre : ∀ t ∈ pre, t.word ≠ .endOfInput) (place' : Position) :
    ∃ pre', pre'.map Token.word = pre.map Token.word ∧ Token.source pre' = Token.source pre ∧
      tokensFrom place' (Token.source pre ++ T) =
        (tokensFrom (place'.after (Token.source pre)) T).map (pre' ++ ·) := by
  cases pre with
  | nil => exact ⟨[], rfl, rfl, (id_map (f := Except Fault) _).symm⟩
  | cons t pre =>
    obtain ⟨ht, hpre⟩ := List.forall_mem_cons.1 hpre
    let first : Token := { t with gap := [], position := place.after t.gap }
    have hdrop : tokensFrom (place.after t.gap) (t.lexeme ++ written (pre ++ post)) =
        .ok (first :: pre ++ post) := tokensFrom_dropGap h ht
    have hread := tokensFrom_replace hT hdrop (List.forall_mem_cons.2 ⟨ht, hpre⟩) place'
    have hsource : written (first :: pre) = Token.source (t :: pre) :=
      written_eq_source (by simp [first])
    refine ⟨relocate place' (first :: pre), map_word_relocate _ _, ?_, hsource ▸ hread⟩
    rw [← hsource, ← written_relocate place', written_eq_source (by simp [relocate, first])]

/-- The source of tokens of a text is a part of the text. -/
theorem source_infix {place : Position} {text : Text} {pre post : List Token}
    (h : tokensFrom place text = .ok (pre ++ post)) : Token.source pre <:+: text := by
  have happend := (tokensFrom_append h).1
  cases pre with
  | nil => exact List.nil_infix
  | cons t pre =>
    refine ⟨t.gap, written post, ?_⟩
    rw [← happend, List.cons_append, written_cons, written_append]
    simp [Token.source, written]

/-! ## What closes a text -/

theorem tokensFrom_empty (place : Position) :
    tokensFrom place [] = .ok [⟨.endOfInput, [], [], place⟩] :=
  tokensFrom_end (by rw [gap])

theorem tokensFrom_nil (place : Position) :
    ∃ tail, tokensFrom place [] = .ok tail ∧ tail.map Token.word = [.endOfInput] :=
  ⟨_, tokensFrom_empty place, rfl⟩

theorem tokensFrom_dot (place : Position) (rest : Text) :
    tokensFrom place (.char '.' :: rest) =
      (tokensFrom (place.next (.char '.')) rest).map (⟨.dot, [], [.char '.'], place⟩ :: ·) := by
  have hgap : gap (.char '.' :: rest) = .ok ([], .char '.' :: rest) :=
    gap_cons_iff.2 ⟨by decide, nofun, nofun⟩
  have hword : word (.char '.') rest = .ok (.dot, 1) := rfl
  rw [tokensFrom_word hgap hword]
  rfl

/-- A new line lengthens the gap before the first token. -/
theorem tokensFrom_newline {place : Position} {text : Text} {t : Token} {later : List Token}
    (h : tokensFrom (place.next (.char '\n')) text = .ok (t :: later)) :
    tokensFrom place (.char '\n' :: text) =
      .ok ({ t with gap := .char '\n' :: t.gap } :: later) := by
  have hline : ∀ {g rest : Text}, gap text = .ok (g, rest) →
      gap (.char '\n' :: text) = .ok (.char '\n' :: g, rest) := by
    intro g rest hgap
    rw [gap, if_pos (by decide), hgap]
    · rfl
    · rintro _ ⟨⟩
    · rintro _ ⟨⟩
  rcases tokensFrom_cases h with ⟨t', heq, _, _, hgap⟩ |
    ⟨t', later', s, rest, n, heq, hgap, hword, hlexeme, hlater⟩
  · rw [tokensFrom_end hgap] at h
    rw [tokensFrom_end (hline hgap)]
    cases h
    rfl
  · rw [tokensFrom_word hgap hword, ← hlexeme, hlater] at h
    have ht := (List.cons.inj (Except.ok.inj h)).1
    have hlater' : tokensFrom ((place.after (.char '\n' :: t'.gap)).after t'.lexeme)
        ((s :: rest).drop n) = .ok later' := hlater
    obtain ⟨rfl, rfl⟩ := List.cons.inj heq
    rw [tokensFrom_word (hline hgap) hword, ← hlexeme, hlater', ← ht]
    rfl

end Lexer
end ProofKernel
