import Mathlib.Data.List.DropRight
import ProofKernel.Proofs.Script.Tokens
import ProofKernel.Proofs.Text.Decoding

/-!
# Tokens tile their input

The tokens of an input and the gaps between them cover its bytes, each token where it says it is.

* `Lexer.Inside` and `Lexer.Between` say what a gap is made of without reading it: white space,
  whole comments, and comments up to the end of their line.
* `Position.behind` is the place after some bytes, counted from the bytes alone.
* `Lexer.Tiling` says how tokens lie in an input, `Word.SpelledBy` how a word is spelled.
* `Lexer.tokens_tile`: whatever the input, its tokens tile it and are spelled as it says.
-/

set_option autoImplicit false
namespace ProofKernel

open ProofKernel.Symbol (Legible encode decode)

/-! ## Places -/

/-- The place after some bytes. -/
def Position.behind (before : List UInt8) : Position where
  offset := before.length
  line := 1 + (decode before).count (.char '\n')
  column := 1 + ((decode before).rtakeWhile (· ≠ .char '\n')).length

theorem Symbol.is_iff {s : Symbol} {c : Char} : s.is c = true ↔ s = .char c := by
  cases s <;> simp [Symbol.is]

/-- A place is counted symbol by symbol. -/
theorem Position.after_start (text : Text) :
    Position.start.after text =
      ⟨(encode text).length, 1 + text.count (.char '\n'),
        1 + (text.rtakeWhile (· ≠ .char '\n')).length⟩ := by
  induction text using List.reverseRecOn with
  | nil => rfl
  | append_singleton text s ih =>
    rw [Position.after_append, ih]
    simp only [Position.after, List.foldl_cons, List.foldl_nil, Position.next, Symbol.is_iff,
      Symbol.encode_append, Symbol.encode_cons, Symbol.encode_nil, List.append_nil,
      List.length_append, Symbol.length_bytes]
    by_cases hs : s = .char '\n'
    · simp [hs]
      omega
    · simp [hs]
      omega

theorem Position.behind_encode {text : Text} (h : Legible text) :
    Position.behind (encode text) = Position.start.after text := by
  rw [Position.after_start, Position.behind, h]

/-! ## Spellings -/

/-- The text of an identifier or a number. -/
def Word.text? : Word → Option String
  | .ident name => some name
  | .integer digits => some digits
  | .float digits => some digits
  | _ => none

/-- The text of an identifier or a number is what it was read from. -/
def Word.Verbatim (word : Word) (bytes : List UInt8) : Prop :=
  ∀ text ∈ word.text?, text.toByteArray = bytes.toByteArray

/-- How words are read: two signs name binders, and any other word is taken verbatim. -/
def Word.SpelledBy (word : Word) (bytes : List UInt8) : Prop :=
  if bytes = (Symbol.char 'λ').bytes then word = .ident "fun"
  else if bytes = (Symbol.char '∀').bytes then word = .ident "forall"
  else word.Verbatim bytes

namespace Lexer

/-! ## What stands between words -/

/-- The rest of a block comment, from within it up to the sign that closes it.  The comments that
are opened in it are closed in it. -/
inductive Inside : Text → Prop
  | close : Inside [.char '*', .char ')']
  | nested {body rest : Text} (hbody : Inside body) (hrest : Inside rest) :
      Inside (.char '(' :: .char '*' :: (body ++ rest))
  | symbol {s : Symbol} {rest : Text} (hopen : s = .char '(' → rest.head? ≠ some (.char '*'))
      (hclose : s = .char '*' → rest.head? ≠ some (.char ')')) (hrest : Inside rest) :
      Inside (s :: rest)

/-- White space and comments, when `after` follows them. -/
inductive Between (after : Text) : Text → Prop
  | nil : Between after []
  | blank {s : Symbol} {rest : Text} (hs : s.holds isBlank = true) (hrest : Between after rest) :
      Between after (s :: rest)
  | block {body rest : Text} (hbody : Inside body) (hrest : Between after rest) :
      Between after (.char '(' :: .char '*' :: (body ++ rest))
  | line {body rest : Text} (hbody : .char '\n' ∉ body)
      (hend : ∀ s ∈ (rest ++ after).head?, s = .char '\n') (hrest : Between after rest) :
      Between after (.char '-' :: .char '-' :: (body ++ rest))

theorem Inside.ne_nil {body : Text} (h : Inside body) : body ≠ [] := by
  cases h <;> exact List.cons_ne_nil _ _

/-- What is read as the rest of a comment at some depth closes one comment after the other. -/
theorem inside_of_blockComment {depth : Nat} {text body after : Text}
    (h : blockComment depth text = some (body, after)) :
    ∃ (b : Text) (bodies : List Text),
      Inside b ∧ (∀ b' ∈ bodies, Inside b') ∧ bodies.length = depth ∧
      body = b ++ bodies.flatten := by
  fun_induction blockComment depth text generalizing body after with
  | case1 => cases h
  | case2 depth rest ih =>
    obtain ⟨⟨b, a⟩, hb, heq⟩ := Option.map_eq_some_iff.1 h
    cases heq
    obtain ⟨inner, bodies, hinner, hbodies, hlength, rfl⟩ := ih hb
    obtain ⟨outer, bodies, rfl⟩ := List.exists_cons_of_length_eq_add_one hlength
    obtain ⟨houter, hbodies⟩ := List.forall_mem_cons.1 hbodies
    exact ⟨_, bodies, .nested hinner houter, hbodies, Nat.succ.inj hlength, by simp⟩
  | case3 rest =>
    cases h
    exact ⟨_, [], .close, List.forall_mem_nil _, rfl, rfl⟩
  | case4 rest depth ih =>
    obtain ⟨⟨b, a⟩, hb, heq⟩ := Option.map_eq_some_iff.1 h
    cases heq
    obtain ⟨outer, bodies, houter, hbodies, hlength, rfl⟩ := ih hb
    exact ⟨_, outer :: bodies, .close, List.forall_mem_cons.2 ⟨houter, hbodies⟩,
      congrArg (· + 1) hlength, by simp⟩
  | case5 depth s rest hopen hclose ih =>
    obtain ⟨⟨b, a⟩, hb, heq⟩ := Option.map_eq_some_iff.1 h
    cases heq
    obtain ⟨inner, bodies, hinner, hbodies, hlength, rfl⟩ := ih hb
    have happend := blockComment_append hb
    -- the comment goes on, so that what follows the symbol in it follows it in the text
    obtain ⟨x, inner, rfl⟩ := List.exists_cons_of_ne_nil hinner.ne_nil
    refine ⟨_, bodies, .symbol ?_ ?_ hinner, hbodies, hlength, rfl⟩
    · rintro rfl hhead
      obtain rfl := Option.some.inj hhead
      exact hopen _ rfl happend.symm
    · rintro rfl hhead
      obtain rfl := Option.some.inj hhead
      exact hclose _ rfl happend.symm

/-- **A gap is made up of white space and comments.** -/
theorem between_of_gap {text g after : Text} (h : gap text = .ok (g, after)) : Between after g := by
  fun_induction gap text generalizing g after with
  | case1 =>
    cases h
    exact .nil
  | case2 => cases h
  | case3 tail body rest hb ih =>
    obtain ⟨g', hg, rfl⟩ := GapResult.after_eq_ok h
    obtain ⟨b, bodies, hbody, -, hlength, rfl⟩ := inside_of_blockComment hb
    obtain rfl := List.length_eq_zero_iff.1 hlength
    rw [List.flatten_nil, List.append_nil]
    exact .block hbody (ih hg)
  | case4 tail ih =>
    obtain ⟨g', hg, rfl⟩ := GapResult.after_eq_ok h
    refine .line ?_ ?_ (ih hg)
    · intro hmem
      have hnewline : notNewline (.char '\n') = true :=
        List.all_eq_true.1 List.all_takeWhile _ hmem
      cases hnewline
    · intro s hs
      have hhead := List.head?_dropWhile_not notNewline tail
      rw [gap_append hg] at hs
      rw [hs] at hhead
      have hnewline : s.is '\n' = true := by simpa [notNewline] using hhead
      exact Symbol.is_iff.1 hnewline
  | case5 s tail hopen hline hs ih =>
    obtain ⟨g', hg, rfl⟩ := GapResult.after_eq_ok h
    exact .blank hs (ih hg)
  | case6 =>
    cases h
    exact .nil

/-! ## How words are spelled -/

theorem eq_char_of_holds {p : Char → Bool} {s : Symbol} (h : s.holds p = true) :
    s = .char s.shown := by
  cases s with
  | char c => rfl
  | stray b => cases h

theorem eq_char_of_is {c : Char} {s : Symbol} (h : s.is c = true) : s = .char s.shown := by
  rw [Symbol.is_iff.1 h]
  rfl

/-- Characters are the bytes of the string they make up. -/
theorem toByteArray_toString {text : Text} (h : ∀ s ∈ text, s = .char s.shown) :
    (Text.toString text).toByteArray = (encode text).toByteArray := by
  rw [Text.toString, String.toByteArray_ofList, List.utf8Encode, List.flatMap_map]
  refine congrArg List.toByteArray (List.flatMap_congr fun s hs => ?_)
  exact (congrArg Symbol.bytes (h s hs)).symm

/-- A part of the front, and a part of the front of what follows it. -/
theorem append_prefix_of_drop {a b text : Text} (ha : a <+: text) (hb : b <+: text.drop a.length) :
    a ++ b <+: text := by
  obtain ⟨rest, rfl⟩ := ha
  rw [List.drop_left] at hb
  exact (List.prefix_append_right_inj a).2 hb

theorem unsigned_initial (text : Text) : unsigned text <+: text := by
  have hpart : text.takeWhile isNumeral ++
      fraction (text.drop (text.takeWhile isNumeral).length) <+: text :=
    append_prefix_of_drop (List.takeWhile_prefix isNumeral) (fraction_initial _)
  refine append_prefix_of_drop hpart ?_
  rw [List.length_append]
  exact exponent_initial _

theorem char_of_mem_takeWhile {s : Symbol} {rest : Text} (h : s ∈ rest.takeWhile isNumeral) :
    s = .char s.shown :=
  eq_char_of_holds (List.all_eq_true.1 List.all_takeWhile s h)

theorem char_of_mem_fraction {s : Symbol} {text : Text} (h : s ∈ fraction text) :
    s = .char s.shown := by
  unfold fraction at h
  split at h
  · split at h
    · next hd =>
      rcases List.mem_cons.1 h with rfl | h
      · rfl
      rcases List.mem_cons.1 h with rfl | h
      · exact eq_char_of_holds hd
      · exact char_of_mem_takeWhile h
    · cases h
  · cases h

theorem char_of_mem_exponent {s : Symbol} {text : Text} (h : s ∈ exponent text) :
    s = .char s.shown := by
  unfold exponent at h
  split at h
  · next e d rest =>
    split at h
    · next he =>
      have he : e = .char e.shown := by
        rcases Bool.or_eq_true _ _ ▸ he with he | he
        · exact eq_char_of_is he
        · exact eq_char_of_is he
      split at h
      · next hd =>
        rcases List.mem_cons.1 h with rfl | h
        · exact he
        rcases List.mem_cons.1 h with rfl | h
        · exact eq_char_of_holds hd
        · exact char_of_mem_takeWhile h
      · split at h
        · next hsign =>
          have hd : d = .char d.shown := by
            rcases Bool.or_eq_true _ _ ▸ hsign with hd | hd
            · exact eq_char_of_is hd
            · exact eq_char_of_is hd
          split at h
          · cases h
          · rcases List.mem_cons.1 h with rfl | h
            · exact he
            rcases List.mem_cons.1 h with rfl | h
            · exact hd
            · exact char_of_mem_takeWhile h
        · cases h
    · cases h
  · cases h

theorem char_of_mem_unsigned {s : Symbol} {text : Text} (h : s ∈ unsigned text) :
    s = .char s.shown := by
  unfold unsigned at h
  dsimp only at h
  rcases List.mem_append.1 h with h | h
  · rcases List.mem_append.1 h with h | h
    · exact char_of_mem_takeWhile h
    · exact char_of_mem_fraction h
  · exact char_of_mem_exponent h

/-- The symbols of a number are characters. -/
theorem char_of_mem_number {s a : Symbol} {rest : Text}
    (h : a ∈ (s :: rest).take (numberLength (s :: rest))) : a = .char a.shown := by
  by_cases hs : s = .char '-'
  · subst hs
    cases rest with
    | nil => cases h
    | cons d rest =>
      rw [numberLength_minus] at h
      split at h
      · rw [List.take_succ_cons, ← List.prefix_iff_eq_take.1 (unsigned_initial _)] at h
        rcases List.mem_cons.1 h with rfl | h
        · rfl
        · exact char_of_mem_unsigned h
      · cases h
  · rw [numberLength_other hs] at h
    split at h
    · rw [← List.prefix_iff_eq_take.1 (unsigned_initial _)] at h
      exact char_of_mem_unsigned h
    · cases h

theorem legible_lambda : Legible [.char 'λ'] := by
  decide +kernel

theorem legible_forall : Legible [.char '∀'] := by
  decide +kernel

/-- A text that is not one of the two signs is not written as one of them. -/
theorem spelledBy_of_verbatim {w : Word} {text : Text} (hl : Legible text)
    (hlambda : text ≠ [.char 'λ']) (hforall : text ≠ [.char '∀'])
    (hverbatim : w.Verbatim (encode text)) : w.SpelledBy (encode text) := by
  have hsign : ∀ c, Legible [.char c] → text ≠ [.char c] →
      encode text ≠ (Symbol.char c).bytes := by
    intro c hc hne heq
    rw [← List.append_nil (Symbol.bytes _)] at heq
    exact hne (hl.symm.trans ((congrArg decode heq).trans hc))
  rw [Word.SpelledBy, if_neg (hsign _ legible_lambda hlambda),
    if_neg (hsign _ legible_forall hforall)]
  exact hverbatim

theorem spelledBy_lambda : (Word.ident "fun").SpelledBy (encode [.char 'λ']) := by
  rw [Word.SpelledBy, if_pos (by decide)]

theorem spelledBy_forall : (Word.ident "forall").SpelledBy (encode [.char '∀']) := by
  rw [Word.SpelledBy, if_neg (by decide), if_pos (by decide)]

/-- Signs have no text, but for the two that name binders. -/
theorem signs_cases {s : Symbol} {rest : Text} {w : Word} {n : Nat}
    (h : signs (s :: rest) = some (w, n)) :
    (w.text? = none ∧ s ≠ .char 'λ' ∧ s ≠ .char '∀') ∨
      (s = .char 'λ' ∧ w = .ident "fun" ∧ n = 1) ∨
      (s = .char '∀' ∧ w = .ident "forall" ∧ n = 1) := by
  unfold signs at h
  split at h
  case h_14 => cases h
  all_goals
    next heq =>
    cases heq
    cases h
    decide

/-- **A word is spelled by the text it is read from.** -/
theorem word_spelledBy {s : Symbol} {rest : Text} {w : Word} {n : Nat}
    (h : word s rest = .ok (w, n)) (hl : Legible ((s :: rest).take n)) :
    w.SpelledBy (encode ((s :: rest).take n)) := by
  obtain ⟨m, rfl⟩ : ∃ m, n = m + 1 := ⟨n - 1, by have := word_pos h; omega⟩
  -- a word that begins with neither sign is neither of them
  have hverbatim : s ≠ .char 'λ' → s ≠ .char '∀' → w.Verbatim (encode ((s :: rest).take (m + 1))) →
      w.SpelledBy (encode ((s :: rest).take (m + 1))) := by
    intro hlambda hforall
    refine spelledBy_of_verbatim hl ?_ ?_
    · rw [List.take_succ_cons]
      exact fun heq => hlambda (List.cons.inj heq).1
    · rw [List.take_succ_cons]
      exact fun heq => hforall (List.cons.inj heq).1
  have hnone : w.text? = none → w.Verbatim (encode ((s :: rest).take (m + 1))) := by
    intro hnone text htext
    rw [hnone] at htext
    cases htext
  unfold word at h
  dsimp only at h
  split at h
  · next hname =>
    obtain ⟨hw, hn⟩ := Prod.mk.inj (Except.ok.inj h)
    have htake : (s :: rest).take (m + 1) = s :: rest.takeWhile (Symbol.holds continuesName) := by
      rw [← hn]
      exact (List.prefix_iff_eq_take.1 ((List.prefix_cons_inj s).2 (List.takeWhile_prefix _))).symm
    refine hverbatim ?_ ?_ ?_
    · rintro rfl
      exact absurd hname (by decide +kernel)
    · rintro rfl
      exact absurd hname (by decide +kernel)
    · rintro text htext
      rw [htake]
      subst hw
      obtain rfl := Option.some.inj htext
      refine toByteArray_toString (List.forall_mem_cons.2 ⟨eq_char_of_holds hname, ?_⟩)
      exact fun a ha => eq_char_of_holds (List.all_eq_true.1 List.all_takeWhile a ha)
  · split at h
    · next hnumber =>
      obtain ⟨hw, hn⟩ := Prod.mk.inj (Except.ok.inj h)
      refine hverbatim ?_ ?_ ?_
      · rintro rfl
        exact hnumber (numberLength_other (by decide) rest)
      · rintro rfl
        exact hnumber (numberLength_other (by decide) rest)
      · intro text htext
        rw [← hn]
        have : text = Text.toString ((s :: rest).take (numberLength (s :: rest))) := by
          subst hw
          unfold numberWord at htext
          dsimp only at htext
          split at htext
          · exact (Option.some.inj htext).symm
          · exact (Option.some.inj htext).symm
        rw [this]
        exact toByteArray_toString fun a ha => char_of_mem_number ha
    · split at h
      · next hquote =>
        obtain rfl := Symbol.is_iff.1 hquote
        split at h
        · cases h
          exact hverbatim (by decide) (by decide) (hnone rfl)
        · cases h
      · split at h
        · next hsigns =>
          cases h
          rcases signs_cases hsigns with ⟨htext, hlambda, hforall⟩ | ⟨rfl, rfl, hm⟩ | ⟨rfl, rfl, hm⟩
          · exact hverbatim hlambda hforall (hnone htext)
          · obtain rfl := Nat.succ.inj hm
            exact spelledBy_lambda
          · obtain rfl := Nat.succ.inj hm
            exact spelledBy_forall
        · cases h

/-! ## Tokens -/

/-- The place of a token is the place after the gap before it. -/
theorem position_of_tokensFrom {place : Position} {text : Text} {t : Token} {later : List Token}
    (h : tokensFrom place text = .ok (t :: later)) : t.position = place.after t.gap := by
  rcases tokensFrom_cases h with ⟨t', heq, _, _, hgap⟩ |
    ⟨t', later', s, rest, n, heq, hgap, hword, hlexeme, hlater⟩
  · obtain ⟨rfl, -⟩ := List.cons.inj heq
    rw [tokensFrom_end hgap] at h
    rw [← (List.cons.inj (Except.ok.inj h)).1]
  · obtain ⟨rfl, -⟩ := List.cons.inj heq
    rw [tokensFrom_word hgap hword, ← hlexeme, hlater] at h
    rw [← (List.cons.inj (Except.ok.inj h)).1]

/-- How tokens lie in the bytes of an input from `start` on. -/
structure Tiling (bytes : List UInt8) (start : Nat) (ts : List Token) : Prop where
  /-- The last token and no other is the end of input, and its range alone is empty. -/
  ended : ∃ init last, ts = init ++ [last] ∧
    (last.word = .endOfInput ∧ last.position.offset = bytes.length ∧
      last.stop.offset = bytes.length) ∧
    ∀ t ∈ init, t.word ≠ .endOfInput ∧ t.position.offset < t.stop.offset
  /-- The ranges are disjoint and in increasing order. -/
  ordered : ts.Pairwise fun t u => t.stop.offset ≤ u.position.offset
  /-- Between the end of a token, or the start, and the next token there are white space and
  comments only. -/
  gaps : ∀ gap ∈ (start :: ts.map fun t => t.stop.offset).zip (ts.map fun t => t.position.offset),
    gap.1 ≤ gap.2 ∧ Between (decode (bytes.drop gap.2)) (decode (bytes.extract gap.1 gap.2))
  /-- Line and column are those of the offset. -/
  placed : ∀ t ∈ ts, t.position = .behind (bytes.take t.position.offset)

theorem Tiling.start_le {bytes : List UInt8} {start : Nat} {ts : List Token}
    (h : Tiling bytes start ts) : ∀ t ∈ ts, start ≤ t.position.offset := by
  obtain ⟨⟨init, last, rfl, ⟨-, hlast, hstop⟩, hinit⟩, hordered, hgaps, -⟩ := h
  have hrange : ∀ t ∈ init ++ [last], t.position.offset ≤ t.stop.offset := by
    intro t ht
    rcases List.mem_append.1 ht with ht | ht
    · exact (hinit t ht).2.le
    · obtain rfl := List.mem_singleton.1 ht
      rw [hlast, hstop]
  cases hts : init ++ [last] with
  | nil => exact nofun
  | cons u us =>
    rw [hts] at hordered hgaps hrange
    have hu : start ≤ u.position.offset := (hgaps _ (List.mem_cons_self ..)).1
    refine List.forall_mem_cons.2 ⟨hu, fun v hv => ?_⟩
    calc start ≤ u.position.offset := hu
      _ ≤ u.stop.offset := hrange u (List.mem_cons_self ..)
      _ ≤ v.position.offset := (List.pairwise_cons.1 hordered).1 v hv

/-- A token before others that tile what follows it. -/
theorem Tiling.cons {bytes : List UInt8} {start : Nat} {t : Token} {later : List Token}
    (hword : t.word ≠ .endOfInput) (hrange : t.position.offset < t.stop.offset)
    (hgap : start ≤ t.position.offset ∧ Between (decode (bytes.drop t.position.offset))
      (decode (bytes.extract start t.position.offset)))
    (hplace : t.position = .behind (bytes.take t.position.offset))
    (h : Tiling bytes t.stop.offset later) : Tiling bytes start (t :: later) := by
  obtain ⟨init, last, hlater, hlast, hinit⟩ := h.ended
  exact
    { ended := ⟨t :: init, last, by rw [hlater, List.cons_append], hlast,
        List.forall_mem_cons.2 ⟨⟨hword, hrange⟩, hinit⟩⟩
      ordered := List.pairwise_cons.2 ⟨h.start_le, h.ordered⟩
      gaps := List.forall_mem_cons.2 ⟨hgap, h.gaps⟩
      placed := List.forall_mem_cons.2 ⟨hplace, h.placed⟩ }

theorem offset_after_start (text : Text) :
    (Position.start.after text).offset = (encode text).length := by
  rw [Position.after_start]

theorem extract_append (a b c : List UInt8) :
    (a ++ (b ++ c)).extract a.length (a ++ b).length = b := by
  simp [List.extract_eq_take_drop]

/-- A token lies in some bytes, between the text before its gap and the text behind it. -/
structure Lies (bytes : List UInt8) (before : Text) (t : Token) (behind : Text) : Prop where
  start_le : (encode before).length ≤ t.position.offset
  stop : t.stop = Position.start.after (before ++ t.gap ++ t.lexeme)
  placed : t.position = .behind (bytes.take t.position.offset)
  gap : decode (bytes.extract (encode before).length t.position.offset) = t.gap
  lexeme : bytes.extract t.position.offset t.stop.offset = encode t.lexeme
  rest : decode (bytes.drop t.position.offset) = t.lexeme ++ behind

section

variable {before text : Text} {t : Token} {later : List Token}

theorem text_of_tokensFrom {place : Position} (h : tokensFrom place text = .ok (t :: later)) :
    text = t.gap ++ (t.lexeme ++ written later) := by
  rw [← (tokensFrom_append h).1, written_cons]

/-- **Where the first of some tokens lies.** -/
theorem lies_of_tokensFrom (hl : Legible (before ++ text))
    (h : tokensFrom (Position.start.after before) text = .ok (t :: later)) :
    Lies (encode (before ++ text)) before t (written later) := by
  have hposition := position_of_tokensFrom h
  rw [← Position.after_append] at hposition
  rw [text_of_tokensFrom h, ← List.append_assoc] at hl ⊢
  obtain ⟨hfront, hback⟩ := hl.of_append
  have hstart : t.position.offset = (encode (before ++ t.gap)).length := by
    rw [hposition, offset_after_start]
  have hstop : t.stop = Position.start.after (before ++ t.gap ++ t.lexeme) := by
    rw [Token.stop, hposition, ← Position.after_append]
  refine ⟨?_, hstop, ?_, ?_, ?_, ?_⟩
  · rw [hstart, Symbol.encode_append, List.length_append]
    exact Nat.le_add_right _ _
  · rw [hstart, Symbol.encode_append (before ++ t.gap), List.take_left,
      Position.behind_encode hfront, hposition]
  · rw [hstart, Symbol.encode_append, Symbol.encode_append before, List.append_assoc,
      extract_append, hfront.of_append.2]
  · rw [hstart, hstop, offset_after_start, Symbol.encode_append, Symbol.encode_append t.lexeme,
      Symbol.encode_append _ t.lexeme, extract_append]
  · rw [hstart, Symbol.encode_append (before ++ t.gap), List.drop_left, hback]

/-- What was read as the gap of a token is one in the bytes. -/
theorem Lies.between {bytes : List UInt8} {rest : Text}
    (h : Lies bytes before t (written later))
    (htext : text = t.gap ++ (t.lexeme ++ written later))
    (hgap : Lexer.gap text = .ok (t.gap, rest)) :
    (encode before).length ≤ t.position.offset ∧ Between (decode (bytes.drop t.position.offset))
      (decode (bytes.extract (encode before).length t.position.offset)) := by
  have hrest : rest = t.lexeme ++ written later :=
    List.append_cancel_left ((gap_append hgap).trans htext)
  rw [h.rest, h.gap, ← hrest]
  exact ⟨h.start_le, between_of_gap hgap⟩

/-- The end of input tiles what it stands behind. -/
theorem Lies.tiling_last {bytes : List UInt8} (h : Lies bytes before t [])
    (hword : t.word = .endOfInput) (hlexeme : t.lexeme = [])
    (hbytes : t.position.offset = bytes.length)
    (hgap : (encode before).length ≤ t.position.offset ∧
      Between (decode (bytes.drop t.position.offset))
        (decode (bytes.extract (encode before).length t.position.offset))) :
    Tiling bytes (encode before).length [t] := by
  have hstop : t.stop.offset = bytes.length := by
    rw [← hbytes, Token.stop, hlexeme, Position.after_nil]
  exact ⟨⟨[], t, rfl, ⟨hword, hbytes, hstop⟩, List.forall_mem_nil _⟩,
    List.pairwise_singleton _ _, List.forall_mem_singleton.2 hgap,
    List.forall_mem_singleton.2 h.placed⟩

/-- The range of a token that was read from some symbols is not empty. -/
theorem Lies.range {bytes : List UInt8} {behind : Text} (h : Lies bytes before t behind)
    (hlexeme : t.lexeme ≠ []) : t.position.offset < t.stop.offset := by
  obtain ⟨s, rest, hcons⟩ := List.exists_cons_of_ne_nil hlexeme
  have hlength := congrArg List.length h.lexeme
  rw [hcons, Symbol.encode_cons, List.length_append, Symbol.length_bytes,
    List.extract_eq_take_drop, List.length_take] at hlength
  have := Symbol.width_pos s
  omega

/-- **Tokens tile the text that they are read from**, and are spelled by their ranges. -/
theorem tiling_of_tokensFrom {ts : List Token} (hl : Legible (before ++ text))
    (h : tokensFrom (Position.start.after before) text = .ok ts) :
    Tiling (encode (before ++ text)) (encode before).length ts ∧
      ∀ t ∈ ts, t.word.SpelledBy
        ((encode (before ++ text)).extract t.position.offset t.stop.offset) := by
  induction ts generalizing before text with
  | nil =>
    obtain ⟨-, init, last, heq, -⟩ := tokensFrom_append h
    exact absurd heq.symm (List.append_ne_nil_of_right_ne_nil _ (List.cons_ne_nil _ _))
  | cons t later ih =>
    have hlies := lies_of_tokensFrom hl h
    have htext := text_of_tokensFrom h
    rcases tokensFrom_cases h with ⟨t', heq, hend, hwhole, hread⟩ |
      ⟨t', later', s, rest, n, heq, hread, hword, hlexeme, hlater⟩
    · obtain ⟨rfl, rfl⟩ := List.cons.inj heq
      have hempty : t.lexeme = [] := by
        rw [← gap_append hread] at hwhole
        exact List.append_cancel_left hwhole
      have hbytes : t.position.offset = (encode (before ++ text)).length := by
        rw [position_of_tokensFrom h, ← Position.after_append, offset_after_start, ← hwhole, hempty,
          List.append_nil]
      refine ⟨hlies.tiling_last hend hempty hbytes (hlies.between htext hread), ?_⟩
      rw [List.forall_mem_singleton, hlies.lexeme, hempty, hend]
      exact spelledBy_of_verbatim Symbol.decode_nil nofun nofun nofun
    · obtain ⟨rfl, rfl⟩ := List.cons.inj heq
      obtain ⟨m, rfl⟩ : ∃ m, n = m + 1 := ⟨n - 1, by have := word_pos hword; omega⟩
      have hrest : (s :: rest).drop (m + 1) = written later := (tokensFrom_append hlater).1.symm
      have hlater' : tokensFrom (Position.start.after (before ++ t.gap ++ t.lexeme))
          (written later) = .ok later := by
        rw [← hrest, ← hlater, Position.after_append, Position.after_append]
      have hagain : before ++ t.gap ++ t.lexeme ++ written later = before ++ text := by
        rw [htext, List.append_assoc, List.append_assoc]
      obtain ⟨htiling, hspelled⟩ := ih (hagain ▸ hl) hlater'
      rw [hagain, ← offset_after_start, ← hlies.stop] at htiling
      rw [hagain] at hspelled
      have hne : t.lexeme ≠ [] := by
        rw [hlexeme]
        exact List.cons_ne_nil _ _
      refine ⟨.cons (word_le hword).2 (hlies.range hne) (hlies.between htext hread) hlies.placed
        htiling, List.forall_mem_cons.2 ⟨?_, hspelled⟩⟩
      rw [htext] at hl
      rw [hlies.lexeme, hlexeme]
      exact word_spelledBy hword (hlexeme ▸ hl.of_append.2.of_append.2.of_append.1)

end

/-- **The tokens of an input tile it.** -/
theorem tokens_tile {bytes : List UInt8} {ts : List Token} (h : tokens (decode bytes) = .ok ts) :
    Tiling bytes 0 ts ∧
      ∀ t ∈ ts, t.word.SpelledBy (bytes.extract t.position.offset t.stop.offset) := by
  have hlegible : Legible ([] ++ decode bytes) := Symbol.legible_decode bytes
  have hall := tiling_of_tokensFrom hlegible h
  rwa [List.nil_append, Symbol.encode_decode] at hall

/-- The bytes of `λ(*⏎*)1`. -/
theorem tokens_tile_lambda :
    let input : List UInt8 := [0xCE, 0xBB, 0x28, 0x2A, 0x0A, 0x2A, 0x29, 0x31]
    let sign : Token := ⟨.ident "fun", [], [.char 'λ'], ⟨0, 1, 1⟩⟩
    let gap : Text := [.char '(', .char '*', .char '\n', .char '*', .char ')']
    let one : Token := ⟨.integer "1", gap, [.char '1'], ⟨7, 2, 3⟩⟩
    let last : Token := ⟨.endOfInput, [], [], ⟨8, 2, 4⟩⟩
    tokens (decode input) = .ok [sign, one, last] ∧ Tiling input 0 [sign, one, last] ∧
      ∀ t ∈ [sign, one, last],
        t.word.SpelledBy (input.extract t.position.offset t.stop.offset) := by
  intro input sign gap one last
  have h : tokens (decode input) = .ok [sign, one, last] := by decide +kernel
  exact ⟨h, tokens_tile h⟩

/-- The text of an identifier need not be what it was read from: the sign `λ` reads as `fun`. -/
theorem tokens_not_verbatim :
    ¬ ∀ (bytes : List UInt8) (ts : List Token), tokens (decode bytes) = .ok ts →
      Tiling bytes 0 ts ∧
        ∀ t ∈ ts, t.word.Verbatim (bytes.extract t.position.offset t.stop.offset) := by
  intro h
  have hread : tokens (decode [0xCE, 0xBB]) = .ok
      [⟨.ident "fun", [], [.char 'λ'], ⟨0, 1, 1⟩⟩, ⟨.endOfInput, [], [], ⟨2, 1, 2⟩⟩] := by
    decide +kernel
  have hbytes := (h _ _ hread).2 _ (List.mem_cons_self ..) "fun" rfl
  revert hbytes
  decide

end Lexer
end ProofKernel
