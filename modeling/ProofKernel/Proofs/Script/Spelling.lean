import ProofKernel.Proofs.Script.Legible
import ProofKernel.Proofs.Script.Tokens
import ProofKernel.Text.Composed

/-!
# Spelling words

Texts put together so that they are read as given words: no word runs into the next one, and nothing
is taken for a comment.

* `Lexer.Spells` is a text that is read as a list of words.  There is a lemma for each kind of word
  in front of such a text: `Lexer.Spells.ident`, `Lexer.Spells.integer`, `Lexer.Spells.string` and
  those for signs.
* `Lexer.Breaks` is what may follow a name or a number for it to end there.
* `Lexer.forall_ascii` checks a property of characters one by one.
-/

set_option autoImplicit false
namespace ProofKernel
namespace Lexer

/-! ## Characters -/

/-- A property of the characters of ASCII can be checked one by one. -/
theorem forall_ascii {p : Char → Bool} (h : ∀ n < 128, p (Char.ofNat n) = true) {c : Char}
    (hc : c.toNat < 128) : p c = true := by
  have := h c.toNat hc
  rwa [Char.ofNat_toNat] at this

theorem lt_of_isAlphanum {c : Char} (h : c.isAlphanum = true) : c.toNat < 128 := by
  change (decide ('A'.val ≤ c.val ∧ c.val ≤ 'Z'.val) ||
    (decide ('a'.val ≤ c.val) && decide (c.val ≤ 'z'.val)) ||
    (decide ('0'.val ≤ c.val) && decide (c.val ≤ '9'.val))) = true at h
  simp only [Bool.or_eq_true, Bool.and_eq_true, decide_eq_true_eq, UInt32.le_iff_toNat_le] at h
  have hval : c.toNat = c.val.toNat := rfl
  have hZ : 'Z'.val.toNat = 90 := rfl
  have hz : 'z'.val.toNat = 122 := rfl
  have h9 : '9'.val.toNat = 57 := rfl
  omega

/-- A symbol that begins a word, whatever stands before and after it. -/
def opens (s : Symbol) : Bool :=
  Composed.isPlain s && !s.holds isBlank && !s.is '(' && !s.is '-' && !s.is '*'

theorem isPlain_of_opens {s : Symbol} (h : opens s = true) : Composed.isPlain s = true := by
  simp only [opens, Bool.and_eq_true] at h
  exact h.1.1.1.1

theorem ne_star_of_opens {s : Symbol} (h : opens s = true) : s ≠ .char '*' := by
  rintro rfl
  cases h

theorem gap_of_opens {s : Symbol} (h : opens s = true) (rest : Text) :
    gap (s :: rest) = .ok ([], s :: rest) := by
  refine gap_cons_iff.2 ⟨?_, ?_, ?_⟩
  · simp only [opens, Bool.and_eq_true, Bool.not_eq_true'] at h
    exact h.1.1.1.2
  · rintro rfl
    cases h
  · rintro rfl
    cases h

/-- The characters of ASCII that stand in identifiers and numbers. -/
theorem ascii_classes {c : Char} (hc : c.toNat < 128) :
    ((c.isAlpha || c == '_') = true → opens (.char c) = true ∧ startsName c = true) ∧
    ((c.isAlphanum || c == '_' || c == '\'') = true →
      Composed.isPlain (.char c) = true ∧ continuesName c = true) ∧
    (c.isDigit = true → opens (.char c) = true ∧ startsName c = false) :=
  of_decide_eq_true (forall_ascii (p := fun c => decide
    (((c.isAlpha || c == '_') = true → opens (.char c) = true ∧ startsName c = true) ∧
    ((c.isAlphanum || c == '_' || c == '\'') = true →
      Composed.isPlain (.char c) = true ∧ continuesName c = true) ∧
    (c.isDigit = true → opens (.char c) = true ∧ startsName c = false))) (by decide +kernel) hc)

/-- The first character of an identifier. -/
theorem opens_of_isAlpha {c : Char} (h : (c.isAlpha || c == '_') = true) :
    opens (.char c) = true ∧ startsName c = true := by
  have hc : c.toNat < 128 := by
    rw [Bool.or_eq_true, beq_iff_eq] at h
    rcases h with h | rfl
    · exact lt_of_isAlphanum (by simp [Char.isAlphanum, h])
    · decide
  exact (ascii_classes hc).1 h

/-- A later character of an identifier. -/
theorem continuesName_of_isAlphanum {c : Char}
    (h : (c.isAlphanum || c == '_' || c == '\'') = true) :
    Composed.isPlain (.char c) = true ∧ continuesName c = true := by
  have hc : c.toNat < 128 := by
    rw [Bool.or_eq_true, Bool.or_eq_true, beq_iff_eq, beq_iff_eq] at h
    rcases h with (h | rfl) | rfl
    · exact lt_of_isAlphanum h
    · decide
    · decide
  exact (ascii_classes hc).2.1 h

theorem opens_of_isDigit {c : Char} (h : c.isDigit = true) :
    opens (.char c) = true ∧ startsName c = false :=
  (ascii_classes (lt_of_isAlphanum (by simp [Char.isAlphanum, h]))).2.2 h

/-! ## Texts and their words -/

/-- A text that is read as these words.  It is its own composed form, and it opens no comment after
a parenthesis. -/
structure Spells (text : Text) (words : List Word) : Prop where
  plain : text.all Composed.isPlain = true
  star : text.head? ≠ some (.char '*')
  tokens : ∀ place, ∃ ts, tokensFrom place text = .ok ts ∧ ts.map Token.word = words

/-- What may follow a name or a number for it to end there: nothing, a blank, a sign that is part
of neither, or a period with nothing behind it. -/
inductive Breaks : Text → Prop
  | nil : Breaks []
  | blank (rest : Text) : Breaks (.char ' ' :: rest)
  | close (rest : Text) : Breaks (.char ')' :: rest)
  | comma (rest : Text) : Breaks (.char ',' :: rest)
  | period : Breaks [.char '.']

variable {rest : Text} {words : List Word}

namespace Spells

theorem nil : Spells [] [.endOfInput] where
  plain := rfl
  star := by simp
  tokens := tokensFrom_nil

/-- A blank separates words and is none. -/
theorem blank (h : Spells rest words) : Spells (.char ' ' :: rest) words where
  plain := by simpa [Composed.isPlain] using h.plain
  star := by simp
  tokens := by
    intro place
    obtain ⟨ts, hts, hwords⟩ := h.tokens (place.after [.char ' '])
    have hgap : gap (.char ' ' :: rest) = (gap rest).after [.char ' '] := by
      rw [gap, if_pos (by decide)]
      · exact fun _ => by simp
      · exact fun _ => by simp
    rcases tokensFrom_cases hts with ⟨t, rfl, hend, _, hrest⟩ |
      ⟨t, later, s, tail, n, rfl, hrest, hword, hlexeme, hlater⟩
    · rw [hrest] at hgap
      rw [List.map_singleton, hend] at hwords
      exact ⟨_, tokensFrom_end hgap, hwords⟩
    · rw [hrest] at hgap
      refine ⟨⟨t.word, .char ' ' :: t.gap, t.lexeme, place.after (.char ' ' :: t.gap)⟩ :: later,
        ?_, hwords⟩
      rw [tokensFrom_word hgap hword, ← hlexeme]
      exact congrArg (Except.map _) hlater

/-- A word in front of a text. -/
theorem word {s : Symbol} (tail : Text) {w : Word}
    (hplain : (s :: tail).all Composed.isPlain = true) (hstar : s ≠ .char '*')
    (hgap : gap (s :: (tail ++ rest)) = .ok ([], s :: (tail ++ rest)))
    (hword : Lexer.word s (tail ++ rest) = .ok (w, tail.length + 1)) (h : Spells rest words) :
    Spells (s :: (tail ++ rest)) (w :: words) where
  plain := by
    rw [← List.cons_append, List.all_append, hplain, h.plain]
    rfl
  star := by simpa using hstar
  tokens := by
    intro place
    obtain ⟨ts, hts, hwords⟩ := h.tokens (place.after (s :: tail))
    have htake : (s :: (tail ++ rest)).take (tail.length + 1) = s :: tail := by simp
    have hdrop : (s :: (tail ++ rest)).drop (tail.length + 1) = rest := by simp
    refine ⟨⟨w, [], s :: tail, place⟩ :: ts, ?_, by rw [List.map_cons, hwords]⟩
    rw [tokensFrom_word hgap hword, htake, hdrop]
    exact congrArg (Except.map _) hts

/-- A word of signs that opens with one. -/
theorem sign {s : Symbol} (tail : Text) {w : Word} (hopens : opens s = true)
    (hplain : tail.all Composed.isPlain = true)
    (hword : Lexer.word s (tail ++ rest) = .ok (w, tail.length + 1)) (h : Spells rest words) :
    Spells (s :: (tail ++ rest)) (w :: words) := by
  refine h.word tail ?_ (ne_star_of_opens hopens) (gap_of_opens hopens _) hword
  rw [List.all_cons, isPlain_of_opens hopens, hplain]
  rfl

theorem openParen (h : Spells rest words) : Spells (.char '(' :: rest) (.openParen :: words) :=
  h.word [] (by decide) (by decide) (gap_cons_iff.2 ⟨by decide, fun _ => h.star, by simp⟩) rfl

theorem closeParen (h : Spells rest words) : Spells (.char ')' :: rest) (.closeParen :: words) :=
  h.sign [] (by decide) rfl rfl

theorem comma (h : Spells rest words) : Spells (.char ',' :: rest) (.comma :: words) :=
  h.sign [] (by decide) rfl rfl

theorem dot (h : Spells rest words) : Spells (.char '.' :: rest) (.dot :: words) :=
  h.sign [] (by decide) rfl rfl

theorem bar (h : Spells rest words) : Spells (.char '|' :: rest) (.bar :: words) :=
  h.sign [] (by decide) rfl rfl

theorem colon (h : Spells (.char ' ' :: rest) words) :
    Spells (.char ':' :: .char ' ' :: rest) (.colon :: words) :=
  h.sign [] (by decide) rfl rfl

theorem assign (h : Spells rest words) :
    Spells (.char ':' :: .char '=' :: rest) (.assign :: words) :=
  h.sign [.char '='] (by decide) rfl rfl

theorem doubleArrow (h : Spells rest words) :
    Spells (.char '=' :: .char '>' :: rest) (.doubleArrow :: words) :=
  h.sign [.char '>'] (by decide) rfl rfl

theorem arrow (h : Spells rest words) :
    Spells (.char '-' :: .char '>' :: rest) (.arrow :: words) :=
  h.word [.char '>'] (by decide) (by decide)
    (gap_cons_iff.2 ⟨by decide, by simp, fun _ => by simp⟩) rfl

end Spells

/-! ## Names -/

theorem all_map_char {p : Symbol → Bool} {chars : List Char} :
    (chars.map Symbol.char).all p = chars.all fun c => p (.char c) := by
  rw [List.all_map]
  rfl

theorem toString_map_char (chars : List Char) :
    Text.toString (chars.map Symbol.char) = String.ofList chars := by
  simp [Text.toString, Function.comp_def, Symbol.shown]

/-- A run of characters of one kind, up to where the kind changes. -/
theorem takeWhile_run {p : Symbol → Bool} {chars : List Char} (hchars : ∀ c ∈ chars, p (.char c))
    (hrest : rest.takeWhile p = []) :
    (chars.map Symbol.char ++ rest).takeWhile p = chars.map Symbol.char := by
  rw [List.takeWhile_append_of_pos (List.forall_mem_map.2 hchars), hrest, List.append_nil]

/-- **An identifier is read as a name.** -/
theorem Spells.ident {x : String} (hx : isIdentifier x = true) (hbreak : Breaks rest)
    (h : Spells rest words) : Spells (Text.ofString x ++ rest) (.ident x :: words) := by
  unfold isIdentifier at hx
  split at hx
  · cases hx
  · next c tail hchars =>
    obtain ⟨hc, htail⟩ := Bool.and_eq_true_iff.1 hx
    obtain ⟨hopens, hstarts⟩ := opens_of_isAlpha hc
    have hcontinues : ∀ d ∈ tail, Composed.isPlain (.char d) = true ∧ continuesName d = true :=
      fun d hd => continuesName_of_isAlphanum (List.all_eq_true.1 htail d hd)
    have hrun : (tail.map Symbol.char ++ rest).takeWhile (Symbol.holds continuesName) =
        tail.map Symbol.char :=
      takeWhile_run (fun d hd => (hcontinues d hd).2) (by cases hbreak <;> rfl)
    have htext : Text.ofString x = .char c :: tail.map Symbol.char := by
      rw [Text.ofString, hchars, List.map_cons]
    rw [htext, List.cons_append]
    refine h.sign _ hopens ?_ ?_
    · rw [all_map_char, List.all_eq_true]
      exact fun d hd => (hcontinues d hd).1
    · have hword : Lexer.word (.char c) (tail.map Symbol.char ++ rest) =
          .ok (.ident (Text.toString ((c :: tail).map Symbol.char)),
            (tail.map Symbol.char).length + 1) := by
        rw [Lexer.word, hrun]
        exact if_pos hstarts
      rw [hword, toString_map_char, ← hchars, String.ofList_toList]

/-! ## Numbers -/

/-- How a whole number is written: a sign if it is negative, and its digits. -/
theorem toList_int (i : Int) :
    (toString i).toList = (if i < 0 then ['-'] else []) ++ Nat.toDigits 10 i.natAbs := by
  rw [Int.toString_eq_repr, Int.repr_eq_if]
  by_cases hi : i < 0
  · have habs : (-i).toNat = i.natAbs := by omega
    rw [if_neg (by omega), if_pos hi, String.toList_append, Nat.toList_repr, habs]
    rfl
  · have habs : i.toNat = i.natAbs := by omega
    rw [if_pos (by omega), if_neg hi, Nat.toList_repr, habs]
    rfl

theorem isDigit_of_mem_digits {n : Nat} : ∀ c ∈ Nat.toDigits 10 n, c.isDigit = true :=
  fun _ hc => Nat.isDigit_of_mem_toDigits (by decide) (by decide) hc

theorem exponent_of_not_mark {s : Symbol} (h : isExponentMark s = false) (rest : Text) :
    exponent (s :: rest) = [] := by
  cases rest with
  | nil => rfl
  | cons d rest => simp [exponent, h]

/-- Digits are a number of their own if no other digit, fraction or exponent follows. -/
theorem unsigned_digits {digits : List Char} (hdigits : ∀ c ∈ digits, c.isDigit = true)
    (hbreak : Breaks rest) :
    unsigned (digits.map Symbol.char ++ rest) = digits.map Symbol.char := by
  have hrun : (digits.map Symbol.char ++ rest).takeWhile isNumeral = digits.map Symbol.char :=
    takeWhile_run hdigits (by cases hbreak <;> rfl)
  have hfraction : fraction rest = [] := by cases hbreak <;> simp [fraction]
  have hexponent : exponent rest = [] := by
    cases hbreak with
    | nil => rfl
    | blank | close | comma | period => exact exponent_of_not_mark (by decide) _
  rw [unsigned, hrun]
  simp [hfraction, hexponent]

/-- Digits, with or without a sign, are a whole number. -/
theorem numberWord_digits {chars : List Char}
    (h : ∀ c ∈ chars, (c.isDigit || c == '-') = true) :
    numberWord (chars.map Symbol.char) = .integer (String.ofList chars) := by
  rw [numberWord, toString_map_char, all_map_char]
  exact if_pos (List.all_eq_true.2 h)

theorem word_number {s : Symbol} {tail : Text} (hname : s.holds startsName = false)
    (hlength : numberLength (s :: (tail ++ rest)) = tail.length + 1) :
    word s (tail ++ rest) = .ok (numberWord (s :: tail), tail.length + 1) := by
  have htake : (s :: (tail ++ rest)).take (tail.length + 1) = s :: tail := by simp
  rw [word, if_neg (by rw [hname]; exact Bool.false_ne_true), hlength, if_pos (Nat.succ_ne_zero _),
    htake]

/-- **A whole number is read as one.** -/
theorem Spells.integer (i : Int) (hbreak : Breaks rest) (h : Spells rest words) :
    Spells (Text.ofString (toString i) ++ rest) (.integer (toString i) :: words) := by
  have hdigits := @isDigit_of_mem_digits i.natAbs
  have hunsigned := unsigned_digits hdigits hbreak
  have hofList : toString i = String.ofList (toString i).toList := String.ofList_toList.symm
  obtain ⟨d, digits, hd⟩ := List.exists_cons_of_ne_nil (Nat.toDigits_ne_nil (n := i.natAbs))
  rw [hd] at hdigits hunsigned
  obtain ⟨hopens, hname⟩ := opens_of_isDigit (hdigits d List.mem_cons_self)
  have hnumeral : isNumeral (.char d) = true := hdigits d List.mem_cons_self
  have hplain : ∀ {chars}, chars ⊆ d :: digits →
      (chars.map Symbol.char).all Composed.isPlain = true := by
    intro chars hsub
    rw [all_map_char, List.all_eq_true]
    exact fun c hc => isPlain_of_opens (opens_of_isDigit (hdigits c (hsub hc))).1
  have hminus : ∀ c ∈ d :: digits, (c.isDigit || c == '-') = true :=
    fun c hc => by rw [hdigits c hc, Bool.true_or]
  rw [List.map_cons, List.cons_append] at hunsigned
  rw [hofList, toList_int, hd, Text.ofString, String.toList_ofList]
  by_cases hi : i < 0
  · rw [if_pos hi, List.singleton_append, List.map_cons, List.cons_append,
      ← numberWord_digits (List.forall_mem_cons.2 ⟨rfl, hminus⟩)]
    refine h.word _ (by rw [List.all_cons, hplain (List.Subset.refl _)]; rfl) (by decide)
      (gap_cons_iff.2 ⟨by decide, by simp, fun _ hhead => ?_⟩) (word_number (by decide) ?_)
    · simp only [List.map_cons, List.cons_append, List.head?_cons, Option.some.injEq] at hhead
      rw [hhead] at hopens
      cases hopens
    · rw [List.map_cons, List.cons_append, numberLength_minus, if_pos hnumeral, hunsigned]
  · have hsign : Symbol.char d ≠ .char '-' := by
      rintro heq
      rw [heq] at hopens
      cases hopens
    rw [if_neg hi, List.nil_append, List.map_cons, List.cons_append,
      ← numberWord_digits hminus]
    refine h.sign _ hopens (hplain (List.subset_cons_self _ _)) (word_number hname ?_)
    rw [numberLength_other hsign, if_pos hnumeral, hunsigned]
    rfl

/-! ## Texts between quotes -/

/-- Between quotes, a legible character is written by itself or behind a backslash. -/
theorem escape_cases {c : Char} (h : isLegibleChar c = true) :
    (Quoted.escape '"' c = [c] ∧ c ≠ '"' ∧ c ≠ '\\' ∧ Composed.isPlain (.char c) = true) ∨
      ∃ d, Quoted.escape '"' c = ['\\', d] ∧ unescape (.char d) = c ∧
        Composed.isPlain (.char d) = true := by
  by_cases hmark : c = '"' ∨ c = '\\'
  · rcases hmark with rfl | rfl
    · exact .inr ⟨'"', by decide⟩
    · exact .inr ⟨'\\', by decide⟩
  rw [not_or] at hmark
  simp only [isLegibleChar, Bool.or_eq_true, beq_iff_eq, Bool.and_eq_true, decide_eq_true_eq] at h
  rcases h with (rfl | rfl) | hprints
  · exact .inr ⟨'n', by decide⟩
  · exact .inr ⟨'t', by decide⟩
  · have hall := forall_ascii (p := fun c => !(0x20 ≤ c.toNat && c.toNat < 0x7F) ||
      (isPrintable c && Composed.isPlain (.char c))) (by decide +kernel) (by omega : c.toNat < 128)
    have hprintable : isPrintable c = true ∧ Composed.isPlain (.char c) = true := by
      simpa [hprints] using hall
    refine .inl ⟨?_, hmark.1, hmark.2, hprintable.2⟩
    rw [Quoted.escape, if_neg (by simpa using hmark), if_pos hprintable.1]

/-- What stands between quotes is read as the text that was put there. -/
theorem stringBody_escape {chars : List Char} (h : ∀ c ∈ chars, isLegibleChar c = true)
    (rest : Text) :
    stringBody ((chars.flatMap (Quoted.escape '"')).map Symbol.char ++ .char '"' :: rest) =
      some (chars, (chars.flatMap (Quoted.escape '"')).map Symbol.char ++ [.char '"'], rest) := by
  induction chars with
  | nil => rfl
  | cons c chars ih =>
    obtain ⟨hc, hchars⟩ := List.forall_mem_cons.1 h
    rw [List.flatMap_cons, List.map_append, List.append_assoc]
    rcases escape_cases hc with ⟨hself, hquote, hslash, _⟩ | ⟨d, hescape, hback, _⟩
    · rw [hself]
      have hbody := stringBody_other (s := .char c) (by simpa using hquote) (by simpa using hslash)
        ((chars.flatMap (Quoted.escape '"')).map Symbol.char ++ .char '"' :: rest)
      rw [ih hchars] at hbody
      exact hbody
    · rw [hescape]
      simp [stringBody, ih hchars, hback]

theorem word_string {text body after : Text} {value : List Char}
    (h : stringBody text = some (value, body, after)) :
    word (.char '"') text = .ok (.string (String.ofList value), body.length + 1) := by
  have hnumber : numberLength (.char '"' :: text) = 0 := by
    rw [numberLength_other (by decide), if_neg (by decide)]
  rw [word, if_neg (by decide), hnumber, if_neg (by decide), if_pos (by decide), h]

/-- **A text between quotes is read as that text.** -/
theorem Spells.string {value : String} (hvalue : ∀ c ∈ value.toList, isLegibleChar c = true)
    (h : Spells rest words) :
    Spells (Text.ofString (quote value) ++ rest) (.string value :: words) := by
  have htext : Text.ofString (quote value) ++ rest = .char '"' ::
      ((value.toList.flatMap (Quoted.escape '"')).map Symbol.char ++ [.char '"'] ++ rest) := by
    simp [Text.ofString, quote]
  rw [htext]
  refine h.sign _ (by decide) ?_ ?_
  · rw [List.all_append, all_map_char, Bool.and_eq_true]
    refine ⟨List.all_eq_true.2 fun d hd => ?_, by decide⟩
    obtain ⟨c, hc, hd⟩ := List.mem_flatMap.1 hd
    rcases escape_cases (hvalue c hc) with ⟨hself, _, _, hplain⟩ | ⟨e, hescape, _, hplain⟩
    · rw [hself, List.mem_singleton] at hd
      exact hd ▸ hplain
    · rw [hescape] at hd
      simp only [List.mem_cons, List.not_mem_nil, or_false] at hd
      rcases hd with rfl | rfl
      · decide
      · exact hplain
  · rw [List.append_assoc, List.singleton_append, word_string (stringBody_escape hvalue rest),
      String.ofList_toList]

end Lexer
end ProofKernel
