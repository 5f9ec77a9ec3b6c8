import ProofKernel.Script.Token
import ProofKernel.Text.Class
import ProofKernel.Text.Letter

/-!
# Reading tokens

A script is read as a sequence of tokens and the gaps between them.

* `Lexer.gap` reads white space, nested `(* … *)` comments and `--` comments.
* `Lexer.word` reads one word.
* `Lexer.tokens` reads a whole text; its last token is the end of input.

A gap and what follows it make up the text they were read from (`Lexer.gap_append`), and every word
takes up some of it (`Lexer.word_pos`), so reading ends.
-/

set_option autoImplicit false
namespace ProofKernel
namespace Lexer

/-! ## Characters -/

/-- A letter of an identifier.  The lambda sign is a word of its own. -/
def isLetterOfName (c : Char) : Bool :=
  isLetter c && c != 'λ'

/-- The first character of an identifier. -/
def startsName (c : Char) : Bool :=
  c == '_' || isLetterOfName c

/-- A later character of an identifier. -/
def continuesName (c : Char) : Bool :=
  c == '_' || c == '\'' || isLetterOfName c || isDecimalDigit c

/-- A digit of a number. -/
def isNumeral (s : Symbol) : Bool :=
  s.holds Char.isDigit

/-! ## Gaps -/

/-- The rest of a block comment and what follows it.  `depth` counts the comments still open below
the outermost one. -/
def blockComment (depth : Nat) : Text → Option (Text × Text)
  | [] => none
  | .char '(' :: .char '*' :: rest =>
    (blockComment (depth + 1) rest).map fun (body, after) =>
      (.char '(' :: .char '*' :: body, after)
  | .char '*' :: .char ')' :: rest =>
    match depth with
    | 0 => some ([.char '*', .char ')'], rest)
    | depth + 1 =>
      (blockComment depth rest).map fun (body, after) => (.char '*' :: .char ')' :: body, after)
  | s :: rest => (blockComment depth rest).map fun (body, after) => (s :: body, after)

theorem blockComment_append {depth : Nat} {text body after : Text}
    (h : blockComment depth text = some (body, after)) : body ++ after = text := by
  fun_induction blockComment depth text generalizing body after with
  | case1 => simp at h
  | case2 depth rest ih =>
    obtain ⟨⟨b, a⟩, hb, he⟩ := Option.map_eq_some_iff.1 h
    cases he
    simp [ih hb]
  | case3 rest => cases h; rfl
  | case4 rest depth ih =>
    obtain ⟨⟨b, a⟩, hb, he⟩ := Option.map_eq_some_iff.1 h
    cases he
    simp [ih hb]
  | case5 depth s rest _ _ ih =>
    obtain ⟨⟨b, a⟩, hb, he⟩ := Option.map_eq_some_iff.1 h
    cases he
    simp [ih hb]

/-- A gap, or the part of it before a comment that is never closed. -/
abbrev GapResult : Type := Except Text (Text × Text)

/-- The result with a piece of text before it. -/
def GapResult.after (piece : Text) : GapResult → GapResult
  | .ok (gap, rest) => .ok (piece ++ gap, rest)
  | .error gap => .error (piece ++ gap)

/-- A comment up to the end of its line. -/
def notNewline (s : Symbol) : Bool :=
  !s.is '\n'

/-- The longest gap at the start of a text, and what follows it. -/
def gap (text : Text) : GapResult :=
  match text with
  | [] => .ok ([], [])
  | .char '(' :: .char '*' :: rest =>
    match _h : blockComment 0 rest with
    | none => .error []
    | some (body, after) => (gap after).after (.char '(' :: .char '*' :: body)
  | .char '-' :: .char '-' :: rest =>
    (gap (rest.dropWhile notNewline)).after (.char '-' :: .char '-' :: rest.takeWhile notNewline)
  | s :: rest => if s.holds isBlank then (gap rest).after [s] else .ok ([], s :: rest)
termination_by text.length
decreasing_by
  · have := congrArg List.length (blockComment_append _h)
    simp only [List.length_append] at this
    simp only [List.length_cons]
    omega
  · have := (List.dropWhile_suffix notNewline (l := rest)).length_le
    simp only [List.length_cons]
    omega
  · simp

theorem GapResult.after_eq_ok {piece : Text} {r : GapResult} {g rest : Text}
    (h : r.after piece = .ok (g, rest)) : ∃ g', r = .ok (g', rest) ∧ g = piece ++ g' := by
  cases r with
  | error e => simp [GapResult.after] at h
  | ok p =>
    obtain ⟨g', rest'⟩ := p
    simp only [GapResult.after, Except.ok.injEq, Prod.mk.injEq] at h
    exact ⟨g', by rw [h.2], h.1.symm⟩

theorem gap_append {text g rest : Text} (h : gap text = .ok (g, rest)) : g ++ rest = text := by
  fun_induction gap text generalizing g rest with
  | case1 => cases h; rfl
  | case2 => simp at h
  | case3 tail body after hb ih =>
    obtain ⟨g', hg, rfl⟩ := GapResult.after_eq_ok h
    have := ih hg
    simp [List.append_assoc, this, blockComment_append hb]
  | case4 tail ih =>
    obtain ⟨g', hg, rfl⟩ := GapResult.after_eq_ok h
    have := ih hg
    simp [List.append_assoc, this]
  | case5 s tail _ _ hs ih =>
    obtain ⟨g', hg, rfl⟩ := GapResult.after_eq_ok h
    simp [ih hg]
  | case6 => cases h; rfl

/-! ## Words -/

/-- The point and the digits of a fraction. -/
def fraction : Text → Text
  | .char '.' :: d :: rest =>
    if isNumeral d then .char '.' :: d :: rest.takeWhile isNumeral else []
  | _ => []

/-- Whether a symbol opens an exponent. -/
def isExponentMark (s : Symbol) : Bool :=
  s.is 'e' || s.is 'E'

/-- The mark, the sign and the digits of an exponent. -/
def exponent : Text → Text
  | e :: d :: rest =>
    if isExponentMark e then
      if isNumeral d then e :: d :: rest.takeWhile isNumeral
      else if d.is '+' || d.is '-' then
        match rest.takeWhile isNumeral with
        | [] => []
        | digits => e :: d :: digits
      else []
    else []
  | _ => []

/-- The text of a number without a sign. -/
def unsigned (text : Text) : Text :=
  let whole := text.takeWhile isNumeral
  let part := fraction (text.drop whole.length)
  let power := exponent (text.drop (whole.length + part.length))
  whole ++ part ++ power

/-- The word a number is: whole, unless it has a fraction or an exponent. -/
def numberWord (lexeme : Text) : Word :=
  let digits := Text.toString lexeme
  if lexeme.all fun s => isNumeral s || s.is '-' then .integer digits else .float digits

/-- The character after a backslash stands for itself, but for `n` and `t`. -/
def unescape (s : Symbol) : Char :=
  if s.is 'n' then '\n' else if s.is 't' then '\t' else s.shown

/-- What follows an opening quote: the characters of the string, the text up to its closing quote
and the text after. -/
def stringBody : Text → Option (List Char × Text × Text)
  | [] => none
  | .char '"' :: rest => some ([], [.char '"'], rest)
  | .char '\\' :: s :: rest =>
    (stringBody rest).map fun (value, body, after) =>
      (unescape s :: value, .char '\\' :: s :: body, after)
  | .char '\\' :: [] => none
  | s :: rest =>
    (stringBody rest).map fun (value, body, after) => (s.shown :: value, s :: body, after)

/-- The words of one or two signs at the start of a text, with their length. -/
def signs : Text → Option (Word × Nat)
  | .char '(' :: _ => some (.openParen, 1)
  | .char ')' :: _ => some (.closeParen, 1)
  | .char ',' :: _ => some (.comma, 1)
  | .char '.' :: _ => some (.dot, 1)
  | .char '|' :: _ => some (.bar, 1)
  | .char ':' :: .char '=' :: _ => some (.assign, 2)
  | .char ':' :: _ => some (.colon, 1)
  | .char '=' :: .char '>' :: _ => some (.doubleArrow, 2)
  | .char '-' :: .char '>' :: _ => some (.arrow, 2)
  | .char '→' :: _ => some (.arrow, 1)
  | .char '⇒' :: _ => some (.doubleArrow, 1)
  | .char 'λ' :: _ => some (.ident "fun", 1)
  | .char '∀' :: _ => some (.ident "forall", 1)
  | _ => none

/-- The length of the number at the start of a text, sign included; zero if there is none. -/
def numberLength : Text → Nat
  | .char '-' :: d :: rest => if isNumeral d then (unsigned (d :: rest)).length + 1 else 0
  | s :: rest => if isNumeral s then (unsigned (s :: rest)).length else 0
  | [] => 0

/-- A word and the number of symbols it takes up. -/
def word (s : Symbol) (rest : Text) : Except Flaw (Word × Nat) :=
  let text := s :: rest
  if s.holds startsName then
    let name := s :: rest.takeWhile (Symbol.holds continuesName)
    .ok (.ident (Text.toString name), name.length)
  else if numberLength text ≠ 0 then
    .ok (numberWord (text.take (numberLength text)), numberLength text)
  else if s.is '"' then
    match stringBody rest with
    | some (value, body, _) => .ok (.string (String.ofList value), body.length + 1)
    | none => .error .openString
  else
    match signs text with
    | some (w, n) => .ok (w, n)
    | none => .error (.character s.shown)

theorem signs_pos {text : Text} {w : Word} {n : Nat} (h : signs text = some (w, n)) : 0 < n := by
  unfold signs at h
  split at h <;> cases h <;> decide

theorem word_pos {s : Symbol} {rest : Text} {w : Word} {n : Nat} (h : word s rest = .ok (w, n)) :
    0 < n := by
  unfold word at h
  dsimp only at h
  split at h
  · cases h; simp
  · split at h
    · next hn => cases h; omega
    · split at h
      · split at h
        · cases h; omega
        · cases h
      · split at h
        · next hs => cases h; exact signs_pos hs
        · cases h

/-! ## Tokens -/

/-- The tokens of a text that starts at `place`. -/
def tokensFrom (place : Position) (text : Text) : Except Fault (List Token) :=
  match _hg : gap text with
  | .error before => .error ⟨place.after before, .openComment⟩
  | .ok (before, []) => .ok [⟨.endOfInput, before, [], place.after before⟩]
  | .ok (before, s :: rest) =>
    match _hw : word s rest with
    | .error flaw => .error ⟨place.after before, flaw⟩
    | .ok (w, n) => do
      let lexeme := (s :: rest).take n
      let here := place.after before
      let later ← tokensFrom (here.after lexeme) ((s :: rest).drop n)
      return ⟨w, before, lexeme, here⟩ :: later
termination_by text.length
decreasing_by
  have hlen := congrArg List.length (gap_append _hg)
  have hpos := word_pos _hw
  simp only [List.length_append, List.length_cons] at hlen
  simp only [List.length_drop, List.length_cons]
  omega

/-- The tokens of a text. -/
def tokens (text : Text) : Except Fault (List Token) :=
  tokensFrom .start text

end Lexer
end ProofKernel
