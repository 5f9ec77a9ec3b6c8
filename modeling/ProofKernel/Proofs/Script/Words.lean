import ProofKernel.Script.Lexer

/-!
# Words and what follows them

A reader of words looks ahead, but never past what it needs to see that a word has ended.  So a word
that ends within a text is the same when what follows the text is replaced by nothing, by a period
or by a new line.

* `Lexer.Closing` is what may follow: nothing, a new line, or a period.
* `Lexer.takeWhile_replace`, `Lexer.unsigned_replace`, `Lexer.stringBody_append` and
  `Lexer.signs_replace` say so of the parts of words, `Lexer.word_replace` of words.
* `Lexer.word_le`: a word lies within the text, and is not the end of input.
-/

set_option autoImplicit false
namespace ProofKernel
namespace Lexer

/-- Nothing, a new line, or a period that begins no fraction. -/
inductive Closing : Text → Prop
  | nil : Closing []
  | newline (rest : Text) : Closing (.char '\n' :: rest)
  | period {rest : Text} (h : rest.takeWhile isNumeral = []) : Closing (.char '.' :: rest)

variable {A G T : Text}

/-! ## Runs of symbols -/

theorem Closing.takeWhile (hT : Closing T) {p : Symbol → Bool} (hdot : p (.char '.') = false)
    (hline : p (.char '\n') = false) : T.takeWhile p = [] := by
  cases hT with
  | nil => rfl
  | newline => simp [hline]
  | period => simp [hdot]

/-- Where a run is empty, the next symbol does not belong to it. -/
theorem head_of_takeWhile_eq_nil {p : Symbol → Bool} {s : Symbol} {rest : Text}
    (h : (s :: rest).takeWhile p = []) : p s = false := by
  cases hs : p s with
  | false => rfl
  | true => simp [hs] at h

/-- A run that ends within a text does not depend on what follows it. -/
theorem takeWhile_replace {p : Symbol → Bool} (hT : T.takeWhile p = [])
    (h : ((A ++ G).takeWhile p).length ≤ A.length) :
    (A ++ T).takeWhile p = (A ++ G).takeWhile p := by
  induction A with
  | nil =>
    have hG : G.takeWhile p = [] := List.length_eq_zero_iff.1 (Nat.le_zero.1 h)
    rw [List.nil_append, List.nil_append, hT, hG]
  | cons a A ih =>
    rw [List.cons_append, List.cons_append, List.takeWhile_cons, List.takeWhile_cons]
    by_cases ha : p a = true
    · rw [List.cons_append, List.takeWhile_cons, if_pos ha] at h
      rw [if_pos ha, if_pos ha, ih (Nat.le_of_succ_le_succ h)]
    · rw [if_neg ha, if_neg ha]

/-! ## Numbers -/

theorem isNumeral_dot : isNumeral (.char '.') = false := by decide

theorem isNumeral_newline : isNumeral (.char '\n') = false := by decide

theorem Closing.takeWhile_isNumeral (hT : Closing T) : T.takeWhile isNumeral = [] :=
  hT.takeWhile isNumeral_dot isNumeral_newline

/-- What closes a text begins no number. -/
theorem Closing.isNumeral_head (hT : Closing T) {d : Symbol} {rest : Text} (h : T = d :: rest) :
    isNumeral d = false := by
  subst h
  exact head_of_takeWhile_eq_nil hT.takeWhile_isNumeral

theorem fraction_cons_cons (s d : Symbol) (rest : Text) :
    fraction (s :: d :: rest) =
      if s = .char '.' ∧ isNumeral d = true then s :: d :: rest.takeWhile isNumeral else [] := by
  by_cases hs : s = .char '.'
  · subst hs
    simp [fraction]
  · rw [if_neg fun h => hs h.1, fraction]
    rintro d rest ⟨⟩
    exact hs rfl

theorem Closing.fraction (hT : Closing T) : fraction T = [] := by
  cases hT with
  | nil => rfl
  | newline rest => cases rest <;> simp [Lexer.fraction]
  | @period rest h =>
    cases rest with
    | nil => simp [Lexer.fraction]
    | cons d rest =>
      rw [fraction_cons_cons, if_neg (by simp [head_of_takeWhile_eq_nil h])]

theorem fraction_replace (hT : Closing T) (h : (fraction (A ++ G)).length ≤ A.length) :
    fraction (A ++ T) = fraction (A ++ G) := by
  match A with
  | [] =>
    have hG : fraction G = [] := List.length_eq_zero_iff.1 (Nat.le_zero.1 h)
    rw [List.nil_append, List.nil_append, hG, hT.fraction]
  | [a] =>
    -- a fraction has two symbols at least
    have hG : fraction (a :: G) = [] := by
      cases G with
      | nil => simp [fraction]
      | cons d G =>
        rw [List.singleton_append, fraction_cons_cons] at h
        rw [fraction_cons_cons, if_neg]
        intro hfraction
        simp [hfraction] at h
    rw [List.singleton_append, List.singleton_append, hG]
    cases T with
    | nil => simp [fraction]
    | cons d T => rw [fraction_cons_cons, if_neg (by simp [hT.isNumeral_head rfl])]
  | a :: b :: A =>
    simp only [List.cons_append, fraction_cons_cons] at h ⊢
    split
    · next hfraction =>
      rw [if_pos hfraction] at h
      rw [takeWhile_replace hT.takeWhile_isNumeral (by simpa using h)]
    · rfl

theorem Closing.exponent (hT : Closing T) : exponent T = [] := by
  cases hT with
  | nil => rfl
  | newline rest => cases rest <;> simp [Lexer.exponent, isExponentMark, Symbol.is]
  | @period rest => cases rest <;> simp [Lexer.exponent, isExponentMark, Symbol.is]

theorem exponent_replace (hT : Closing T) (h : (exponent (A ++ G)).length ≤ A.length) :
    exponent (A ++ T) = exponent (A ++ G) := by
  have hdigits := hT.takeWhile_isNumeral
  match A with
  | [] =>
    have hG : exponent G = [] := List.length_eq_zero_iff.1 (Nat.le_zero.1 h)
    rw [List.nil_append, List.nil_append, hG, hT.exponent]
  | [a] =>
    -- an exponent has two symbols at least
    have hG : exponent (a :: G) = [] := by
      cases G with
      | nil => simp [exponent]
      | cons d G =>
        rw [List.singleton_append, exponent] at h
        rw [exponent]
        grind
    rw [List.singleton_append, List.singleton_append, hG]
    cases hT with
    | nil => simp [exponent]
    | newline => simp [exponent, isNumeral_newline, Symbol.is]
    | period => simp [exponent, isNumeral_dot, Symbol.is]
  | a :: b :: A =>
    simp only [List.cons_append, exponent] at h ⊢
    split
    · split
      · next hmark hnumeral =>
        rw [if_pos hmark, if_pos hnumeral] at h
        rw [takeWhile_replace hdigits (by simpa using h)]
      · split
        · next hmark hnumeral hsign =>
          have hfits : ((A ++ G).takeWhile isNumeral).length ≤ A.length := by
            rw [if_pos hmark, if_neg hnumeral, if_pos hsign] at h
            cases hrun : (A ++ G).takeWhile isNumeral with
            | nil => simp
            | cons d digits =>
              rw [hrun] at h
              simpa using h
          rw [takeWhile_replace hdigits hfits]
        · rfl
    · rfl

/-- A number that ends within a text does not depend on what follows it. -/
theorem unsigned_replace (hT : Closing T) (h : (unsigned (A ++ G)).length ≤ A.length) :
    unsigned (A ++ T) = unsigned (A ++ G) := by
  have hlength : (unsigned (A ++ G)).length =
      ((A ++ G).takeWhile isNumeral).length +
        (fraction ((A ++ G).drop ((A ++ G).takeWhile isNumeral).length)).length +
        (exponent ((A ++ G).drop (((A ++ G).takeWhile isNumeral).length +
          (fraction ((A ++ G).drop ((A ++ G).takeWhile isNumeral).length)).length))).length := by
    simp only [unsigned, List.length_append]
  rw [hlength] at h
  -- the whole part, then the fraction, then the exponent
  have hwhole : (A ++ T).takeWhile isNumeral = (A ++ G).takeWhile isNumeral :=
    takeWhile_replace hT.takeWhile_isNumeral (by omega)
  unfold unsigned
  simp only [hwhole]
  generalize hn : ((A ++ G).takeWhile isNumeral).length = n at h ⊢
  have hpart : fraction ((A ++ T).drop n) = fraction ((A ++ G).drop n) := by
    rw [List.drop_append_of_le_length (by omega)] at h ⊢
    rw [List.drop_append_of_le_length (by omega)]
    refine fraction_replace hT ?_
    rw [List.length_drop]
    omega
  rw [hpart]
  generalize hm : n + (fraction ((A ++ G).drop n)).length = m at h ⊢
  have hpower : exponent ((A ++ T).drop m) = exponent ((A ++ G).drop m) := by
    rw [List.drop_append_of_le_length (by omega)] at h ⊢
    rw [List.drop_append_of_le_length (by omega)]
    refine exponent_replace hT ?_
    rw [List.length_drop]
    omega
  rw [hpower]

theorem numberLength_minus (d : Symbol) (rest : Text) :
    numberLength (.char '-' :: d :: rest) =
      if isNumeral d then (unsigned (d :: rest)).length + 1 else 0 := rfl

theorem numberLength_other {s : Symbol} (hs : s ≠ .char '-') (rest : Text) :
    numberLength (s :: rest) = if isNumeral s then (unsigned (s :: rest)).length else 0 := by
  rw [numberLength]
  intro _ _ heq
  exact absurd heq hs

theorem unsigned_pos {d : Symbol} (hd : isNumeral d = true) (rest : Text) :
    0 < (unsigned (d :: rest)).length := by
  simp [unsigned, hd]

theorem numberLength_replace {s : Symbol} (hT : Closing T)
    (h : numberLength (s :: (A ++ G)) ≤ A.length + 1) :
    numberLength (s :: (A ++ T)) = numberLength (s :: (A ++ G)) := by
  by_cases hs : s = .char '-'
  · subst hs
    cases A with
    | nil =>
      have hG : numberLength (.char '-' :: G) = 0 := by
        cases G with
        | nil => decide
        | cons d G =>
          rw [List.nil_append, numberLength_minus] at h
          rw [numberLength_minus, if_neg]
          intro hd
          have hpos := unsigned_pos hd G
          simp only [hd, if_true, List.length_nil] at h
          omega
      rw [List.nil_append, List.nil_append, hG]
      cases T with
      | nil => decide
      | cons d T => rw [numberLength_minus, hT.isNumeral_head rfl, if_neg Bool.false_ne_true]
    | cons d A =>
      simp only [List.cons_append, numberLength_minus] at h ⊢
      split
      · next hd =>
        rw [if_pos hd] at h
        have hfits : (unsigned (d :: A ++ G)).length ≤ (d :: A).length := by
          simpa using h
        have hunsigned : unsigned (d :: (A ++ T)) = unsigned (d :: (A ++ G)) :=
          unsigned_replace hT hfits
        rw [hunsigned]
      · rfl
  · simp only [numberLength_other hs] at h ⊢
    split
    · next hd =>
      rw [if_pos hd] at h
      have hfits : (unsigned (s :: A ++ G)).length ≤ (s :: A).length := by
        simpa using h
      have hunsigned : unsigned (s :: (A ++ T)) = unsigned (s :: (A ++ G)) :=
        unsigned_replace hT hfits
      rw [hunsigned]
    · rfl

/-! ## Strings and signs -/

theorem stringBody_other {s : Symbol} (hquote : s ≠ .char '"') (hslash : s ≠ .char '\\')
    (rest : Text) : stringBody (s :: rest) =
      (stringBody rest).map fun (value, body, after) => (s.shown :: value, s :: body, after) := by
  rw [stringBody]
  · exact hquote
  · intro _ _ heq
    exact absurd heq hslash
  · intro heq
    exact absurd heq hslash

/-- A string ends at its closing quote, whatever follows. -/
theorem stringBody_append {text body after : Text} {value : List Char}
    (h : stringBody text = some (value, body, after)) : body ++ after = text ∧
      ∀ after', stringBody (body ++ after') = some (value, body, after') := by
  fun_induction stringBody text generalizing value body after with
  | case1 => cases h
  | case2 rest =>
    cases h
    exact ⟨rfl, fun _ => rfl⟩
  | case3 s rest ih =>
    obtain ⟨⟨value', body', after'⟩, hbody, heq⟩ := Option.map_eq_some_iff.1 h
    cases heq
    obtain ⟨happend, hagain⟩ := ih hbody
    refine ⟨by simp [happend], fun after'' => ?_⟩
    simp [stringBody, hagain after'']
  | case4 => cases h
  | case5 s rest hquote hslash hlast ih =>
    obtain ⟨⟨value', body', after'⟩, hbody, heq⟩ := Option.map_eq_some_iff.1 h
    cases heq
    obtain ⟨happend, hagain⟩ := ih hbody
    have hplain : s ≠ .char '\\' := by
      rintro rfl
      cases rest with
      | nil => exact hlast rfl rfl
      | cons s rest => exact hslash s rest rfl rfl
    refine ⟨by simp [happend], fun after'' => ?_⟩
    rw [List.cons_append, stringBody_other hquote hplain, hagain after'']
    rfl

theorem signs_replace {s : Symbol} {w : Word} {n : Nat} (hT : Closing T)
    (h : signs (s :: (A ++ G)) = some (w, n)) (hn : n ≤ A.length + 1) :
    signs (s :: (A ++ T)) = some (w, n) := by
  -- a word of two signs has its second sign in the text
  have htwo : ∀ {first second : Symbol} {tail : Text}, 2 ≤ A.length + 1 →
      s :: (A ++ G) = first :: second :: tail → s = first ∧ ∃ A', A = second :: A' := by
    intro first second tail hlength heq
    cases A with
    | nil => simp at hlength
    | cons b A =>
      simp only [List.cons_append, List.cons.injEq] at heq
      exact ⟨heq.1, A, by rw [heq.2.1]⟩
  unfold signs at h
  split at h
  case h_7 tail hcolon heq =>
    cases heq
    cases h
    rw [signs]
    intro tail hassign
    cases A with
    | nil => cases hT <;> cases hassign
    | cons b A =>
      cases hassign
      exact hcolon _ rfl
  case h_14 => cases h
  case h_6 | h_8 | h_9 =>
    next heq =>
    cases h
    obtain ⟨rfl, A', rfl⟩ := htwo hn heq
    rfl
  all_goals
    next heq =>
    cases heq
    cases h
    rfl

/-! ## Words -/

theorem continuesName_dot : continuesName '.' = false := by decide

theorem continuesName_newline : continuesName '\n' = false := by decide

/-- **A word that ends within a text does not depend on what follows it.** -/
theorem word_replace {s : Symbol} {w : Word} {n : Nat} (hT : Closing T)
    (h : word s (A ++ G) = .ok (w, n)) (hn : n ≤ A.length + 1) : word s (A ++ T) = .ok (w, n) := by
  unfold word at h ⊢
  dsimp only at h ⊢
  split at h
  · next hname =>
    cases h
    have hrun : (A ++ T).takeWhile (Symbol.holds continuesName) =
        (A ++ G).takeWhile (Symbol.holds continuesName) :=
      takeWhile_replace (hT.takeWhile continuesName_dot continuesName_newline) (by simpa using hn)
    rw [if_pos hname, hrun]
  · next hname =>
    rw [if_neg hname]
    split at h
    · next hnumber =>
      cases h
      have hlength := numberLength_replace (s := s) hT hn
      have htake : ∀ rest, (s :: (A ++ rest)).take (numberLength (s :: (A ++ G))) =
          (s :: A).take (numberLength (s :: (A ++ G))) := by
        intro rest
        show (s :: A ++ rest).take _ = _
        exact List.take_append_of_le_length hn
      rw [hlength, if_pos hnumber, htake, htake]
    · next hnumber =>
      rw [ne_eq, Decidable.not_not] at hnumber
      have hlength := numberLength_replace (s := s) (G := G) hT (by rw [hnumber]; omega)
      rw [hlength, hnumber, if_neg (by simp)]
      split at h
      · next hquote =>
        rw [if_pos hquote]
        split at h
        · next value body after hbody =>
          cases h
          obtain ⟨happend, hagain⟩ := stringBody_append hbody
          -- the string ends within the text
          obtain ⟨A', rfl⟩ : ∃ A', A = body ++ A' :=
            List.prefix_of_prefix_length_le (happend ▸ List.prefix_append _ _)
              (List.prefix_append A G) (by omega) |>.imp fun _ heq => heq.symm
          rw [List.append_assoc, hagain]
        · cases h
      · next hquote =>
        rw [if_neg hquote]
        split at h
        · next hsigns =>
          cases h
          rw [signs_replace hT hsigns hn]
        · cases h

theorem fraction_initial (text : Text) : fraction text <+: text := by
  unfold fraction
  split
  · split
    · exact List.prefix_cons_inj _ |>.2 (List.prefix_cons_inj _ |>.2 (List.takeWhile_prefix _))
    · exact List.nil_prefix
  · exact List.nil_prefix

theorem exponent_initial (text : Text) : exponent text <+: text := by
  unfold exponent
  split
  · next e d rest =>
    have hdigits : e :: d :: rest.takeWhile isNumeral <+: e :: d :: rest :=
      List.prefix_cons_inj _ |>.2 (List.prefix_cons_inj _ |>.2 (List.takeWhile_prefix _))
    split
    · split
      · exact hdigits
      · split
        · split
          · exact List.nil_prefix
          · exact hdigits
        · exact List.nil_prefix
    · exact List.nil_prefix
  · exact List.nil_prefix

theorem length_unsigned_le (text : Text) : (unsigned text).length ≤ text.length := by
  have hwhole := (List.takeWhile_prefix isNumeral (l := text)).length_le
  have hpart := (fraction_initial (text.drop (text.takeWhile isNumeral).length)).length_le
  have hpower := (exponent_initial (text.drop ((text.takeWhile isNumeral).length +
    (fraction (text.drop (text.takeWhile isNumeral).length)).length))).length_le
  rw [List.length_drop] at hpart hpower
  simp only [unsigned, List.length_append]
  omega

theorem numberLength_le (s : Symbol) (rest : Text) :
    numberLength (s :: rest) ≤ rest.length + 1 := by
  by_cases hs : s = .char '-'
  · subst hs
    cases rest with
    | nil => decide
    | cons d rest =>
      have hle := length_unsigned_le (d :: rest)
      rw [numberLength_minus]
      split
      · simpa using hle
      · exact Nat.zero_le _
  · have hle := length_unsigned_le (s :: rest)
    rw [numberLength_other hs]
    split
    · simpa using hle
    · exact Nat.zero_le _

theorem signs_le {s : Symbol} {rest : Text} {w : Word} {n : Nat}
    (h : signs (s :: rest) = some (w, n)) : n ≤ rest.length + 1 ∧ w ≠ .endOfInput := by
  unfold signs at h
  split at h
  case h_14 => cases h
  all_goals
    next heq =>
    cases heq
    cases h
    simp

/-- A word lies within the text, and is not the end of input. -/
theorem word_le {s : Symbol} {rest : Text} {w : Word} {n : Nat} (h : word s rest = .ok (w, n)) :
    n ≤ rest.length + 1 ∧ w ≠ .endOfInput := by
  unfold word at h
  dsimp only at h
  split at h
  · cases h
    have hle := (List.takeWhile_prefix (Symbol.holds continuesName) (l := rest)).length_le
    simpa using hle
  · split at h
    · cases h
      refine ⟨numberLength_le s rest, ?_⟩
      unfold numberWord
      dsimp only
      split <;> nofun
    · split at h
      · split at h
        · next hbody =>
          cases h
          have hle := congrArg List.length (stringBody_append hbody).1
          rw [List.length_append] at hle
          exact ⟨by omega, nofun⟩
        · cases h
      · split at h
        · next hsigns =>
          cases h
          exact signs_le hsigns
        · cases h

end Lexer
end ProofKernel
