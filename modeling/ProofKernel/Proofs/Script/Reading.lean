import ProofKernel.Proofs.Script.Printing
import ProofKernel.Proofs.Script.Source

/-!
# Reading terms back

The parser takes the words of a printed term for that term, with an arrow for each product whose
variable is not used.

* `Parser.Yields` says what a parser reads from tokens of given words, and what it leaves; parsers
  are put together by `Parser.Yields.bind`.
* One lemma for each step of the grammar: `Parser.yields_term_arrow`, `Parser.yields_term_app`,
  `Parser.yields_atom_paren` and so on.
* `Parser.Readable` is a term that is read back from its words; every legible term is one
  (`Parser.readable`).
-/

set_option autoImplicit false
namespace ProofKernel
namespace Parser

/-! ## Parsers on words -/

/-- From tokens of the words `before` the parser reads a value, and leaves tokens of the words
`after`. -/
def Yields {α : Type} (p : Parser α) (before : List Word) (value : α) (after : List Word) : Prop :=
  ∀ ts : List Token, ts.map Token.word = before →
    ∃ rest, p ts = .ok (value, rest) ∧ rest.map Token.word = after

section Yields

variable {α β : Type} {w : Word} {ws ws' ws'' : List Word} {a : α} {b : β}

namespace Yields

theorem pure : Yields (Pure.pure a) ws a ws :=
  fun ts hts => ⟨ts, rfl, hts⟩

/-- **What a parser leaves is read by the next one.** -/
theorem bind {p : Parser α} {f : α → Parser β} (hp : Yields p ws a ws')
    (hf : Yields (f a) ws' b ws'') : Yields (p >>= f) ws b ws'' := by
  intro ts hts
  obtain ⟨rest, hread, hrest⟩ := hp ts hts
  obtain ⟨last, hread', hlast⟩ := hf rest hrest
  exact ⟨last, bind_eq_ok_iff.2 ⟨a, rest, hread, hread'⟩, hlast⟩

/-- Looking at the next token takes none. -/
theorem peek {f : Token → Parser β} (h : ∀ t : Token, t.word = w → Yields (f t) (w :: ws) b ws') :
    Yields (Parser.peek >>= f) (w :: ws) b ws' := by
  intro ts hts
  obtain ⟨t, rest, rfl, ht, hrest⟩ := List.map_eq_cons_iff.1 hts
  exact h t ht _ hts

theorem advance {f : Token → Parser β} (hw : w ≠ .endOfInput) (h : ∀ t, Yields (f t) ws b ws') :
    Yields (Parser.advance >>= f) (w :: ws) b ws' := by
  intro ts hts
  obtain ⟨t, rest, rfl, ht, hrest⟩ := List.map_eq_cons_iff.1 hts
  obtain ⟨last, hread, hlast⟩ := h t rest hrest
  exact ⟨last, bind_eq_ok_iff.2 ⟨t, rest, advance_cons rest (ht ▸ hw), hread⟩, hlast⟩

end Yields

theorem yields_accept (hw : w ≠ .endOfInput) : Yields (accept w) (w :: ws) true ws := by
  intro ts hts
  obtain ⟨t, rest, rfl, ht, hrest⟩ := List.map_eq_cons_iff.1 hts
  exact ⟨rest, accept_of_eq rest hw ht, hrest⟩

theorem yields_accept_of_ne {w' : Word} (h : w' ≠ w) :
    Yields (accept w) (w' :: ws) false (w' :: ws) := by
  intro ts hts
  obtain ⟨t, rest, rfl, ht, hrest⟩ := List.map_eq_cons_iff.1 hts
  exact ⟨_, accept_of_ne rest (ht ▸ h), hts⟩

theorem yields_sees_of_ne {w' : Word} (h : w' ≠ w) :
    Yields (sees w) (w' :: ws) false (w' :: ws) := by
  intro ts hts
  obtain ⟨t, rest, rfl, ht, hrest⟩ := List.map_eq_cons_iff.1 hts
  have hrun : sees w (t :: rest) = .ok (decide (t.word = w), t :: rest) := rfl
  exact ⟨_, by rw [hrun, decide_eq_false (ht ▸ h)], hts⟩

theorem yields_expect (hw : w ≠ .endOfInput) : Yields (expect w) (w :: ws) () ws :=
  (yields_accept hw).bind .pure

theorem name?_ident {x : String} (h : isDeclarable x = true) :
    (Word.ident x).name? = some x := by
  simp only [isDeclarable, Bool.and_eq_true, Bool.not_eq_true', List.contains_eq_mem,
    decide_eq_false_iff_not] at h
  exact if_neg h.2

theorem yields_name {x : String} (h : isDeclarable x = true) :
    Yields name (.ident x :: ws) x ws := by
  intro ts hts
  obtain ⟨t, rest, rfl, ht, hrest⟩ := List.map_eq_cons_iff.1 hts
  rw [name_of_some (ht ▸ name?_ident h)]
  exact Yields.advance Word.noConfusion (fun _ => .pure) _ hts

/-- One name, in front of a word that is none. -/
theorem yields_names {x : String} (h : isDeclarable x = true) (hw : w.name? = none) :
    Yields names (.ident x :: w :: ws) [x] (w :: ws) := by
  intro ts hts
  obtain ⟨t, rest, rfl, ht, hrest⟩ := List.map_eq_cons_iff.1 hts
  obtain ⟨u, last, rfl, hu, hlast⟩ := List.map_eq_cons_iff.1 hrest
  have hsplit : splitNames (t :: u :: last) = ([x], u :: last) := by
    rw [splitNames, ht, name?_ident h, splitNames, hu, hw]
  have hrun : names (t :: u :: last) =
      .ok ((splitNames (t :: u :: last)).1, (splitNames (t :: u :: last)).2) := rfl
  exact ⟨u :: last, by rw [hrun, hsplit], hrest⟩

end Yields

/-! ## Atoms -/

theorem readNat_digits (n : Nat) : readNat (Nat.toDigits 10 n) = n :=
  Nat.ofDigitChars_toDigits (by decide) (by decide)

/-- **A whole number is read as itself.** -/
theorem readInt?_toString (value : Int64) : readInt? (toString value.toInt) = some value := by
  have hvalue : ∀ i : Int, i = value.toInt →
      (if decide (Int64.minValue.toInt ≤ i) && decide (i ≤ Int64.maxValue.toInt) then
        some (Int64.ofInt i) else none) = some value := by
    rintro _ rfl
    have hmin : Int64.minValue.toInt ≤ value.toInt := Int64.le_toInt value
    rw [decide_eq_true hmin, decide_eq_true (Int64.toInt_le value)]
    exact congrArg some (Int64.ofInt_toInt value)
  refine hvalue _ ?_
  rw [Lexer.toList_int]
  by_cases hnegative : value.toInt < 0
  · rw [if_pos hnegative, List.singleton_append]
    show -(readNat (Nat.toDigits 10 value.toInt.natAbs) : Int) = value.toInt
    rw [readNat_digits]
    omega
  · rw [if_neg hnegative, List.nil_append]
    split
    · next rest hdigits =>
      have hminus : '-' ∈ Nat.toDigits 10 value.toInt.natAbs := by
        rw [hdigits]
        exact List.mem_cons_self
      cases Lexer.isDigit_of_mem_digits _ hminus
    · rw [readNat_digits]
      omega

theorem readLevel?_digits {level : Int64} (h : 0 ≤ level) :
    readLevel? (Nat.toDigits 10 level.toInt.natAbs) = some level := by
  have hlevel : ((level.toInt.natAbs : Nat) : Int) = level.toInt :=
    Int.natAbs_of_nonneg (Int64.le_iff_toInt_le.1 h)
  rw [readLevel?, readNat_digits, hlevel, if_pos (Int64.toInt_le level), ← Int64.ofInt_eq_ofNat,
    hlevel, Int64.ofInt_toInt]

/-- The digits of the name of a sort are found. -/
theorem levelDigits?_of_toList {x : String} {digits : List Char}
    (h : x.toList = 'T' :: 'y' :: 'p' :: 'e' :: digits) (hne : digits ≠ [])
    (hdigits : ∀ c ∈ digits, c.isDigit = true) : levelDigits? x = some digits := by
  rw [levelDigits?, h]
  exact if_pos (by simpa [hne] using hdigits)

/-- A name that names no sort has no digits of a level. -/
theorem levelDigits?_of_not_sort {x : String} (h : namesSort x = false) :
    levelDigits? x = none := by
  unfold levelDigits?
  split
  · next digits hchars =>
    rw [if_neg]
    intro hdigits
    rw [Bool.and_eq_true] at hdigits
    rw [namesSort, hchars, List.drop_succ_cons, List.drop_succ_cons, List.drop_succ_cons,
      List.drop_succ_cons, List.drop_zero, hdigits.2] at h
    simp at h
  · rfl

variable {scope : List String} {position : Position} {ws : List Word}

/-- A sort is read as itself. -/
theorem yields_reference_sort {u : Universe} (h : u.legible = true) :
    Yields (reference scope position u.render) ws (.sort u) ws := by
  cases u with
  | prop => exact .pure
  | type level =>
    have hlevel : 0 ≤ level := of_decide_eq_true h
    have hchars := Universe.toList_render hlevel
    have hdigits := levelDigits?_of_toList hchars Nat.toDigits_ne_nil Lexer.isDigit_of_mem_digits
    have hne : ∀ y : String, y.toList.length ≤ 4 → (Universe.type level).render ≠ y := by
      rintro _ hy rfl
      rw [hchars] at hy
      have hpos := Nat.length_toDigits_pos (b := 10) (n := level.toInt.natAbs)
      simp only [List.length_cons] at hy
      omega
    unfold reference
    rw [if_neg (hne Term.placeholder (by decide)), if_neg (hne "Prop" (by decide)),
      if_neg (hne "Type" (by decide)), hdigits]
    dsimp only
    rw [readLevel?_digits hlevel]
    exact .pure

/-- A name that can be referred to is read as a variable in its scope and as a global elsewhere. -/
theorem yields_reference_name {x : String} (h : isReferable x = true) :
    Yields (reference scope position x) ws (if x ∈ scope then .var x else .global x) ws := by
  simp only [isReferable, Bool.and_eq_true, Bool.not_eq_true', beq_eq_false_iff_ne] at h
  obtain ⟨⟨_, hplaceholder⟩, hsort⟩ := h
  have hprop : x ≠ "Prop" := by
    rintro rfl
    cases hsort
  have htype : x ≠ "Type" := by
    rintro rfl
    cases hsort
  unfold reference
  rw [if_neg hplaceholder, if_neg hprop, if_neg htype, levelDigits?_of_not_sort hsort]
  exact .pure

/-! ## One step of the grammar -/

section Steps

variable {n : Nat} {w : Word} {ws ws' ws'' : List Word} {x : String} {t u : Term}

/-- The words that end a term. -/
def endsTerm (w : Word) : Bool :=
  !startsAtom w && w ≠ .arrow

theorem yields_arguments_end {fn : Term} (hw : startsAtom w = false) :
    Yields (arguments n scope fn) (w :: ws) fn (w :: ws) := by
  cases n with
  | zero => exact .pure
  | succ n =>
    rw [arguments]
    refine .peek fun t ht => ?_
    rw [ht, hw]
    exact .pure

/-- A term that begins with an atom is an application or an arrow. -/
theorem yields_term_application {left right : Term} (hw : startsAtom w = true)
    (happlication : Yields (application n scope) (w :: ws) left ws')
    (harrow : Yields (do
      if ← accept .arrow then
        let right ← term n scope
        return .arrow left right
      return left) ws' right ws'') :
    Yields (term (n + 1) scope) (w :: ws) right ws'' := by
  rw [term]
  refine .peek fun t ht => ?_
  rw [ht]
  split
  case h_5 => exact happlication.bind harrow
  -- no keyword begins an atom
  all_goals exact absurd hw (by decide)

/-- An atom alone is a term. -/
theorem yields_term_atom {w' : Word} (hw : startsAtom w = true)
    (hatom : Yields (atom n scope) (w :: ws) t (w' :: ws')) (hw' : endsTerm w' = true) :
    Yields (term (n + 2) scope) (w :: ws) t (w' :: ws') := by
  rw [endsTerm, Bool.and_eq_true, Bool.not_eq_true', decide_eq_true_eq] at hw'
  refine yields_term_application hw ?_ ((yields_accept_of_ne hw'.2).bind .pure)
  rw [application]
  exact hatom.bind (yields_arguments_end hw'.1)

/-- An atom before an arrow. -/
theorem yields_term_arrow (hw : startsAtom w = true)
    (hatom : Yields (atom n scope) (w :: ws) t (.arrow :: ws'))
    (hterm : Yields (term (n + 1) scope) ws' u ws'') :
    Yields (term (n + 2) scope) (w :: ws) (.arrow t u) ws'' := by
  refine yields_term_application hw ?_
    ((yields_accept Word.noConfusion).bind (hterm.bind .pure))
  rw [application]
  exact hatom.bind (yields_arguments_end rfl)

/-- An atom applied to another one. -/
theorem yields_term_app (hw : startsAtom w = true) {w' : Word} {mid : List Word}
    (hfn : Yields (atom (n + 1) scope) (w :: ws) t (w' :: mid)) (hw' : startsAtom w' = true)
    (harg : Yields (atom n scope) (w' :: mid) u (.closeParen :: ws')) :
    Yields (term (n + 3) scope) (w :: ws) (.app t u) (.closeParen :: ws') := by
  refine yields_term_application hw ?_
    ((yields_accept_of_ne Word.noConfusion).bind .pure)
  rw [application]
  refine hfn.bind ?_
  rw [arguments]
  refine .peek fun token htoken => ?_
  rw [htoken, hw']
  exact harg.bind (yields_arguments_end rfl)

/-- A term between parentheses. -/
theorem yields_atom_paren (h : Yields (term n scope) ws t (.closeParen :: ws')) :
    Yields (atom (n + 1) scope) (.openParen :: ws) t ws' := by
  rw [atom]
  refine .peek fun token htoken => ?_
  rw [htoken]
  exact .advance Word.noConfusion fun _ => h.bind ((yields_expect Word.noConfusion).bind .pure)

/-- A name and its type. -/
theorem yields_group (hx : isDeclarable x = true) (h : Yields (term n scope) ws t ws') :
    Yields (group (n + 1) scope) (.ident x :: .colon :: ws) [(x, t)] ws' := by
  rw [group]
  exact (yields_names hx rfl).bind ((yields_expect Word.noConfusion).bind (h.bind .pure))

theorem yields_binders (hx : isDeclarable x = true) (h : Yields (term n scope) ws t ws') :
    Yields (binders (n + 2) scope) (.ident x :: .colon :: ws) [(x, t)] ws' := by
  rw [binders]
  exact (yields_sees_of_ne Word.noConfusion).bind (yields_group hx h)

/-- A name, its type and what it is bound in, with a word between them. -/
theorem yields_binding {bind : Telescope → Term → Term} (hw : w ≠ .endOfInput)
    (hx : isDeclarable x = true) (ht : Yields (term n scope) ws t (w :: ws'))
    (hu : Yields (term (n + 2) (x :: scope)) ws' u ws'') :
    Yields (do
      let bound ← binders (n + 2) scope
      expect w
      let body ← term (n + 2) (extend scope bound)
      return bind bound body) (.ident x :: .colon :: ws) (bind [(x, t)] u) ws'' :=
  (yields_binders hx ht).bind ((yields_expect hw).bind (hu.bind .pure))

theorem yields_term_fun (hx : isDeclarable x = true)
    (ht : Yields (term n scope) ws t (.doubleArrow :: ws'))
    (hu : Yields (term (n + 2) (x :: scope)) ws' u ws'') :
    Yields (term (n + 3) scope) (.ident "fun" :: .ident x :: .colon :: ws) (.lam x t u) ws'' := by
  rw [term]
  refine .peek fun token htoken => ?_
  rw [htoken]
  exact .advance Word.noConfusion fun _ => yields_binding Word.noConfusion hx ht hu

theorem yields_term_forall (hx : isDeclarable x = true)
    (ht : Yields (term n scope) ws t (.comma :: ws'))
    (hu : Yields (term (n + 2) (x :: scope)) ws' u ws'') :
    Yields (term (n + 3) scope) (.ident "forall" :: .ident x :: .colon :: ws) (.pi x t u) ws'' := by
  rw [term]
  refine .peek fun token htoken => ?_
  rw [htoken]
  exact .advance Word.noConfusion fun _ => yields_binding Word.noConfusion hx ht hu

theorem yields_term_fix (hx : isDeclarable x = true) (h : Yields (term n (x :: scope)) ws t ws') :
    Yields (term (n + 1) scope) (.ident "fix" :: .ident x :: .doubleArrow :: ws) (.fix x t)
      ws' := by
  rw [term]
  refine .peek fun token htoken => ?_
  rw [htoken]
  exact .advance Word.noConfusion fun _ => (yields_name hx).bind
    ((yields_expect Word.noConfusion).bind (h.bind .pure))

theorem yields_atom_name (hx : isDeclarable x = true)
    (h : ∀ position, Yields (reference scope position x) ws t ws') :
    Yields (atom (n + 1) scope) (.ident x :: ws) t ws' := by
  rw [atom]
  refine .peek fun token htoken => ?_
  rw [htoken]
  dsimp only
  rw [name?_ident hx]
  exact .advance Word.noConfusion fun _ => h _

theorem yields_atom_integer {digits : String} {value : Int64}
    (h : readInt? digits = some value) :
    Yields (atom (n + 1) scope) (.integer digits :: ws) (.lit (.int value)) ws := by
  rw [atom]
  refine .peek fun token htoken => ?_
  rw [htoken]
  dsimp only
  rw [h]
  exact .advance Word.noConfusion fun _ => .pure

theorem yields_atom_string {value : String} :
    Yields (atom (n + 1) scope) (.string value :: ws) (.lit (.text value)) ws := by
  rw [atom]
  refine .peek fun token htoken => ?_
  rw [htoken]
  exact .advance Word.noConfusion fun _ => .pure

end Steps

/-! ## Terms -/

/-- What is printed for the term is read back: between the words of other atoms, and as a term up to
a word that ends it. -/
structure Readable (t : Term) : Prop where
  atom : ∀ {fuel : Nat} {scope : List String} {following : List Word}, t.Legible scope →
    4 * (t.encloseWords t.words).length ≤ fuel + 3 →
    Yields (Parser.atom fuel scope) (t.encloseWords t.words ++ following) t.withArrows following
  term : ∀ {fuel : Nat} {scope : List String} {w : Word} {following : List Word},
    t.Legible scope → 4 * t.words.length ≤ fuel → endsTerm w = true →
    Yields (Parser.term fuel scope) (t.words ++ w :: following) t.withArrows (w :: following)

/-- What is printed as an atom begins with a word that does so. -/
theorem exists_startsAtom {t : Term} {around : List String} (h : t.legible around = true) :
    ∃ w ws, t.encloseWords t.words = w :: ws ∧ startsAtom w = true := by
  have hname : ∀ {x : String}, isDeclarable x = true → startsAtom (.ident x) = true := by
    intro x hx
    show (Word.ident x).name?.isSome = true
    rw [name?_ident hx]
    rfl
  cases t with
  | sort u => exact ⟨_, _, rfl, hname (Universe.isDeclarable_render h)⟩
  | var x => exact ⟨_, _, rfl, hname (isDeclarable_of_isReferable h)⟩
  | global x =>
    simp only [Term.legible, Bool.and_eq_true] at h
    exact ⟨_, _, rfl, hname (isDeclarable_of_isReferable h.1)⟩
  | pi x a b => exact ⟨_, _, rfl, rfl⟩
  | lam x a b => exact ⟨_, _, rfl, rfl⟩
  | app f a => exact ⟨_, _, rfl, rfl⟩
  | elim => cases h
  | fix x b => exact ⟨_, _, rfl, rfl⟩
  | lit l =>
    cases l with
    | int value => exact ⟨_, _, rfl, rfl⟩
    | float value => cases h
    | text value => exact ⟨_, _, rfl, rfl⟩
  | hole => exact ⟨_, _, rfl, rfl⟩

namespace Readable

variable {t a b f : Term} {x : String}

/-- All but products are read as atoms. -/
theorem of_atom (hpi : t.isPi = false)
    (h : ∀ {fuel : Nat} {scope : List String} {following : List Word}, t.Legible scope →
      4 * t.words.length ≤ fuel + 3 →
      Yields (Parser.atom fuel scope) (t.words ++ following) t.withArrows following) :
    Readable t := by
  have hwords : t.encloseWords t.words = t.words := by
    rw [Term.encloseWords, hpi]
    rfl
  refine ⟨fun ht hfuel => ?_, fun {fuel scope w following} ht hfuel hw => ?_⟩
  · rw [hwords] at hfuel ⊢
    exact h ht hfuel
  · obtain ⟨w', ws, hfirst, hw'⟩ := exists_startsAtom ht.legible
    rw [hwords] at hfirst
    have hlength : t.words.length = ws.length + 1 := by rw [hfirst, List.length_cons]
    obtain ⟨n, rfl⟩ : ∃ n, fuel = n + 2 := ⟨fuel - 2, by omega⟩
    have hatom : Yields (Parser.atom n scope) (t.words ++ w :: following) t.withArrows
        (w :: following) := h ht (by omega)
    rw [hfirst, List.cons_append] at hatom ⊢
    exact yields_term_atom hw' hatom hw

/-- Products are read as terms, and between parentheses as atoms. -/
theorem of_term (hpi : t.isPi = true)
    (h : ∀ {fuel : Nat} {scope : List String} {w : Word} {following : List Word},
      t.Legible scope → 4 * t.words.length ≤ fuel → endsTerm w = true →
      Yields (Parser.term fuel scope) (t.words ++ w :: following) t.withArrows (w :: following)) :
    Readable t := by
  refine ⟨fun {fuel scope following} ht hfuel => ?_, h⟩
  have hwords : t.encloseWords t.words = .openParen :: t.words ++ [.closeParen] := if_pos hpi
  rw [hwords] at hfuel ⊢
  simp only [List.cons_append, List.length_cons, List.length_append, List.length_nil] at hfuel
  simp only [List.cons_append, List.append_assoc, List.nil_append]
  obtain ⟨n, rfl⟩ : ∃ n, fuel = n + 1 := ⟨fuel - 1, by omega⟩
  exact yields_atom_paren (h ht (by omega) rfl)

/-- An atom of one word. -/
theorem of_word {w : Word} (hpi : t.isPi = false) (hwords : t.words = [w])
    (h : ∀ {n : Nat} {scope : List String} {following : List Word}, t.Legible scope →
      Yields (Parser.atom (n + 1) scope) (w :: following) t.withArrows following) :
    Readable t := by
  refine of_atom hpi fun {fuel scope following} ht hfuel => ?_
  rw [hwords] at hfuel ⊢
  obtain ⟨n, rfl⟩ : ∃ n, fuel = n + 1 := ⟨fuel - 1, by rw [List.length_singleton] at hfuel; omega⟩
  exact h ht

theorem pi (ha : Readable a) (hb : Readable b) : Readable (.pi x a b) := by
  refine of_term rfl fun {fuel scope w following} ht hfuel hw => ?_
  obtain ⟨hx, hlegible, hlegible'⟩ := ht.of_pi
  rw [Term.words] at hfuel ⊢
  rw [Term.withArrows]
  by_cases harrow : Term.isArrow x b = true
  · rw [if_pos harrow] at hfuel ⊢
    simp only [List.length_cons, List.length_append] at hfuel
    obtain ⟨n, rfl⟩ : ∃ n, fuel = n + 2 := ⟨fuel - 2, by omega⟩
    have hatom : Yields (Parser.atom n scope)
        (a.encloseWords a.words ++ .arrow :: (b.words ++ w :: following)) a.withArrows
        (.arrow :: (b.words ++ w :: following)) := ha.atom hlegible (by omega)
    have hterm : Yields (Parser.term (n + 1) scope) (b.words ++ w :: following) b.withArrows
        (w :: following) := hb.term (hlegible'.of_isArrow harrow) (by omega) hw
    obtain ⟨w', ws, hfirst, hw'⟩ := exists_startsAtom hlegible.legible
    rw [if_pos harrow, List.append_assoc, List.cons_append]
    rw [hfirst, List.cons_append] at hatom ⊢
    exact yields_term_arrow hw' hatom hterm
  · rw [if_neg harrow] at hfuel ⊢
    simp only [List.length_cons, List.length_append, List.cons_append] at hfuel
    obtain ⟨n, rfl⟩ : ∃ n, fuel = n + 3 := ⟨fuel - 3, by omega⟩
    rw [if_neg harrow]
    simp only [List.cons_append, List.append_assoc]
    exact yields_term_forall (isDeclarable_of_isBindable hx)
      (ha.term hlegible (by omega) rfl) (hb.term hlegible' (by omega) hw)

theorem lam (ha : Readable a) (hb : Readable b) : Readable (.lam x a b) := by
  refine of_atom rfl fun {fuel scope following} ht hfuel => ?_
  obtain ⟨hx, hlegible, hlegible'⟩ := ht.of_lam
  simp only [Term.words, List.length_cons, List.length_append, List.cons_append,
    List.length_nil] at hfuel
  obtain ⟨n, rfl⟩ : ∃ n, fuel = n + 4 := ⟨fuel - 4, by omega⟩
  simp only [Term.words, List.cons_append, List.append_assoc, List.nil_append]
  exact yields_atom_paren (yields_term_fun (isDeclarable_of_isBindable hx)
    (ha.term hlegible (by omega) rfl) (hb.term hlegible' (by omega) rfl))

theorem app (hf : Readable f) (ha : Readable a) : Readable (.app f a) := by
  refine of_atom rfl fun {fuel scope following} ht hfuel => ?_
  obtain ⟨hlegible, hlegible'⟩ := ht.of_app
  simp only [Term.words, List.length_cons, List.length_append, List.cons_append,
    List.length_nil] at hfuel
  obtain ⟨n, rfl⟩ : ∃ n, fuel = n + 4 := ⟨fuel - 4, by omega⟩
  simp only [Term.words, List.cons_append, List.append_assoc, List.nil_append]
  obtain ⟨w, ws, hfirst, hw⟩ := exists_startsAtom hlegible.legible
  obtain ⟨w', ws', hfirst', hw'⟩ := exists_startsAtom hlegible'.legible
  have hfn : Yields (Parser.atom (n + 1) scope) (f.encloseWords f.words ++
      (a.encloseWords a.words ++ .closeParen :: following)) f.withArrows
      (a.encloseWords a.words ++ .closeParen :: following) := hf.atom hlegible (by omega)
  have harg : Yields (Parser.atom n scope) (a.encloseWords a.words ++ .closeParen :: following)
      a.withArrows (.closeParen :: following) := ha.atom hlegible' (by omega)
  rw [hfirst'] at hfn harg ⊢
  rw [hfirst] at hfn ⊢
  exact yields_atom_paren (yields_term_app hw hfn hw' harg)

theorem fix (hb : Readable b) : Readable (.fix x b) := by
  refine of_atom rfl fun {fuel scope following} ht hfuel => ?_
  obtain ⟨hx, hlegible⟩ := ht.of_fix
  simp only [Term.words, List.length_cons, List.length_append, List.cons_append,
    List.length_nil] at hfuel
  obtain ⟨n, rfl⟩ : ∃ n, fuel = n + 2 := ⟨fuel - 2, by omega⟩
  simp only [Term.words, List.cons_append, List.append_assoc, List.nil_append]
  exact yields_atom_paren (yields_term_fix (isDeclarable_of_isBindable hx)
    (hb.term hlegible (by omega) rfl))

end Readable

/-- **Every legible term is read back from its words.** -/
theorem readable (t : Term) : Readable t := by
  induction t with
  | sort u =>
    exact .of_word rfl rfl fun ht => yields_atom_name (Universe.isDeclarable_render ht.legible)
      fun _ => yields_reference_sort ht.legible
  | var x =>
    refine .of_word rfl rfl fun {n scope following} ht => ?_
    have hx : x ∈ scope := ht.bound List.mem_cons_self
    refine yields_atom_name (isDeclarable_of_isReferable ht.legible) fun position => ?_
    have href : Yields (reference scope position x) following _ following :=
      yields_reference_name ht.legible
    rwa [if_pos hx] at href
  | global x =>
    refine .of_word rfl rfl fun {n scope following} ht => ?_
    have hlegible := ht.legible
    simp only [Term.legible, Bool.and_eq_true, Bool.not_eq_true', List.contains_eq_mem,
      decide_eq_false_iff_not] at hlegible
    refine yields_atom_name (isDeclarable_of_isReferable hlegible.1) fun position => ?_
    have href : Yields (reference scope position x) following _ following :=
      yields_reference_name hlegible.1
    rwa [if_neg hlegible.2] at href
  | pi x a b iha ihb => exact .pi iha ihb
  | lam x a b iha ihb => exact .lam iha ihb
  | app f a ihf iha => exact .app ihf iha
  | elim => exact ⟨fun ht => Bool.noConfusion ht.legible, fun ht => Bool.noConfusion ht.legible⟩
  | fix x b ihb => exact .fix ihb
  | lit l =>
    cases l with
    | int value => exact .of_word rfl rfl fun _ => yields_atom_integer (readInt?_toString value)
    | float value =>
      exact ⟨fun ht => Bool.noConfusion ht.legible, fun ht => Bool.noConfusion ht.legible⟩
    | text value => exact .of_word rfl rfl fun _ => yields_atom_string
  | hole => exact .of_word rfl rfl fun _ => yields_atom_name (by decide) fun _ => .pure

end Parser
end ProofKernel
