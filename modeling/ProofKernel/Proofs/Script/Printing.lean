import ProofKernel.Proofs.Script.Spelling

/-!
# The words of what is printed

What is printed for a legible term or statement is read as words that can be told from it, so that
printing can be undone word by word.

* `Term.words` and `Statement.words` are the words of what is printed: `Term.spells_render` and
  `Statement.spells_render`.
-/

set_option autoImplicit false
namespace ProofKernel

/-! ## Terms -/

/-- How a universe of types is written. -/
theorem Universe.toList_render {level : Int64} (h : 0 ≤ level) :
    (type level).render.toList =
      'T' :: 'y' :: 'p' :: 'e' :: Nat.toDigits 10 level.toInt.natAbs := by
  have hsign : ¬level.toInt < 0 := Int.not_lt.2 (Int64.le_iff_toInt_le.1 h)
  rw [render, String.toList_append, Lexer.toList_int, if_neg hsign]
  rfl

/-- A sort is written as an identifier. -/
theorem Universe.isIdentifier_render {u : Universe} (h : u.legible = true) :
    isIdentifier u.render = true := by
  cases u with
  | prop => decide
  | type level =>
    have hdigits : ∀ d ∈ Nat.toDigits 10 level.toInt.natAbs,
        (d.isAlphanum || d == '_' || d == '\'') = true := by
      intro d hd
      simp [Char.isAlphanum, Lexer.isDigit_of_mem_digits d hd]
    rw [isIdentifier, toList_render (of_decide_eq_true h)]
    simp only [List.all_cons, List.all_eq_true.2 hdigits]
    decide

/-- No keyword is the name of a sort. -/
theorem Universe.isDeclarable_render {u : Universe} (h : u.legible = true) :
    isDeclarable u.render = true := by
  have hkeyword : u.render ∉ Word.keywords := by
    cases u with
    | prop => decide
    | type level =>
      intro hmem
      have hhead : ∀ k ∈ Word.keywords, k.toList.head? ≠ some 'T' := by decide
      apply hhead _ hmem
      rw [toList_render (of_decide_eq_true h), List.head?_cons]
  rw [isDeclarable, isIdentifier_render h, Bool.true_and]
  simpa using hkeyword

namespace Term

/-- The words of the text of a product are put between parentheses. -/
def encloseWords (t : Term) (words : List Word) : List Word :=
  if t.isPi then .openParen :: words ++ [.closeParen] else words

/-- The words of a printed term.  A match is left out, since it is not read back. -/
@[simp] def words : Term → List Word
  | sort u => [.ident u.render]
  | var x | global x => [.ident x]
  | pi x a b =>
    if isArrow x b then a.encloseWords a.words ++ .arrow :: b.words
    else .ident "forall" :: .ident x :: .colon :: a.words ++ .comma :: b.words
  | lam x a b =>
    .openParen :: .ident "fun" :: .ident x :: .colon :: a.words ++ .doubleArrow :: b.words ++
      [.closeParen]
  | app f a => .openParen :: f.encloseWords f.words ++ a.encloseWords a.words ++ [.closeParen]
  | elim .. => []
  | fix x b =>
    .openParen :: .ident "fix" :: .ident x :: .doubleArrow :: b.words ++ [.closeParen]
  | lit (.int value) => [.integer (toString value.toInt)]
  | lit (.float value) => [.float (Literal.float value).render]
  | lit (.text value) => [.string value]
  | hole => [.ident placeholder]

open Lexer

variable {around : List String} {t : Term} {rest : Text} {following : List Word}

/-- What is printed for the term is read as its words, in front of what may follow. -/
def Spelled (t : Term) : Prop :=
  ∀ {rest : Text} {following : List Word}, Breaks rest → Spells rest following →
    Spells (Text.ofString t.render ++ rest) (t.words ++ following)

namespace Spelled

variable {x : String} {a b f : Term}

theorem enclose (h : t.Spelled) (hbreak : Breaks rest) (hrest : Spells rest following) :
    Spells (Text.ofString (t.enclose t.render) ++ rest)
      (t.encloseWords t.words ++ following) := by
  unfold Term.enclose encloseWords
  split
  · have htext : Text.ofString ("(" ++ t.render ++ ")") ++ rest =
        .char '(' :: (Text.ofString t.render ++ .char ')' :: rest) := by
      simp only [Text.ofString_append, List.append_assoc]
      rfl
    simp only [htext, List.cons_append, List.append_assoc, List.nil_append]
    exact .openParen (h (.close _) hrest.closeParen)
  · exact h hbreak hrest

theorem pi (hx : isIdentifier x = true) (ha : a.Spelled) (hb : b.Spelled) :
    (Term.pi x a b).Spelled := by
  intro rest following hbreak hrest
  have hrender : (Term.pi x a b).render =
      if isArrow x b then a.enclose a.render ++ " -> " ++ b.render
      else "forall " ++ x ++ " : " ++ a.render ++ ", " ++ b.render := by
    rw [render]
    rfl
  rw [hrender, words]
  split
  · have htext : Text.ofString (a.enclose a.render ++ " -> " ++ b.render) ++ rest =
        Text.ofString (a.enclose a.render) ++ .char ' ' :: .char '-' :: .char '>' ::
          .char ' ' :: (Text.ofString b.render ++ rest) := by
      simp only [Text.ofString_append, List.append_assoc]
      rfl
    simp only [htext, List.append_assoc, List.cons_append]
    exact ha.enclose (.blank _) (.blank (.arrow (.blank (hb hbreak hrest))))
  · have htext : Text.ofString ("forall " ++ x ++ " : " ++ a.render ++ ", " ++ b.render) ++ rest =
        Text.ofString "forall" ++ .char ' ' :: (Text.ofString x ++ .char ' ' :: .char ':' ::
          .char ' ' :: (Text.ofString a.render ++ .char ',' :: .char ' ' ::
            (Text.ofString b.render ++ rest))) := by
      simp only [Text.ofString_append, List.append_assoc]
      rfl
    simp only [htext, List.cons_append, List.append_assoc]
    exact .ident (by decide) (.blank _) (.blank (.ident hx (.blank _) (.blank (.colon (.blank
      (ha (.comma _) (.comma (.blank (hb hbreak hrest)))))))))

theorem lam (hx : isIdentifier x = true) (ha : a.Spelled) (hb : b.Spelled) :
    (Term.lam x a b).Spelled := by
  intro rest following hbreak hrest
  have htext : Text.ofString (Term.lam x a b).render ++ rest =
      .char '(' :: (Text.ofString "fun" ++ .char ' ' :: (Text.ofString x ++ .char ' ' ::
        .char ':' :: .char ' ' :: (Text.ofString a.render ++ .char ' ' :: .char '=' ::
          .char '>' :: .char ' ' :: (Text.ofString b.render ++ .char ')' :: rest)))) := by
    simp only [render, Text.ofString_append, List.append_assoc]
    rfl
  simp only [htext, words, List.cons_append, List.append_assoc, List.nil_append]
  exact .openParen (.ident (by decide) (.blank _) (.blank (.ident hx (.blank _) (.blank
    (.colon (.blank (ha (.blank _) (.blank (.doubleArrow (.blank
      (hb (.close _) hrest.closeParen)))))))))))

theorem app (hf : f.Spelled) (ha : a.Spelled) : (Term.app f a).Spelled := by
  intro rest following hbreak hrest
  have htext : Text.ofString (Term.app f a).render ++ rest =
      .char '(' :: (Text.ofString (f.enclose f.render) ++ .char ' ' ::
        (Text.ofString (a.enclose a.render) ++ .char ')' :: rest)) := by
    simp only [render, Text.ofString_append, List.append_assoc]
    rfl
  simp only [htext, words, List.cons_append, List.append_assoc, List.nil_append]
  exact .openParen (hf.enclose (.blank _) (.blank (ha.enclose (.close _) hrest.closeParen)))

theorem fix (hx : isIdentifier x = true) (hb : b.Spelled) : (Term.fix x b).Spelled := by
  intro rest following hbreak hrest
  have htext : Text.ofString (Term.fix x b).render ++ rest =
      .char '(' :: (Text.ofString "fix" ++ .char ' ' :: (Text.ofString x ++ .char ' ' ::
        .char '=' :: .char '>' :: .char ' ' ::
          (Text.ofString b.render ++ .char ')' :: rest))) := by
    simp only [render, Text.ofString_append, List.append_assoc]
    rfl
  simp only [htext, words, List.cons_append, List.append_assoc, List.nil_append]
  exact .openParen (.ident (by decide) (.blank _) (.blank (.ident hx (.blank _) (.blank
    (.doubleArrow (.blank (hb (.close _) hrest.closeParen)))))))

end Spelled

/-- **What is printed for a legible term is read as its words.** -/
theorem spells_render (h : t.legible around = true) : t.Spelled := by
  induction t generalizing around with
  | elim => cases h
  | sort u => exact fun hbreak hrest => hrest.ident (Universe.isIdentifier_render h) hbreak
  | var x => exact fun hbreak hrest => hrest.ident (isIdentifier_of_isReferable h) hbreak
  | global x =>
    simp only [legible, Bool.and_eq_true] at h
    exact fun hbreak hrest => hrest.ident (isIdentifier_of_isReferable h.1) hbreak
  | pi x a b iha ihb =>
    simp only [legible, Bool.and_eq_true] at h
    exact Spelled.pi (isIdentifier_of_isBindable h.1.1) (iha h.1.2) (ihb h.2)
  | lam x a b iha ihb =>
    simp only [legible, Bool.and_eq_true] at h
    exact Spelled.lam (isIdentifier_of_isBindable h.1.1) (iha h.1.2) (ihb h.2)
  | app f a ihf iha =>
    simp only [legible, Bool.and_eq_true] at h
    exact Spelled.app (ihf h.1) (iha h.2)
  | fix x b ihb =>
    simp only [legible, Bool.and_eq_true] at h
    exact Spelled.fix (isIdentifier_of_isBindable h.1) (ihb h.2)
  | lit l =>
    cases l with
    | int value => exact fun hbreak hrest => hrest.integer _ hbreak
    | float value => cases h
    | text value => exact fun _ hrest => hrest.string (List.all_eq_true.1 h)
  | hole => exact fun hbreak hrest => hrest.ident (by decide) hbreak

end Term

/-! ## Statements -/

open Lexer

section Statements

variable {rest : Text} {following : List Word}

namespace Telescope

/-- Parameters as they are written, each between parentheses. -/
def renderGroups (binders : Telescope) : String :=
  String.join (binders.map fun (x, a) => " (" ++ x ++ " : " ++ a.render ++ ")")

/-- The words of parameters. -/
def groupWords : Telescope → List Word
  | [] => []
  | (x, a) :: rest =>
    .openParen :: .ident x :: .colon :: a.words ++ .closeParen :: groupWords rest

/-- Constructors as they are written, with bars between them. -/
def renderClauses (constructors : Telescope) : String :=
  " |".intercalate (constructors.map fun (c, a) => " " ++ c ++ " : " ++ a.render)

/-- The words of constructors. -/
def clauseWords : Telescope → List Word
  | [] => []
  | [(c, a)] => .ident c :: .colon :: a.words
  | (c, a) :: rest => .ident c :: .colon :: a.words ++ .bar :: clauseWords rest

theorem spells_renderGroups {scope : List String} {binders : Telescope}
    (h : Legible scope binders) (hrest : Spells rest following) :
    Spells (Text.ofString binders.renderGroups ++ rest) (groupWords binders ++ following) := by
  induction binders generalizing scope with
  | nil => exact hrest
  | cons b binders ih =>
    obtain ⟨x, a⟩ := b
    obtain ⟨hx, ha, hbinders⟩ := h
    have htext : Text.ofString (renderGroups ((x, a) :: binders)) ++ rest =
        .char ' ' :: .char '(' :: (Text.ofString x ++ .char ' ' :: .char ':' :: .char ' ' ::
          (Text.ofString a.render ++ .char ')' ::
            (Text.ofString (renderGroups binders) ++ rest))) := by
      simp only [renderGroups, List.map_cons, String.join_cons, Text.ofString_append,
        List.append_assoc]
      rfl
    simp only [htext, groupWords, List.cons_append, List.append_assoc]
    exact .blank (.openParen (.ident (isIdentifier_of_isBindable hx) (.blank _) (.blank (.colon
      (.blank (Term.spells_render ha.legible (.close _) (.closeParen (ih hbinders))))))))

/-- A name may stand before parameters. -/
theorem breaks_renderGroups {binders : Telescope} (h : Breaks rest) :
    Breaks (Text.ofString binders.renderGroups ++ rest) := by
  cases binders with
  | nil => exact h
  | cons b binders =>
    simp only [renderGroups, List.map_cons, String.join_cons, Text.ofString_append,
      List.append_assoc]
    exact .blank _

theorem spells_renderClauses {scope : List String} {constructors : Telescope}
    (h : ∀ c ∈ constructors, isDeclarable c.1 = true ∧ c.2.Legible scope) (hbreak : Breaks rest)
    (hrest : Spells rest following) :
    Spells (Text.ofString constructors.renderClauses ++ rest)
      (clauseWords constructors ++ following) := by
  -- the text of one constructor, in front of what follows it
  have hclause : ∀ {c : String} {a : Term} {rest : Text} {following : List Word},
      isDeclarable c = true → a.Legible scope → Breaks rest → Spells rest following →
      Spells (Text.ofString (" " ++ c ++ " : " ++ a.render) ++ rest)
        (.ident c :: .colon :: a.words ++ following) := by
    intro c a rest following hc ha hbreak hrest
    have htext : Text.ofString (" " ++ c ++ " : " ++ a.render) ++ rest =
        .char ' ' :: (Text.ofString c ++ .char ' ' :: .char ':' :: .char ' ' ::
          (Text.ofString a.render ++ rest)) := by
      simp only [Text.ofString_append, List.append_assoc]
      rfl
    simp only [htext, List.cons_append]
    exact .blank (.ident (isIdentifier_of_isDeclarable hc) (.blank _) (.blank (.colon (.blank
      (Term.spells_render ha.legible hbreak hrest)))))
  fun_induction clauseWords constructors with
  | case1 => exact hrest
  | case2 c a =>
    obtain ⟨hc, ha⟩ := h (c, a) List.mem_cons_self
    exact hclause hc ha hbreak hrest
  | case3 c a constructors hne ih =>
    obtain ⟨hc, hconstructors⟩ := List.forall_mem_cons.1 h
    have htext : Text.ofString (renderClauses ((c, a) :: constructors)) ++ rest =
        Text.ofString (" " ++ c ++ " : " ++ a.render) ++ .char ' ' :: .char '|' ::
          (Text.ofString (renderClauses constructors) ++ rest) := by
      rw [renderClauses, List.map_cons, String.intercalate_cons_of_ne_nil (by simpa using hne),
        Text.ofString_append, Text.ofString_append, List.append_assoc, List.append_assoc]
      rfl
    rw [htext, List.append_assoc]
    exact hclause hc.1 hc.2 (.blank _) (.blank (.bar (ih hconstructors)))

end Telescope

/-- The type that may stand before the body of a declaration, as it is written. -/
def renderType : Option Term → String
  | none => ""
  | some a => " : " ++ a.render

/-- The words of the type that may stand before the body of a declaration. -/
def typeWords : Option Term → List Word
  | none => []
  | some a => .colon :: a.words

theorem breaks_renderType (type : Option Term) (rest : Text) :
    Breaks (Text.ofString (renderType type) ++ .char ' ' :: rest) := by
  cases type with
  | none => exact .blank _
  | some a =>
    rw [renderType, Text.ofString_append, List.append_assoc]
    exact .blank _

theorem spells_renderType {scope : List String} {type : Option Term}
    (h : ∀ a ∈ type, a.Legible scope) (hrest : Spells (.char ' ' :: rest) following) :
    Spells (Text.ofString (renderType type) ++ .char ' ' :: rest)
      (typeWords type ++ following) := by
  cases type with
  | none => exact hrest
  | some a =>
    have htext : Text.ofString (renderType (some a)) ++ .char ' ' :: rest =
        .char ' ' :: .char ':' :: .char ' ' :: (Text.ofString a.render ++ .char ' ' :: rest) := by
      simp only [renderType, Text.ofString_append, List.append_assoc]
      rfl
    rw [htext]
    exact .blank (.colon (.blank (Term.spells_render (h a rfl).legible (.blank _) hrest)))

namespace Declaration

/-- The words of a declaration, up to its period. -/
def words : Declaration → List Word
  | definition x type body =>
    .ident "Definition" :: .ident x :: typeWords type ++ .assign :: body.words
  | postulate x type => .ident "Axiom" :: .ident x :: .colon :: type.words
  | family x params sort constructors =>
    .ident "Inductive" :: .ident x :: Telescope.groupWords params ++ typeWords sort ++
      .assign :: Telescope.clauseWords constructors

theorem spells_render {d : Declaration} (h : d.Legible) :
    Spells (Text.ofString d.render) (d.words ++ [.dot, .endOfInput]) := by
  have hend : Spells [.char '.'] [.dot, .endOfInput] := Spells.nil.dot
  cases d with
  | definition x type body =>
    obtain ⟨hx, htype, hbody⟩ := h
    have hrender : (definition x type body).render =
        "Definition " ++ x ++ renderType type ++ " := " ++ body.render ++ "." := by
      cases type with
      | none =>
        rw [renderType, String.append_empty]
        rfl
      | some a =>
        rw [renderType, ← String.append_assoc]
        rfl
    have htext : Text.ofString (definition x type body).render =
        Text.ofString "Definition" ++ .char ' ' :: (Text.ofString x ++
          (Text.ofString (renderType type) ++ .char ' ' :: .char ':' :: .char '=' :: .char ' ' ::
            (Text.ofString body.render ++ [.char '.']))) := by
      simp only [hrender, Text.ofString_append, List.append_assoc]
      rfl
    simp only [htext, words, List.cons_append, List.append_assoc]
    exact .ident (by decide) (.blank _) (.blank (.ident (isIdentifier_of_isDeclarable hx)
      (breaks_renderType _ _) (spells_renderType htype (.blank (.assign (.blank
        (Term.spells_render hbody.legible .period hend)))))))
  | postulate x type =>
    have hrender : (postulate x type).render = "Axiom " ++ x ++ " : " ++ type.render ++ "." := rfl
    have htext : Text.ofString (postulate x type).render =
        Text.ofString "Axiom" ++ .char ' ' :: (Text.ofString x ++ .char ' ' :: .char ':' ::
          .char ' ' :: (Text.ofString type.render ++ [.char '.'])) := by
      simp only [hrender, Text.ofString_append, List.append_assoc]
      rfl
    simp only [htext, words, List.cons_append]
    exact .ident (by decide) (.blank _) (.blank (.ident (isIdentifier_of_isDeclarable h.1)
      (.blank _) (.blank (.colon (.blank (Term.spells_render h.2.legible .period hend))))))
  | family x params sort constructors =>
    obtain ⟨hx, hparams, hsort, hconstructors⟩ := h
    have hrender : (family x params sort constructors).render = "Inductive " ++ x ++
        Telescope.renderGroups params ++ renderType sort ++ " :=" ++
          Telescope.renderClauses constructors ++ "." := by
      cases sort <;> rfl
    have htext : Text.ofString (family x params sort constructors).render =
        Text.ofString "Inductive" ++ .char ' ' :: (Text.ofString x ++
          (Text.ofString (Telescope.renderGroups params) ++ (Text.ofString (renderType sort) ++
            .char ' ' :: .char ':' :: .char '=' ::
              (Text.ofString (Telescope.renderClauses constructors) ++ [.char '.'])))) := by
      simp only [hrender, Text.ofString_append, List.append_assoc]
      rfl
    simp only [htext, words, List.cons_append, List.append_assoc]
    exact .ident (by decide) (.blank _) (.blank (.ident (isIdentifier_of_isDeclarable hx)
      (Telescope.breaks_renderGroups (breaks_renderType _ _)) (Telescope.spells_renderGroups hparams
        (spells_renderType hsort (.blank (.assign
          (Telescope.spells_renderClauses hconstructors .period hend)))))))

end Declaration

namespace Statement

/-- The words of a statement, up to its period. -/
def words : Statement → List Word
  | declare d => d.words
  | check t => .ident "Check" :: t.words
  | eval t => .ident "Eval" :: t.words
  | hint x => [.ident "Hint", .ident x]

/-- A word that announces a term, the term and a period. -/
theorem spells_query {word : String} {t : Term} (hword : isIdentifier word = true)
    (h : t.Legible []) : Spells (Text.ofString word ++ .char ' ' ::
      (Text.ofString t.render ++ [.char '.'])) (.ident word :: (t.words ++ [.dot, .endOfInput])) :=
  .ident hword (.blank _) (.blank (Term.spells_render h.legible .period Spells.nil.dot))

/-- **What is printed for a legible statement is read as its words, and a period.** -/
theorem spells_render {s : Statement} (h : s.Legible) :
    Spells (Text.ofString s.render) (s.words ++ [.dot, .endOfInput]) := by
  cases s with
  | declare d => exact Declaration.spells_render h
  | check t =>
    have htext : Text.ofString (check t).render =
        Text.ofString "Check" ++ .char ' ' :: (Text.ofString t.render ++ [.char '.']) := by
      simp only [render, Text.ofString_append, List.append_assoc]
      rfl
    rw [htext]
    exact spells_query (by decide) h
  | eval t =>
    have htext : Text.ofString (eval t).render =
        Text.ofString "Eval" ++ .char ' ' :: (Text.ofString t.render ++ [.char '.']) := by
      simp only [render, Text.ofString_append, List.append_assoc]
      rfl
    rw [htext]
    exact spells_query (by decide) h
  | hint x =>
    have htext : Text.ofString (hint x).render =
        Text.ofString "Hint" ++ .char ' ' :: (Text.ofString x ++ [.char '.']) := by
      simp only [render, Text.ofString_append, List.append_assoc]
      rfl
    rw [htext]
    exact .ident (by decide) (.blank _)
      (.blank (.ident (isIdentifier_of_isDeclarable h) .period Spells.nil.dot))

end Statement

end Statements

end ProofKernel
