import ProofKernel.Proofs.Script.Reading

/-!
# Parsing undoes printing

The text of a legible term is read as a term with the same nameless form, and the text of a legible
statement as the same statement up to the names of bound variables.

* `Parser.yields_statement`: a statement is read back from its words, up to its period.
* `parse_render`: what is printed is read back.
-/

set_option autoImplicit false
namespace ProofKernel
namespace Parser

variable {fuel : Nat} {scope : List String} {w : Word} {following : List Word}

/-! ## Parameters and constructors -/

theorem yields_groups_nil (hw : w ≠ .openParen) :
    Yields (groups fuel scope) (w :: following) [] (w :: following) := by
  cases fuel with
  | zero => exact .pure
  | succ n =>
    rw [groups]
    exact (yields_accept_of_ne hw).bind .pure

/-- Parameters are read back, each in the scope of those before it. -/
theorem yields_groups {binders : Telescope} (h : Telescope.Legible scope binders)
    (hfuel : 4 * (Telescope.groupWords binders).length ≤ fuel) (hw : w ≠ .openParen) :
    Yields (groups fuel scope) (Telescope.groupWords binders ++ w :: following)
      binders.withArrows (w :: following) := by
  induction binders generalizing fuel scope with
  | nil => exact yields_groups_nil hw
  | cons b binders ih =>
    obtain ⟨x, a⟩ := b
    obtain ⟨hx, ha, hbinders⟩ := h
    simp only [Telescope.groupWords, List.cons_append, List.length_cons, List.length_append]
      at hfuel
    obtain ⟨n, rfl⟩ : ∃ n, fuel = n + 2 := ⟨fuel - 2, by omega⟩
    simp only [Telescope.groupWords, List.cons_append, List.append_assoc]
    rw [groups]
    refine (yields_accept Word.noConfusion).bind ?_
    refine (yields_group (isDeclarable_of_isBindable hx)
      ((readable a).term ha (by omega) rfl)).bind ?_
    exact (yields_expect Word.noConfusion).bind ((ih hbinders (by omega)).bind .pure)

theorem yields_peekName? : Yields peekName? (w :: following) w.name? (w :: following) := by
  intro ts hts
  obtain ⟨t, rest, rfl, rfl, _⟩ := List.map_eq_cons_iff.1 hts
  exact ⟨_, rfl, hts⟩

/-- One constructor, and what is read after it. -/
theorem yields_constructor {c : String} {a : Term} {n : Nat} {ws after : List Word}
    {found : Telescope} (hc : isDeclarable c = true)
    (ha : Yields (term fuel scope) ws a following)
    (hrest : Yields (do
      if ← accept .bar then
        let rest ← constructors fuel scope n
        return (c, a) :: rest
      return [(c, a)]) following found after) :
    Yields (constructors fuel scope (n + 1)) (.ident c :: .colon :: ws) found after := by
  rw [constructors]
  refine yields_peekName?.bind ?_
  rw [name?_ident hc]
  exact (yields_name hc).bind ((yields_expect Word.noConfusion).bind (ha.bind hrest))

/-- Constructors are read back. -/
theorem yields_constructors {found : Telescope} {n : Nat}
    (h : ∀ c ∈ found, isDeclarable c.1 = true ∧ c.2.Legible scope)
    (hfuel : 4 * (Telescope.clauseWords found).length ≤ fuel) (hn : found.length ≤ n) :
    Yields (constructors fuel scope n) (Telescope.clauseWords found ++ .dot :: following)
      found.withArrows (.dot :: following) := by
  fun_induction Telescope.clauseWords found generalizing n with
  | case1 =>
    cases n with
    | zero => exact .pure
    | succ n =>
      rw [constructors]
      exact yields_peekName?.bind .pure
  | case2 c a =>
    obtain ⟨hc, ha⟩ := h (c, a) List.mem_cons_self
    obtain ⟨n, rfl⟩ : ∃ m, n = m + 1 := ⟨n - 1, by simp only [List.length_cons] at hn; omega⟩
    simp only [List.length_cons] at hfuel
    exact yields_constructor hc ((readable a).term ha (by omega) rfl)
      ((yields_accept_of_ne Word.noConfusion).bind .pure)
  | case3 c a found _ ih =>
    obtain ⟨hc, hfound⟩ := List.forall_mem_cons.1 h
    obtain ⟨n, rfl⟩ : ∃ m, n = m + 1 := ⟨n - 1, by simp only [List.length_cons] at hn; omega⟩
    simp only [List.cons_append, List.length_cons, List.length_append] at hfuel hn
    simp only [List.cons_append, List.append_assoc]
    exact yields_constructor hc.1 ((readable a).term hc.2 (by omega) rfl)
      ((yields_accept Word.noConfusion).bind ((ih hfound (by omega) (by omega)).bind .pure))

/-! ## Statements -/

theorem exists_typeWord (type : Option Term) (following : List Word) :
    ∃ w ws, typeWords type ++ .assign :: following = w :: ws ∧ w ≠ .openParen := by
  cases type with
  | none => exact ⟨_, _, rfl, Word.noConfusion⟩
  | some a => exact ⟨_, _, rfl, Word.noConfusion⟩

/-- The type that may stand before the body of a declaration is read back. -/
theorem yields_type? {α β : Type} {f : Term → α} {type : Option Term}
    {body : Option α → Parser β} {b : β} {after : List Word}
    (h : ∀ a ∈ type, a.Legible scope) (hfuel : 4 * (typeWords type).length ≤ fuel)
    (hbody : Yields (body (type.map fun a => f a.withArrows)) (.assign :: following) b after) :
    Yields (do
      if ← accept .colon then
        let type ← term fuel scope
        let type ← pure (some (f type))
        body type
      else
        let type ← pure none
        body type) (typeWords type ++ .assign :: following) b after := by
  cases type with
  | none => exact (yields_accept_of_ne Word.noConfusion).bind hbody
  | some a =>
    simp only [typeWords, List.length_cons] at hfuel
    exact (yields_accept Word.noConfusion).bind
      (((readable a).term (h a rfl) (by omega) rfl).bind hbody)

theorem yields_definition {x : String} {type : Option Term} {body : Term}
    (h : (Declaration.definition x type body).Legible)
    (hfuel : 4 * ((typeWords type).length + body.words.length) ≤ fuel) :
    Yields (definition fuel)
      (.ident x :: (typeWords type ++ .assign :: (body.words ++ .dot :: following)))
      (Declaration.definition x type body).withArrows (.dot :: following) := by
  obtain ⟨hx, htype, hbody⟩ := h
  obtain ⟨w, ws, hfirst, hw⟩ := exists_typeWord type (body.words ++ .dot :: following)
  have hgroups : Yields (groups fuel []) (w :: ws) [] (w :: ws) := yields_groups_nil hw
  rw [← hfirst] at hgroups
  unfold definition
  refine (yields_name hx).bind (hgroups.bind ?_)
  refine yields_type? htype (by omega) ((yields_expect Word.noConfusion).bind ?_)
  exact ((readable body).term hbody (by omega) rfl).bind .pure

theorem yields_postulate {x : String} {type : Term}
    (h : (Declaration.postulate x type).Legible) (hfuel : 4 * type.words.length ≤ fuel) :
    Yields (postulate fuel) (.ident x :: .colon :: (type.words ++ .dot :: following))
      (Declaration.postulate x type).withArrows (.dot :: following) := by
  unfold postulate
  refine (yields_name h.1).bind ((yields_groups_nil Word.noConfusion).bind ?_)
  refine (yields_expect Word.noConfusion).bind ?_
  exact ((readable type).term h.2 hfuel rfl).bind .pure

/-- The names of parameters are in scope behind them. -/
theorem extend_withArrows (params : Telescope) :
    extend [] (Telescope.withArrows params) = Telescope.scope params := by
  simp [extend, Telescope.withArrows, Telescope.scope, Function.comp_def]

/-- Each constructor has a word at least. -/
theorem length_le_clauseWords (found : Telescope) :
    found.length ≤ (Telescope.clauseWords found).length := by
  fun_induction Telescope.clauseWords found with
  | case1 => exact Nat.le_refl _
  | case2 c a => simp
  | case3 c a found _ ih =>
    simp only [List.cons_append, List.length_cons, List.length_append]
    omega

/-- No bar stands before the first constructor. -/
theorem yields_accept_bar (found : Telescope) :
    Yields (accept .bar) (Telescope.clauseWords found ++ .dot :: following) false
      (Telescope.clauseWords found ++ .dot :: following) := by
  fun_cases Telescope.clauseWords found <;> exact yields_accept_of_ne Word.noConfusion

theorem yields_family {x : String} {params : Telescope} {sort : Option Term}
    {constructors : Telescope} (h : (Declaration.family x params sort constructors).Legible)
    (hfuel : 4 * ((Telescope.groupWords params).length + (typeWords sort).length +
      (Telescope.clauseWords constructors).length) ≤ fuel) :
    Yields (family fuel) (.ident x :: (Telescope.groupWords params ++ (typeWords sort ++
        .assign :: (Telescope.clauseWords constructors ++ .dot :: following))))
      (Declaration.family x params sort constructors).withArrows (.dot :: following) := by
  obtain ⟨hx, hparams, hsort, hconstructors⟩ := h
  obtain ⟨w, ws, hfirst, hw⟩ :=
    exists_typeWord sort (Telescope.clauseWords constructors ++ .dot :: following)
  have hgroups : Yields (groups fuel []) (Telescope.groupWords params ++ w :: ws)
      (Telescope.withArrows params) (w :: ws) := yields_groups hparams (by omega) hw
  rw [← hfirst] at hgroups
  unfold family
  refine (yields_name hx).bind (hgroups.bind ?_)
  rw [extend_withArrows]
  refine yields_type? (f := id) hsort (by omega) ((yields_expect Word.noConfusion).bind ?_)
  have hcount := length_le_clauseWords constructors
  refine (yields_accept_bar constructors).bind ?_
  exact (yields_constructors hconstructors (by omega) (by omega)).bind .pure

/-- **A statement is read back from its words**, up to its period. -/
theorem yields_statement {s : Statement} (h : s.Legible) (hfuel : 4 * s.words.length ≤ fuel) :
    Yields (statement fuel) (s.words ++ .dot :: following) s.withArrows (.dot :: following) := by
  unfold statement
  cases s with
  | declare d =>
    cases d with
    | definition x type body =>
      simp only [Statement.words, Declaration.words, List.cons_append, List.length_cons,
        List.length_append] at hfuel
      simp only [Statement.words, Declaration.words, List.cons_append, List.append_assoc]
      refine .peek fun token htoken => ?_
      rw [htoken]
      exact .advance Word.noConfusion fun _ => (yields_definition h (by omega)).bind .pure
    | postulate x type =>
      simp only [Statement.words, Declaration.words, List.length_cons] at hfuel
      refine .peek fun token htoken => ?_
      rw [htoken]
      exact .advance Word.noConfusion fun _ => (yields_postulate h (by omega)).bind .pure
    | family x params sort constructors =>
      simp only [Statement.words, Declaration.words, List.cons_append, List.length_cons,
        List.length_append] at hfuel
      simp only [Statement.words, Declaration.words, List.cons_append, List.append_assoc]
      refine .peek fun token htoken => ?_
      rw [htoken]
      exact .advance Word.noConfusion fun _ => (yields_family h (by omega)).bind .pure
  | check t =>
    simp only [Statement.words, List.length_cons] at hfuel
    refine .peek fun token htoken => ?_
    rw [htoken]
    exact .advance Word.noConfusion fun _ => ((readable t).term h (by omega) rfl).bind .pure
  | eval t =>
    simp only [Statement.words, List.length_cons] at hfuel
    refine .peek fun token htoken => ?_
    rw [htoken]
    exact .advance Word.noConfusion fun _ => ((readable t).term h (by omega) rfl).bind .pure
  | hint x =>
    refine .peek fun token htoken => ?_
    rw [htoken]
    exact .advance Word.noConfusion fun _ => (yields_name h).bind .pure

/-! ## Whole texts -/

/-- A text that spells words is read when its words are. -/
theorem exists_tokens {text : Text} {words : List Word} (h : Lexer.Spells text words) :
    ∃ ts, Lexer.tokens text.composed = .ok ts ∧ ts.map Token.word = words := by
  have hcomposed : text.composed = text := if_pos h.plain
  rw [hcomposed]
  exact h.tokens .start

theorem parseTerm_render {t : Term} (h : t.Legible []) :
    parseTerm (Text.ofString t.render) = .ok t.withArrows := by
  have hspells := Term.spells_render h.legible .nil .nil
  rw [List.append_nil] at hspells
  obtain ⟨ts, hts, hwords⟩ := exists_tokens hspells
  have hlength := congrArg List.length hwords
  rw [List.length_map, List.length_append] at hlength
  obtain ⟨rest, hread, hrest⟩ :=
    (readable t).term h (by rw [fuel]; omega : 4 * t.words.length ≤ fuel ts) rfl ts hwords
  obtain ⟨last, _, rfl, hlast, _⟩ := List.map_eq_cons_iff.1 hrest
  exact whole_eq_ok_iff.2 ⟨ts, _, hts, hread, sees_cons.2 hlast⟩

theorem parseCommand_render {s : Statement} (h : s.Legible) :
    ∃ c, parseCommand (Text.ofString s.render) = .ok c ∧ c.statement = s.withArrows := by
  obtain ⟨ts, hts, hwords⟩ := exists_tokens (Statement.spells_render h)
  have hlength := congrArg List.length hwords
  rw [List.length_map, List.length_append] at hlength
  obtain ⟨rest, hread, hrest⟩ :=
    yields_statement h (by rw [fuel]; omega : 4 * s.words.length ≤ fuel ts) ts hwords
  obtain ⟨d, rest, rfl, hd, hrest⟩ := List.map_eq_cons_iff.1 hrest
  obtain ⟨last, _, rfl, hlast, _⟩ := List.map_eq_cons_iff.1 hrest
  obtain ⟨c, hc, hstatement, _⟩ := command_of_dot false hread hd
  exact ⟨c, whole_eq_ok_iff.2 ⟨ts, _, hts, hc, sees_cons.2 hlast⟩, hstatement⟩

end Parser

/-- **Parsing undoes printing.**  What is printed for a closed legible term is read as a term of the
same nameless form, and what is printed for a legible statement as a statement of the same kind,
with the same names and the same terms up to bound names. -/
theorem parse_render :
    (∀ t : Term, t.Legible [] →
      ∃ t', parseTerm (Text.ofString t.render) = .ok t' ∧ t'.nameless = t.nameless) ∧
    ∀ s : Statement, s.Legible →
      ∃ c, parseCommand (Text.ofString s.render) = .ok c ∧ c.statement.EqUpToBound s := by
  refine ⟨fun t h => ⟨_, Parser.parseTerm_render h, Term.nameless_withArrows h.legible⟩, ?_⟩
  intro s h
  obtain ⟨c, hc, hstatement⟩ := Parser.parseCommand_render h
  exact ⟨c, hc, hstatement ▸ h.eqUpToBound_withArrows⟩

open Term in
/-- A function with a fixpoint, a product, an arrow, a negative number and a text with a line break
and quotes in it; and a type of lists, with products whose variables are not used. -/
theorem parse_render_lists :
    let t := lam "A" (sort (.type 0)) (fix "f" (lam "x" (pi "_" (var "A") hole)
      (app (pi "n" (global "nat") (app (var "f") (var "n")))
        (app (lit (.text "a\n\"b\"")) (lit (.int (-5)))))))
    let s := Statement.declare (.family "list" [("A", sort (.type 0))] (some (sort (.type 0)))
      [("nil", app (global "list") (var "A")),
        ("cons", pi "head" (var "A") (pi "tail" (app (global "list") (var "A"))
          (app (global "list") (var "A"))))])
    t.Legible [] ∧
    (∃ t', parseTerm (Text.ofString t.render) = .ok t' ∧ t'.nameless = t.nameless) ∧
    s.Legible ∧
    ∃ c, parseCommand (Text.ofString s.render) = .ok c ∧ c.statement.EqUpToBound s := by
  intro t s
  have ht : t.Legible [] := ⟨by decide, by decide⟩
  have hs : s.Legible := by
    refine ⟨by decide, ⟨by decide, ⟨by decide, by decide⟩, trivial⟩, ?_, ?_⟩
    · rintro _ ⟨⟩
      exact ⟨by decide, by decide⟩
    · refine List.forall_mem_cons.2 ⟨⟨by decide, by decide, by decide⟩, ?_⟩
      refine List.forall_mem_cons.2 ⟨⟨by decide, by decide, by decide⟩, ?_⟩
      exact List.forall_mem_nil _
  exact ⟨ht, parse_render.1 t ht, hs, parse_render.2 s hs⟩

end ProofKernel
