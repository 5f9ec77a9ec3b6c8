import ProofKernel.Proofs.Nameless.Interpretation
import ProofKernel.Script.Command

/-!
# Terms and statements that can be written down

A printed term does not tell variables from globals, nor the names of variables that are not used.
What it says can still be read back from it, as long as its names are words that are read as names
and no global has the name of a binder around it.

* `Term.Legible` are such terms, closed up to the names of a scope; `Statement.Legible` are the
  statements made of them.
* `Term.withArrows` is a term with an arrow for each product whose variable is not used: this is
  what is read back.  It has the same nameless form (`Term.nameless_withArrows`).
* `Statement.EqUpToBound` compares statements up to the names of bound variables.
-/

set_option autoImplicit false
namespace ProofKernel

/-! ## Names -/

/-- An ASCII identifier: a letter or an underscore, then letters, digits, underscores and primes. -/
def isIdentifier (x : String) : Bool :=
  match x.toList with
  | [] => false
  | c :: rest =>
    (c.isAlpha || c == '_') && rest.all fun d => d.isAlphanum || d == '_' || d == '\''

/-- The names of sorts: `Prop`, and `Type` with or without the digits of a level. -/
def namesSort (x : String) : Bool :=
  x == "Prop" || ("Type".toList.isPrefixOf x.toList && (x.toList.drop 4).all Char.isDigit)

/-- The identifiers that can be declared: all but the keywords. -/
def isDeclarable (x : String) : Bool :=
  isIdentifier x && !Word.keywords.contains x

/-- The identifiers that can be referred to: those that stand for no sort and no hole. -/
def isReferable (x : String) : Bool :=
  isDeclarable x && !(x == Term.placeholder) && !namesSort x

/-- The names a binder may have.  The placeholder is one, since it cannot be referred to. -/
def isBindable (x : String) : Bool :=
  x == Term.placeholder || isReferable x

theorem isDeclarable_of_isReferable {x : String} (h : isReferable x = true) :
    isDeclarable x = true := by
  simp only [isReferable, Bool.and_eq_true] at h
  exact h.1.1

theorem ne_placeholder_of_isReferable {x : String} (h : isReferable x = true) :
    x ≠ Term.placeholder := by
  rintro rfl
  simp [isReferable] at h

theorem isDeclarable_of_isBindable {x : String} (h : isBindable x = true) :
    isDeclarable x = true := by
  rw [isBindable, Bool.or_eq_true, beq_iff_eq] at h
  rcases h with rfl | h
  · decide
  · exact isDeclarable_of_isReferable h

theorem isIdentifier_of_isDeclarable {x : String} (h : isDeclarable x = true) :
    isIdentifier x = true := by
  rw [isDeclarable, Bool.and_eq_true] at h
  exact h.1

theorem isIdentifier_of_isReferable {x : String} (h : isReferable x = true) :
    isIdentifier x = true :=
  isIdentifier_of_isDeclarable (isDeclarable_of_isReferable h)

theorem isIdentifier_of_isBindable {x : String} (h : isBindable x = true) :
    isIdentifier x = true :=
  isIdentifier_of_isDeclarable (isDeclarable_of_isBindable h)

/-! ## Terms -/

/-- The universes with a level that is not negative. -/
def Universe.legible : Universe → Bool
  | prop => true
  | type level => 0 ≤ level

/-- The characters of a legible text: those of ASCII that can be printed, line breaks and
tabulators. -/
def isLegibleChar (c : Char) : Bool :=
  c == '\n' || c == '\t' || (0x20 ≤ c.toNat && c.toNat < 0x7F)

/-- Whole numbers, and texts of legible characters. -/
def Literal.legible : Literal → Bool
  | int _ => true
  | float _ => false
  | text value => value.toList.all isLegibleChar

namespace Term

/-- Whether a term inside binders of these names is made of legible parts, without a match, and
has no global with the name of a binder around it. -/
@[simp] def legible (around : List String) : Term → Bool
  | sort u => u.legible
  | var x => isReferable x
  | global x => isReferable x && !around.contains x
  | pi x a b | lam x a b => isBindable x && a.legible around && b.legible (x :: around)
  | app f a => f.legible around && a.legible around
  | elim .. => false
  | fix x b => isBindable x && b.legible (x :: around)
  | lit l => l.legible
  | hole => true

/-- A legible term that is closed up to the names of a scope. -/
structure Legible (scope : List String) (t : Term) : Prop where
  bound : t.freeVars ⊆ scope
  legible : t.legible scope = true

variable {around around' : List String} {t : Term}

/-- A term is legible with fewer binders around it. -/
theorem legible_of_subset (h : t.legible around = true) (hsub : around' ⊆ around) :
    t.legible around' = true := by
  induction t generalizing around around' with
  | sort | var | lit | hole => exact h
  | elim => cases h
  | global x =>
    simp only [legible, Bool.and_eq_true, Bool.not_eq_true', List.contains_eq_mem,
      decide_eq_false_iff_not] at h ⊢
    exact ⟨h.1, fun hx => h.2 (hsub hx)⟩
  | pi x a b iha ihb | lam x a b iha ihb =>
    simp only [legible, Bool.and_eq_true] at h ⊢
    exact ⟨⟨h.1.1, iha h.1.2 hsub⟩, ihb h.2 (List.cons_subset_cons x hsub)⟩
  | app f a ihf iha =>
    simp only [legible, Bool.and_eq_true] at h ⊢
    exact ⟨ihf h.1 hsub, iha h.2 hsub⟩
  | fix x b ihb =>
    simp only [legible, Bool.and_eq_true] at h ⊢
    exact ⟨h.1, ihb h.2 (List.cons_subset_cons x hsub)⟩

namespace Legible

variable {scope : List String} {x : String} {a b f : Term}

theorem freeVars_subset_cons (h : b.freeVars.filter (· != x) ⊆ scope) :
    b.freeVars ⊆ x :: scope := by
  intro y hy
  by_cases hyx : y = x
  · exact hyx ▸ List.mem_cons_self
  · exact List.mem_cons_of_mem _ (h (mem_filter_ne.2 ⟨hy, hyx⟩))

theorem of_lam (h : (Term.lam x a b).Legible scope) :
    isBindable x = true ∧ a.Legible scope ∧ b.Legible (x :: scope) := by
  obtain ⟨hbound, hlegible⟩ := h
  simp only [Term.legible, Bool.and_eq_true] at hlegible
  rw [freeVars, List.append_subset] at hbound
  exact ⟨hlegible.1.1, ⟨hbound.1, hlegible.1.2⟩, ⟨freeVars_subset_cons hbound.2, hlegible.2⟩⟩

theorem of_pi (h : (Term.pi x a b).Legible scope) :
    isBindable x = true ∧ a.Legible scope ∧ b.Legible (x :: scope) :=
  of_lam ⟨h.bound, h.legible⟩

theorem of_app (h : (Term.app f a).Legible scope) : f.Legible scope ∧ a.Legible scope := by
  obtain ⟨hbound, hlegible⟩ := h
  simp only [Term.legible, Bool.and_eq_true] at hlegible
  rw [freeVars, List.append_subset] at hbound
  exact ⟨⟨hbound.1, hlegible.1⟩, ⟨hbound.2, hlegible.2⟩⟩

theorem of_fix (h : (Term.fix x b).Legible scope) :
    isBindable x = true ∧ b.Legible (x :: scope) := by
  obtain ⟨hbound, hlegible⟩ := h
  simp only [Term.legible, Bool.and_eq_true] at hlegible
  exact ⟨hlegible.1, ⟨freeVars_subset_cons hbound, hlegible.2⟩⟩

end Legible

/-- The variables of a legible term can be referred to. -/
theorem isReferable_of_mem_freeVars (h : t.legible around = true) {y : String}
    (hy : y ∈ t.freeVars) : isReferable y = true := by
  induction t generalizing around with
  | sort | global | lit | hole => cases hy
  | elim => cases h
  | var x =>
    rw [freeVars, List.mem_singleton] at hy
    exact hy ▸ h
  | pi x a b iha ihb | lam x a b iha ihb =>
    simp only [legible, Bool.and_eq_true] at h
    rw [freeVars, List.mem_append, mem_filter_ne] at hy
    rcases hy with hy | hy
    · exact iha h.1.2 hy
    · exact ihb h.2 hy.1
  | app f a ihf iha =>
    simp only [legible, Bool.and_eq_true] at h
    rw [freeVars, List.mem_append] at hy
    rcases hy with hy | hy
    · exact ihf h.1 hy
    · exact iha h.2 hy
  | fix x b ihb =>
    simp only [legible, Bool.and_eq_true] at h
    rw [freeVars, mem_filter_ne] at hy
    exact ihb h.2 hy.1

/-! ## Arrows -/

/-- Whether a product over this variable is printed as an arrow. -/
def isArrow (x : String) (b : Term) : Bool :=
  x == placeholder || !occurs x b

/-- A term with an arrow for each product whose variable is not used. -/
@[simp] def withArrows : Term → Term
  | pi x a b =>
    if isArrow x b then arrow a.withArrows b.withArrows else pi x a.withArrows b.withArrows
  | lam x a b => lam x a.withArrows b.withArrows
  | app f a => app f.withArrows a.withArrows
  | fix x b => fix x b.withArrows
  | t => t

/-- The variable of an arrow is none of the variables of what it binds over. -/
theorem not_mem_freeVars_of_isArrow {x : String} {b : Term} (hb : b.legible around = true)
    (h : isArrow x b = true) : x ∉ b.freeVars := by
  intro hx
  rw [isArrow, Bool.or_eq_true, beq_iff_eq, Bool.not_eq_true'] at h
  rcases h with rfl | h
  · exact ne_placeholder_of_isReferable (isReferable_of_mem_freeVars hb hx) rfl
  · rw [(occurs_iff_mem_freeVars x b).2 hx] at h
    cases h

/-- What an arrow leads to is read in the scope of the arrow. -/
theorem Legible.of_isArrow {scope : List String} {x : String} {b : Term}
    (h : b.Legible (x :: scope)) (harrow : isArrow x b = true) : b.Legible scope where
  bound := by
    intro y hy
    have hyx : y ≠ x := by
      rintro rfl
      exact not_mem_freeVars_of_isArrow h.legible harrow hy
    exact (List.mem_cons.1 (h.bound hy)).resolve_left hyx
  legible := legible_of_subset h.legible (List.subset_cons_self _ _)

/-- **A term with arrows means the same.** -/
theorem interpret_withArrows (h : t.legible around = true) (σ : Naming) :
    t.withArrows.interpret σ = t.interpret σ := by
  induction t generalizing around σ with
  | sort | var | global | lit | hole => rfl
  | elim => cases h
  | pi x a b iha ihb =>
    simp only [legible, Bool.and_eq_true] at h
    rw [withArrows]
    split
    · next harrow =>
      rw [arrow, interpret, interpret, iha h.1.2, ihb h.2]
      congr 1
      -- neither name occurs in the body
      refine interpret_congr fun y hy => ?_
      have hyx : y ≠ x := by
        rintro rfl
        exact not_mem_freeVars_of_isArrow h.2 harrow hy
      have hplaceholder := ne_placeholder_of_isReferable (isReferable_of_mem_freeVars h.2 hy)
      rw [Naming.under_of_ne hplaceholder, Naming.under_of_ne hyx]
    · rw [interpret, interpret, iha h.1.2, ihb h.2]
  | lam x a b iha ihb =>
    simp only [legible, Bool.and_eq_true] at h
    rw [withArrows, interpret, interpret, iha h.1.2, ihb h.2]
  | app f a ihf iha =>
    simp only [legible, Bool.and_eq_true] at h
    rw [withArrows, interpret, interpret, ihf h.1, iha h.2]
  | fix x b ihb =>
    simp only [legible, Bool.and_eq_true] at h
    rw [withArrows, interpret, interpret, ihb h.2]

theorem nameless_withArrows (h : t.legible around = true) :
    t.withArrows.nameless = t.nameless :=
  interpret_withArrows h _

end Term

/-! ## Statements -/

namespace Telescope

/-- The names of binders and what each of them is over. -/
def nameless (binders : Telescope) : List (String × Nameless) :=
  binders.map fun (x, a) => (x, a.nameless)

def withArrows (binders : Telescope) : Telescope :=
  binders.map fun (x, a) => (x, a.withArrows)

/-- Legible binders, each in the scope of those before it. -/
def Legible (scope : List String) : Telescope → Prop
  | [] => True
  | (x, a) :: rest => isBindable x = true ∧ a.Legible scope ∧ Legible (x :: scope) rest

/-- The scope inside binders. -/
def scope (binders : Telescope) : List String :=
  (binders.map Prod.fst).reverse

theorem nameless_withArrows {binders : Telescope}
    (h : ∀ b ∈ binders, ∃ around, b.2.legible around = true) :
    binders.withArrows.nameless = binders.nameless := by
  rw [nameless, nameless, withArrows, List.map_map]
  refine List.map_congr_left fun b hb => ?_
  obtain ⟨around, hlegible⟩ := h b hb
  exact congrArg (Prod.mk b.1) (Term.nameless_withArrows hlegible)

theorem Legible.legible {scope : List String} {binders : Telescope} (h : Legible scope binders) :
    ∀ b ∈ binders, ∃ around, b.2.legible around = true := by
  induction binders generalizing scope with
  | nil => exact List.forall_mem_nil _
  | cons b rest ih => exact List.forall_mem_cons.2 ⟨⟨scope, h.2.1.legible⟩, ih h.2.2⟩

end Telescope

namespace Declaration

def withArrows : Declaration → Declaration
  | definition x type body => definition x (type.map Term.withArrows) body.withArrows
  | postulate x type => postulate x type.withArrows
  | family x params sort constructors =>
    family x (Telescope.withArrows params) (sort.map Term.withArrows)
      (Telescope.withArrows constructors)

/-- A declaration of closed legible terms.  The parameters of a type are in scope in its sort and
in the types of its constructors. -/
def Legible : Declaration → Prop
  | definition x type body =>
    isDeclarable x = true ∧ (∀ a ∈ type, a.Legible []) ∧ body.Legible []
  | postulate x type => isDeclarable x = true ∧ type.Legible []
  | family x params sort constructors =>
    isDeclarable x = true ∧ Telescope.Legible [] params ∧
      (∀ s ∈ sort, s.Legible (Telescope.scope params)) ∧
      ∀ c ∈ constructors, isDeclarable c.1 = true ∧ c.2.Legible (Telescope.scope params)

/-- The same kind of declaration, with the same names and the same terms up to bound names. -/
def EqUpToBound : Declaration → Declaration → Prop
  | definition x type body, definition y type' body' =>
    x = y ∧ type.map Term.nameless = type'.map Term.nameless ∧ body.nameless = body'.nameless
  | postulate x type, postulate y type' => x = y ∧ type.nameless = type'.nameless
  | family x params sort constructors, family y params' sort' constructors' =>
    x = y ∧ Telescope.nameless params = Telescope.nameless params' ∧
      sort.map Term.nameless = sort'.map Term.nameless ∧
      Telescope.nameless constructors = Telescope.nameless constructors'
  | _, _ => False

theorem map_nameless_withArrows {scope : List String} {type : Option Term}
    (h : ∀ a ∈ type, a.Legible scope) :
    (type.map Term.withArrows).map Term.nameless = type.map Term.nameless := by
  cases type with
  | none => rfl
  | some a => exact congrArg some (Term.nameless_withArrows (h a rfl).legible)

theorem Legible.eqUpToBound_withArrows {d : Declaration} (h : d.Legible) :
    d.withArrows.EqUpToBound d := by
  cases d with
  | definition x type body =>
    exact ⟨rfl, map_nameless_withArrows h.2.1, Term.nameless_withArrows h.2.2.legible⟩
  | postulate x type => exact ⟨rfl, Term.nameless_withArrows h.2.legible⟩
  | family x params sort constructors =>
    obtain ⟨_, hparams, hsort, hconstructors⟩ := h
    exact ⟨rfl, Telescope.nameless_withArrows hparams.legible, map_nameless_withArrows hsort,
      Telescope.nameless_withArrows fun c hc => ⟨_, (hconstructors c hc).2.legible⟩⟩

end Declaration

namespace Statement

def withArrows : Statement → Statement
  | declare d => declare d.withArrows
  | check t => check t.withArrows
  | eval t => eval t.withArrows
  | hint x => hint x

/-- A statement of closed legible terms. -/
def Legible : Statement → Prop
  | declare d => d.Legible
  | check t | eval t => t.Legible []
  | hint x => isDeclarable x = true

/-- The same kind of statement, with the same names and the same terms up to bound names. -/
def EqUpToBound : Statement → Statement → Prop
  | declare d, declare d' => d.EqUpToBound d'
  | check t, check t' | eval t, eval t' => t.nameless = t'.nameless
  | hint x, hint y => x = y
  | _, _ => False

theorem Legible.eqUpToBound_withArrows {s : Statement} (h : s.Legible) :
    s.withArrows.EqUpToBound s := by
  cases s with
  | declare d => exact Declaration.Legible.eqUpToBound_withArrows h
  | check t | eval t => exact Term.nameless_withArrows h.legible
  | hint x => exact rfl

end Statement

end ProofKernel
