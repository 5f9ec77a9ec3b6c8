import ProofKernel.Proofs.Nameless.Telescope
import ProofKernel.Script.Parser

/-!
# The concrete syntax of terms

Terms as they are written, one constructor for each rule of the grammar.  Nothing is resolved yet:
an identifier is its name, and the type of a group of binders is written once.

* `Grammar.Phrase` is a term as it is written, `Phrase.words` are its words.
* `Phrase.Orderly` says that nothing is left for the reader to guess: a number after `Type` is its
  level, and cases and `end` belong to the innermost `match` they can belong to.
* `Phrase.resolve` is the nameless form in which every identifier refers to the innermost binder of
  its name whose scope it stands in.
* `Phrase.elaborate` is the term with names that is built from a phrase.  It copies the type of a
  group under binders of the group; `Phrase.captures` says whether one of them gets in the way.
* `Inherited` is a property of terms in a scope that goes from the parts of a term to the whole;
  what is built from a phrase has it (`Phrase.inherits`).
-/

set_option autoImplicit false
namespace ProofKernel
namespace Grammar

/-! ## Words -/

/-- The term that a word stands for wherever it stands: a literal, a sort or a hole. -/
def constant? : Word → Option Term
  | .integer digits => (Parser.readInt? digits).map fun value => .lit (.int value)
  | .float digits => (Parser.readFloat? digits).map fun value => .lit (.float value)
  | .string value => some (.lit (.text value))
  | .ident x =>
    if x = Term.placeholder then some .hole
    else if x = "Prop" then some (.sort .prop)
    else if x = "Type" then some (.sort (.type 0))
    else ((Parser.levelDigits? x).bind Parser.readLevel?).map fun level => .sort (.type level)
  | _ => none

/-- Whether a word after `Type` is read as its level: a number without a sign. -/
def isLevel : Word → Bool
  | .integer digits => !digits.startsWith "-"
  | _ => false

/-- The level that a word gives after `Type`. -/
def level? : Word → Option Int64
  | .integer digits => if digits.startsWith "-" then none else Parser.readLevel? digits.toList
  | _ => none

theorem le_of_readLevel? {digits : List Char} {level : Int64}
    (h : Parser.readLevel? digits = some level) : 0 ≤ level := by
  rw [Parser.readLevel?] at h
  split_ifs at h with hle
  cases h
  refine Int64.zero_le_ofNat_of_lt ?_
  rw [Int64.toInt_maxValue] at hle
  omega

theorem le_of_level? {w : Word} {level : Int64} (h : level? w = some level) : 0 ≤ level := by
  unfold level? at h
  split at h
  · split_ifs at h
    exact le_of_readLevel? h
  · cases h

/-- A word that stands for a term by itself stands for a literal, a hole or a sort. -/
theorem constant?_cases {w : Word} {t : Term} (h : constant? w = some t) :
    (∃ value, t = .lit value) ∨ t = .hole ∨ t = .sort .prop ∨
      ∃ level : Int64, 0 ≤ level ∧ t = .sort (.type level) := by
  unfold constant? at h
  split at h
  · obtain ⟨_, _, rfl⟩ := Option.map_eq_some_iff.1 h
    exact .inl ⟨_, rfl⟩
  · obtain ⟨_, _, rfl⟩ := Option.map_eq_some_iff.1 h
    exact .inl ⟨_, rfl⟩
  · cases h
    exact .inl ⟨_, rfl⟩
  · split_ifs at h
    · cases h
      exact .inr (.inl rfl)
    · cases h
      exact .inr (.inr (.inl rfl))
    · cases h
      exact .inr (.inr (.inr ⟨0, Int64.le_refl 0, rfl⟩))
    · obtain ⟨level, hlevel, rfl⟩ := Option.map_eq_some_iff.1 h
      obtain ⟨_, _, hread⟩ := Option.bind_eq_some_iff.1 hlevel
      exact .inr (.inr (.inr ⟨level, le_of_readLevel? hread, rfl⟩))
  · cases h

/-- Whether an identifier refers to a binder or a global: one that is no keyword, sort or hole. -/
def refers (x : String) : Bool :=
  x ∉ Word.keywords && x ≠ Term.placeholder && x ≠ "Prop" && x ≠ "Type" &&
    (Parser.levelDigits? x).isNone

/-- Names of binders. -/
structure Names where
  list : List String
  bindable : ∀ x ∈ list, x ∉ Word.keywords

def Names.words (xs : Names) : List Word :=
  xs.list.map .ident

/-- What binds groups of names in a term. -/
inductive Quantifier where
  | lam
  | pi
deriving DecidableEq

namespace Quantifier

def keyword : Quantifier → String
  | lam => "fun"
  | pi => "forall"

/-- The word between the binders and the body. -/
def separator : Quantifier → Word
  | lam => .doubleArrow
  | pi => .comma

/-- The term that binds a telescope. -/
def close : Quantifier → Telescope → Term → Term
  | lam => Term.lams
  | pi => Term.pis

/-- One binder of a nameless term. -/
def form : Quantifier → Nameless → Nameless → Nameless
  | lam => .lam
  | pi => .pi

end Quantifier

/-! ## Phrases -/

mutual

/-- What needs no parentheses as an argument. -/
inductive Atom where
  | constant (w : Word) (t : Term) (h : constant? w = some t)
  /-- `Type` with a level as a word of its own. -/
  | leveled (w : Word) (level : Int64) (h : level? w = some level)
  | name (x : String) (h : refers x = true)
  | paren (inner : Phrase)

/-- The arguments of an application. -/
inductive Args where
  | nil
  | cons (arg : Atom) (rest : Args)

/-- An atom applied to others. -/
inductive Application where
  | mk (head : Atom) (args : Args)

/-- A term. -/
inductive Phrase where
  | application (a : Application)
  | arrow (left : Application) (right : Phrase)
  /-- `fun` or `forall`, with a bare group of binders or with groups in parentheses. -/
  | bind (q : Quantifier) (bare : Bool) (groups : Groups) (body : Phrase)
  | fix (self : String) (h : self ∉ Word.keywords) (body : Phrase)
  /-- A match, which may be closed by `end`. -/
  | elim (scrutinee motive : Application) (cases : Cases) (ended : Bool)

/-- Groups of names that share a type. -/
inductive Groups where
  | nil
  | cons (names : Names) (h : names.list ≠ []) (type : Phrase) (rest : Groups)

/-- The cases of a match: a constructor, the names of its fields, and a term. -/
inductive Cases where
  | nil
  | cons (constructor : String) (h : constructor ∉ Word.keywords) (fields : Names) (body : Phrase)
      (rest : Cases)

end

/-- The names that groups bind, outermost first. -/
def Groups.names : Groups → List String
  | nil => []
  | cons names _ _ rest => names.list ++ rest.names

/-- Whether groups can be written bare, or in parentheses. -/
def Groups.fits : Bool → Groups → Bool
  | true, cons _ _ _ nil => true
  | false, cons _ _ _ _ => true
  | _, _ => false

/-! ## The words of a phrase -/

/-- The word that may close a match. -/
def closing (ended : Bool) : List Word :=
  if ended then [.ident "end"] else []

mutual

def Atom.words : Atom → List Word
  | .constant w _ _ => [w]
  | .leveled w _ _ => [.ident "Type", w]
  | .name x _ => [.ident x]
  | .paren inner => .openParen :: inner.words ++ [.closeParen]

def Args.words : Args → List Word
  | .nil => []
  | .cons arg rest => arg.words ++ rest.words

def Application.words : Application → List Word
  | .mk head args => head.words ++ args.words

/-- The words of a phrase. -/
def Phrase.words : Phrase → List Word
  | .application a => a.words
  | .arrow left right => left.words ++ .arrow :: right.words
  | .bind q bare groups body =>
    .ident q.keyword :: groups.words bare ++ q.separator :: body.words
  | .fix self _ body => .ident "fix" :: .ident self :: .doubleArrow :: body.words
  | .elim scrutinee motive cases ended =>
    .ident "match" :: scrutinee.words ++ .ident "return" :: motive.words ++
      .ident "with" :: cases.words ++ closing ended

/-- The words of groups, each in parentheses unless it is bare. -/
def Groups.words : Bool → Groups → List Word
  | _, .nil => []
  | true, .cons names _ type rest => names.words ++ .colon :: type.words ++ rest.words true
  | false, .cons names _ type rest =>
    .openParen :: names.words ++ .colon :: type.words ++ .closeParen :: rest.words false

def Cases.words : Cases → List Word
  | .nil => []
  | .cons constructor _ fields body rest =>
    .bar :: .ident constructor :: fields.words ++ .doubleArrow :: body.words ++ rest.words

end

/-! ## Orderly phrases -/

/-- The word that comes first; behind all words is the end of input. -/
def front (ws : List Word) : Word :=
  ws.head?.getD .endOfInput

/-- The first word of an atom. -/
def Atom.first : Atom → Word
  | constant w _ _ => w
  | leveled _ _ _ => .ident "Type"
  | name x _ => .ident x
  | paren _ => .openParen

/-- Whether a word right behind an atom is read as part of it. -/
def Atom.takes : Atom → Word → Bool
  | constant first _ _, w => first = .ident "Type" && isLevel w
  | _, _ => false

def Cases.isNil : Cases → Bool
  | nil => true
  | cons _ _ _ _ _ => false

mutual

/-- Whether a word right behind a phrase is read as part of it. -/
def Phrase.takes : Phrase → Word → Bool
  | .application _, w => Parser.startsAtom w || w = .arrow
  | .arrow _ right, w => right.takes w
  | .bind _ _ _ body, w | .fix _ _ body, w => body.takes w
  | .elim _ _ cases ended, w => !ended && (w = .ident "end" || cases.takes w)

/-- Whether a word right behind cases is read as part of them. -/
def Cases.takes : Cases → Word → Bool
  | .nil, w => w = .bar
  | .cons _ _ _ body rest, w => rest.isNil && body.takes w || rest.takes w

end

mutual

def Atom.Orderly : Atom → Prop
  | .paren inner => inner.Orderly
  | _ => True

/-- The arguments after an atom are no part of it. -/
def Args.Orderly : Atom → Args → Prop
  | _, .nil => True
  | before, .cons arg rest => before.takes arg.first = false ∧ arg.Orderly ∧ rest.Orderly arg

def Application.Orderly : Application → Prop
  | .mk head args => head.Orderly ∧ args.Orderly head

/-- No word of a phrase could be read as part of what stands before it. -/
def Phrase.Orderly : Phrase → Prop
  | .application a => a.Orderly
  | .arrow left right => left.Orderly ∧ right.Orderly
  | .bind _ bare groups body => groups.fits bare = true ∧ groups.Orderly ∧ body.Orderly
  | .fix _ _ body => body.Orderly
  | .elim scrutinee motive cases ended =>
    scrutinee.Orderly ∧ motive.Orderly ∧ cases.Orderly ∧
      (ended = true → cases.takes (.ident "end") = false)

def Groups.Orderly : Groups → Prop
  | .nil => True
  | .cons _ _ type rest => type.Orderly ∧ rest.Orderly

/-- A case ends before the next one begins. -/
def Cases.Orderly : Cases → Prop
  | .nil => True
  | .cons _ _ _ body rest =>
    body.Orderly ∧ rest.Orderly ∧ (rest.isNil = false → body.takes .bar = false)

end

/-! ## Terms with names -/

mutual

/-- The term that is built from a phrase where these names are in scope. -/
def Atom.elaborate (scope : List String) : Atom → Term
  | .constant _ t _ => t
  | .leveled _ level _ => .sort (.type level)
  | .name x _ => if x ∈ scope then .var x else .global x
  | .paren inner => inner.elaborate scope

def Args.elaborate (scope : List String) (fn : Term) : Args → Term
  | .nil => fn
  | .cons arg rest => rest.elaborate scope (.app fn (arg.elaborate scope))

def Application.elaborate (scope : List String) : Application → Term
  | .mk head args => args.elaborate scope (head.elaborate scope)

def Phrase.elaborate (scope : List String) : Phrase → Term
  | .application a => a.elaborate scope
  | .arrow left right => .arrow (left.elaborate scope) (right.elaborate scope)
  | .bind q _ groups body =>
    q.close (groups.elaborate scope) (body.elaborate (groups.names.reverse ++ scope))
  | .fix self _ body => .fix self (body.elaborate (self :: scope))
  | .elim scrutinee motive cases _ =>
    .elim (scrutinee.elaborate scope) (motive.elaborate scope) (cases.elaborate scope)

/-- Each name of a group gets a copy of its type. -/
def Groups.elaborate (scope : List String) : Groups → Telescope
  | .nil => []
  | .cons names _ type rest =>
    (names.list.map fun x => (x, type.elaborate scope)) ++
      rest.elaborate (names.list.reverse ++ scope)

def Cases.elaborate (scope : List String) : Cases → List Term
  | .nil => []
  | .cons _ _ fields body rest =>
    Term.lams (fields.list.map fun x => (x, .global Term.placeholder))
      (body.elaborate (fields.list.reverse ++ scope)) :: rest.elaborate scope

end

theorem Groups.map_fst_elaborate (scope : List String) :
    ∀ groups : Groups, (groups.elaborate scope).map Prod.fst = groups.names
  | .nil => rfl
  | .cons names _ type rest => by
    rw [Groups.elaborate, List.map_append, List.map_map, rest.map_fst_elaborate, Groups.names]
    exact congrArg (· ++ rest.names) (List.map_id _)

/-- A property of terms in a scope, and one of the telescopes in them, that go from the parts of a
term to the whole. -/
structure Inherited (P : List String → Term → Prop) (T : List String → Telescope → Prop) :
    Prop where
  constant {scope : List String} {w : Word} {t : Term} (h : constant? w = some t) : P scope t
  leveled {scope : List String} {w : Word} {level : Int64} (h : level? w = some level) :
    P scope (.sort (.type level))
  name (scope : List String) (x : String) : P scope (if x ∈ scope then .var x else .global x)
  app {scope : List String} {f a : Term} (hf : P scope f) (ha : P scope a) : P scope (.app f a)
  arrow {scope : List String} {a b : Term} (ha : P scope a) (hb : P scope b) :
    P scope (.arrow a b)
  close {scope : List String} {q : Quantifier} {binders : Telescope} {t : Term}
    (hbinders : T scope binders) (ht : P ((binders.map Prod.fst).reverse ++ scope) t) :
    P scope (q.close binders t)
  fix {scope : List String} {self : String} {b : Term} (hb : P (self :: scope) b) :
    P scope (.fix self b)
  elim {scope : List String} {s m : Term} {cases : List Term} (hs : P scope s) (hm : P scope m)
    (hcases : ∀ c ∈ cases, P scope c) : P scope (.elim s m cases)
  nil (scope : List String) : T scope []
  /-- Names that share a type, and the binders after them. -/
  group {scope xs : List String} {a : Term} {rest : Telescope} (hxs : xs ≠ []) (ha : P scope a)
    (hrest : T (xs.reverse ++ scope) rest) : T scope (xs.map (fun x => (x, a)) ++ rest)
  /-- The fields of a case, whose types are left out. -/
  fields (scope xs : List String) : T scope (xs.map fun x => (x, .global Term.placeholder))

section Inherits

variable {P : List String → Term → Prop} {T : List String → Telescope → Prop}

mutual

theorem Atom.inherits (h : Inherited P T) (scope : List String) :
    ∀ a : Atom, P scope (a.elaborate scope)
  | .constant _ _ hconstant => h.constant hconstant
  | .leveled _ _ hlevel => h.leveled hlevel
  | .name x _ => h.name scope x
  | .paren inner => inner.inherits h scope

theorem Args.inherits (h : Inherited P T) (scope : List String) :
    ∀ (args : Args) {fn : Term}, P scope fn → P scope (args.elaborate scope fn)
  | .nil, _, hfn => hfn
  | .cons arg rest, _, hfn => rest.inherits h scope (h.app hfn (arg.inherits h scope))

theorem Application.inherits (h : Inherited P T) (scope : List String) :
    ∀ a : Application, P scope (a.elaborate scope)
  | .mk head args => args.inherits h scope (head.inherits h scope)

/-- **What is built from a phrase inherits what its parts have.** -/
theorem Phrase.inherits (h : Inherited P T) (scope : List String) :
    ∀ p : Phrase, P scope (p.elaborate scope)
  | .application a => a.inherits h scope
  | .arrow left right => h.arrow (left.inherits h scope) (right.inherits h scope)
  | .bind _ _ groups body => by
    refine h.close (groups.inherits h scope) ?_
    rw [groups.map_fst_elaborate]
    exact body.inherits h _
  | .fix self _ body => h.fix (body.inherits h (self :: scope))
  | .elim scrutinee motive cases _ =>
    h.elim (scrutinee.inherits h scope) (motive.inherits h scope) (cases.inherits h scope)

theorem Groups.inherits (h : Inherited P T) (scope : List String) :
    ∀ groups : Groups, T scope (groups.elaborate scope)
  | .nil => h.nil scope
  | .cons _ hne type rest => h.group hne (type.inherits h scope) (rest.inherits h _)

theorem Cases.inherits (h : Inherited P T) (scope : List String) :
    ∀ cases : Cases, ∀ t ∈ cases.elaborate scope, P scope t
  | .nil => nofun
  | .cons _ _ fields body rest => by
    refine List.forall_mem_cons.2 ⟨?_, rest.inherits h scope⟩
    have hnames : (fields.list.map fun x => (x, Term.global Term.placeholder)).map Prod.fst =
        fields.list := List.map_map.trans (List.map_id _)
    refine h.close (q := .lam) (h.fields scope fields.list) ?_
    rw [hnames]
    exact body.inherits h _

end

end Inherits

/-! ## Lexical scope -/

/-- Binders, innermost first.  A binder without a name is not referred to. -/
abbrev Binders : Type :=
  List (Option String)

/-- What an identifier refers to: the innermost binder of its name, or else a global. -/
def Binders.refer (binders : Binders) (x : String) : Nameless :=
  if some x ∈ binders then .atom (.bound (binders.idxOf (some x))) else .global x

/-- The binders around the scope of names, the last of which is innermost. -/
def Binders.enter (binders : Binders) (names : List String) : Binders :=
  names.reverse.map some ++ binders

mutual

/-- The nameless form of a phrase: **every identifier refers to the innermost binder of its name
whose scope it stands in**. -/
def Atom.resolve (binders : Binders) : Atom → Nameless
  | .constant _ t _ => t.nameless
  | .leveled _ level _ => .sort (.type level)
  | .name x _ => binders.refer x
  | .paren inner => inner.resolve binders

def Args.resolve (binders : Binders) (fn : Nameless) : Args → Nameless
  | .nil => fn
  | .cons arg rest => rest.resolve binders (.app fn (arg.resolve binders))

def Application.resolve (binders : Binders) : Application → Nameless
  | .mk head args => args.resolve binders (head.resolve binders)

def Phrase.resolve (binders : Binders) : Phrase → Nameless
  | .application a => a.resolve binders
  | .arrow left right => .pi (left.resolve binders) (right.resolve (none :: binders))
  | .bind q _ groups body =>
    (groups.resolve binders).foldr q.form (body.resolve (binders.enter groups.names))
  | .fix self _ body => .fix (body.resolve (binders.enter [self]))
  | .elim scrutinee motive cases _ =>
    .elim (scrutinee.resolve binders) (motive.resolve binders) (cases.resolve binders)

/-- The types of the binders of groups.  The scope of the names of a group starts after its type, so
none of them is referred to in the copies of the type that stand under them. -/
def Groups.resolve (binders : Binders) : Groups → List Nameless
  | .nil => []
  | .cons names _ type rest =>
    ((List.range names.list.length).map fun i =>
        type.resolve (List.replicate i none ++ binders)) ++
      rest.resolve (binders.enter names.list)

def Cases.resolve (binders : Binders) : Cases → List Nameless
  | .nil => []
  | .cons _ _ fields body rest =>
    (fields.list.map fun _ => Nameless.global Term.placeholder).foldr .lam
      (body.resolve (binders.enter fields.list)) :: rest.resolve binders

end

/-! ## Capture -/

mutual

/-- The identifiers of a phrase that refer to no binder inside it. -/
def Atom.mentions : Atom → List String
  | .constant _ _ _ | .leveled _ _ _ => []
  | .name x _ => [x]
  | .paren inner => inner.mentions

def Args.mentions : Args → List String
  | .nil => []
  | .cons arg rest => arg.mentions ++ rest.mentions

def Application.mentions : Application → List String
  | .mk head args => head.mentions ++ args.mentions

def Phrase.mentions : Phrase → List String
  | .application a => a.mentions
  | .arrow left right => left.mentions ++ right.mentions
  | .bind _ _ groups body =>
    groups.mentions ++ body.mentions.filter fun x => !groups.names.contains x
  | .fix self _ body => body.mentions.filter fun x => !List.contains [self] x
  | .elim scrutinee motive cases _ => scrutinee.mentions ++ motive.mentions ++ cases.mentions

def Groups.mentions : Groups → List String
  | .nil => []
  | .cons names _ type rest =>
    type.mentions ++ rest.mentions.filter fun x => !names.list.contains x

def Cases.mentions : Cases → List String
  | .nil => []
  | .cons _ _ fields body rest =>
    (body.mentions.filter fun x => !fields.list.contains x) ++ rest.mentions

end

mutual

def Atom.captures (scope : List String) : Atom → Bool
  | .paren inner => inner.captures scope
  | _ => false

def Args.captures (scope : List String) : Args → Bool
  | .nil => false
  | .cons arg rest => arg.captures scope || rest.captures scope

def Application.captures (scope : List String) : Application → Bool
  | .mk head args => head.captures scope || args.captures scope

def Phrase.captures (scope : List String) : Phrase → Bool
  | .application a => a.captures scope
  | .arrow left right => left.captures scope || right.captures scope
  | .bind _ _ groups body =>
    groups.captures scope || body.captures (groups.names.reverse ++ scope)
  | .fix self _ body => body.captures (self :: scope)
  | .elim scrutinee motive cases _ =>
    scrutinee.captures scope || motive.captures scope || cases.captures scope

/-- Whether a copy of the type of a group stands under a binder of the group that has a name which
is in scope around the group and which the type mentions. -/
def Groups.captures (scope : List String) : Groups → Bool
  | .nil => false
  | .cons names _ type rest =>
    (names.list.dropLast.any fun x => scope.contains x && type.mentions.contains x) ||
      type.captures scope || rest.captures (names.list.reverse ++ scope)

def Cases.captures (scope : List String) : Cases → Bool
  | .nil => false
  | .cons _ _ fields body rest =>
    body.captures (fields.list.reverse ++ scope) || rest.captures scope

end

end Grammar
end ProofKernel
