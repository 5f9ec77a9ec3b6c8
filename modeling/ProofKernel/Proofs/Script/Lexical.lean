import ProofKernel.Proofs.Script.Phrase

/-!
# Lexical scope

When the term that is built from a phrase has the nameless form of the phrase.

* `Naming.underAll_eq_refer_enter_iff` and `Naming.underAll_eq_refer_hidden_iff` say which names
  mean under binders what they refer to there.
* `Grammar.Phrase.interpret_elaborate_iff`: the term means what the phrase does, with a meaning for
  each name in scope, iff nothing is captured and every name that is mentioned means what it refers
  to.
* `Grammar.Phrase.nameless_elaborate_iff` is the case of a whole phrase.
-/

set_option autoImplicit false
namespace ProofKernel

open Grammar (Binders Quantifier)

/-! ## What identifiers refer to -/

namespace Grammar.Binders

variable {binders : Binders} {x y : String}

/-- A binder that is not the one an identifier refers to lies between the two. -/
theorem refer_cons_of_ne {b : Option String} (h : b ≠ some y) (binders : Binders) :
    refer (b :: binders) y = (binders.refer y).shift := by
  unfold refer
  rw [List.idxOf_cons_ne _ h]
  by_cases hmem : some y ∈ binders
  · rw [if_pos hmem, if_pos (List.mem_cons_of_mem b hmem)]
    rfl
  · rw [if_neg hmem, if_neg fun hcons => (List.mem_cons.1 hcons).elim (fun heq => h heq.symm) hmem]
    rfl

theorem refer_cons_self (binders : Binders) (x : String) :
    refer (some x :: binders) x = .atom (.bound 0) := by
  unfold refer
  rw [if_pos List.mem_cons_self, List.idxOf_cons_self]

/-- What is referred to inside a binder is not the binder itself if that has another name. -/
theorem bound_zero_ne_shift (u : Nameless) : Nameless.atom (.bound 0) ≠ u.shift := by
  cases u with
  | atom a =>
    intro h
    cases a <;> cases h
  | _ =>
    intro h
    cases h

theorem enter_cons (binders : Binders) (x : String) (xs : List String) :
    binders.enter (x :: xs) = enter (some x :: binders) xs := by
  simp [enter]

end Grammar.Binders

namespace Naming

variable {σ : Naming} {binders : Binders} {x y : String} {xs : List String}

theorem under_eq_refer_iff :
    σ.under x y = Binders.refer (some x :: binders) y ↔ y = x ∨ σ y = binders.refer y := by
  by_cases hyx : y = x
  · rw [hyx, under_self, Binders.refer_cons_self]
    exact ⟨fun _ => .inl rfl, fun _ => rfl⟩
  · rw [under_of_ne hyx, Binders.refer_cons_of_ne fun heq => hyx (Option.some.inj heq).symm,
      Nameless.shift_injective.eq_iff]
    exact (or_iff_right hyx).symm

theorem under_eq_refer_none_iff :
    σ.under x y = Binders.refer (none :: binders) y ↔ y ≠ x ∧ σ y = binders.refer y := by
  rw [Binders.refer_cons_of_ne (Option.some_ne_none y).symm]
  by_cases hyx : y = x
  · rw [hyx, under_self]
    exact ⟨fun h => absurd h (Binders.bound_zero_ne_shift _), fun h => absurd rfl h.1⟩
  · rw [under_of_ne hyx, Nameless.shift_injective.eq_iff]
    exact (and_iff_right hyx).symm

/-- Under binders, a name means what it refers to there iff it is the name of one of them, or means
what it refers to outside. -/
theorem underAll_eq_refer_enter_iff :
    σ.underAll xs y = (binders.enter xs).refer y ↔ y ∈ xs ∨ σ y = binders.refer y := by
  induction xs generalizing σ binders with
  | nil => simp [underAll, Binders.enter]
  | cons x xs ih =>
    rw [Binders.enter_cons, underAll_cons, ih, under_eq_refer_iff, List.mem_cons, ← or_assoc,
      or_comm (a := y ∈ xs)]

/-- Under binders that are not referred to, it has to be the name of none of them. -/
theorem underAll_eq_refer_hidden_iff :
    σ.underAll xs y = Binders.refer (List.replicate xs.length none ++ binders) y ↔
      y ∉ xs ∧ σ y = binders.refer y := by
  induction xs generalizing σ binders with
  | nil => simp [underAll]
  | cons x xs ih =>
    rw [underAll_cons, List.length_cons, List.replicate_succ', List.append_assoc,
      List.singleton_append, ih, under_eq_refer_none_iff, List.mem_cons, not_or, ← and_assoc,
      and_comm (a := y ∉ xs)]

end Naming

/-! ## Telescopes -/

namespace Grammar.Quantifier

variable {q : Quantifier} {u v : Nameless}

/-- What a quantifier closes is read as what its binders close. -/
theorem interpret_close (σ : Naming) (q : Quantifier) (binders : Telescope) (t : Term) :
    (q.close binders t).interpret σ =
      (binders.types σ).foldr q.form (t.interpret (σ.underAll (binders.map Prod.fst))) := by
  induction binders generalizing σ with
  | nil => cases q <;> rfl
  | cons b rest ih =>
    cases q with
    | lam => exact congrArg (Nameless.lam _) (ih (σ.under b.1))
    | pi => exact congrArg (Nameless.pi _) (ih (σ.under b.1))

theorem form_inj {a b : Nameless} : q.form a u = q.form b v ↔ a = b ∧ u = v := by
  cases q <;> simp [form]

theorem foldr_form_inj {as bs : List Nameless} (h : as.length = bs.length) :
    as.foldr q.form u = bs.foldr q.form v ↔ as = bs ∧ u = v := by
  induction as generalizing bs with
  | nil =>
    obtain rfl := List.length_eq_zero_iff.1 h.symm
    simp
  | cons a as ih =>
    cases bs with
    | nil => cases h
    | cons b bs =>
      rw [List.foldr_cons, List.foldr_cons, form_inj, ih (Nat.succ.inj h), List.cons.injEq,
        and_assoc]

end Grammar.Quantifier

namespace Telescope

theorem types_append (σ : Naming) (first rest : Telescope) :
    types σ (first ++ rest) = first.types σ ++ rest.types (σ.underAll (first.map Prod.fst)) := by
  induction first generalizing σ with
  | nil => rfl
  | cons b first ih => exact congrArg (_ :: ·) (ih (σ.under b.1))

/-- The copies of a type that names share stand under the names before them. -/
theorem types_shared (σ : Naming) (xs : List String) (a : Term) :
    types σ (xs.map fun x => (x, a)) =
      (List.range xs.length).map fun i => a.interpret (σ.underAll (xs.take i)) := by
  induction xs generalizing σ with
  | nil => rfl
  | cons x xs ih =>
    rw [List.map_cons, types, ih, List.length_cons, List.range_succ_eq_map, List.map_cons,
      List.map_map]
    rfl

end Telescope

/-! ## Phrases -/

namespace Grammar

/-- The names that are mentioned mean what they refer to, as far as they are in scope. -/
def Agrees (σ : Naming) (binders : Binders) (scope mentioned : List String) : Prop :=
  ∀ y ∈ mentioned, y ∈ scope → σ y = binders.refer y

/-- The names in scope are those of the binders that can be referred to. -/
def Binders.Named (binders : Binders) (scope : List String) : Prop :=
  ∀ x, x ∈ scope ↔ some x ∈ binders

variable {σ : Naming} {binders : Binders} {scope : List String}

namespace Agrees

theorem nil : Agrees σ binders scope [] :=
  List.forall_mem_nil _

theorem append {ys ys' : List String} :
    Agrees σ binders scope (ys ++ ys') ↔ Agrees σ binders scope ys ∧ Agrees σ binders scope ys' :=
  List.forall_mem_append

/-- Inside binders, what the names of the binders mean is settled. -/
theorem enter {xs ys : List String} :
    Agrees (σ.underAll xs) (binders.enter xs) (xs.reverse ++ scope) ys ↔
      Agrees σ binders scope (ys.filter fun y => !xs.contains y) := by
  unfold Agrees
  simp only [Naming.underAll_eq_refer_enter_iff, List.mem_filter, List.mem_append,
    List.mem_reverse, Bool.not_eq_true', List.contains_eq_mem, decide_eq_false_iff_not]
  grind

end Agrees

theorem Binders.Named.enter (h : binders.Named scope) (xs : List String) :
    (binders.enter xs).Named (xs.reverse ++ scope) := by
  intro x
  rw [Binders.enter, List.mem_append, List.mem_append, h x, List.mem_map]
  simp

theorem Binders.Named.hidden (h : binders.Named scope) (n : Nat) :
    Binders.Named (List.replicate n none ++ binders) scope := by
  intro x
  rw [List.mem_append, h x, List.mem_replicate]
  simp

/-- A word that stands for a term by itself stands for a closed one. -/
theorem interpret_constant {w : Word} {t : Term} (h : constant? w = some t) (σ : Naming) :
    t.interpret σ = t.nameless := by
  obtain ⟨_, rfl⟩ | rfl | rfl | ⟨_, -, rfl⟩ := constant?_cases h <;> rfl

mutual

/-- Only identifiers that refer to something are mentioned. -/
theorem Atom.refers_of_mem_mentions : ∀ a : Atom, ∀ x ∈ a.mentions, refers x = true
  | .constant _ _ _ | .leveled _ _ _ => nofun
  | .name _ h => fun _ hx => List.mem_singleton.1 hx ▸ h
  | .paren inner => inner.refers_of_mem_mentions

theorem Args.refers_of_mem_mentions : ∀ args : Args, ∀ x ∈ args.mentions, refers x = true
  | .nil => nofun
  | .cons arg rest => List.forall_mem_append.2
      ⟨arg.refers_of_mem_mentions, rest.refers_of_mem_mentions⟩

theorem Application.refers_of_mem_mentions : ∀ a : Application, ∀ x ∈ a.mentions, refers x = true
  | .mk head args => List.forall_mem_append.2
      ⟨head.refers_of_mem_mentions, args.refers_of_mem_mentions⟩

theorem Phrase.refers_of_mem_mentions : ∀ p : Phrase, ∀ x ∈ p.mentions, refers x = true
  | .application a => a.refers_of_mem_mentions
  | .arrow left right => List.forall_mem_append.2
      ⟨left.refers_of_mem_mentions, right.refers_of_mem_mentions⟩
  | .bind _ _ groups body => List.forall_mem_append.2
      ⟨groups.refers_of_mem_mentions, fun x hx =>
        body.refers_of_mem_mentions x (List.mem_of_mem_filter hx)⟩
  | .fix _ _ body => fun x hx => body.refers_of_mem_mentions x (List.mem_of_mem_filter hx)
  | .elim scrutinee motive cases _ => List.forall_mem_append.2
      ⟨List.forall_mem_append.2 ⟨scrutinee.refers_of_mem_mentions, motive.refers_of_mem_mentions⟩,
        cases.refers_of_mem_mentions⟩

theorem Groups.refers_of_mem_mentions : ∀ groups : Groups, ∀ x ∈ groups.mentions, refers x = true
  | .nil => nofun
  | .cons _ _ type rest => List.forall_mem_append.2
      ⟨type.refers_of_mem_mentions, fun x hx =>
        rest.refers_of_mem_mentions x (List.mem_of_mem_filter hx)⟩

theorem Cases.refers_of_mem_mentions : ∀ cases : Cases, ∀ x ∈ cases.mentions, refers x = true
  | .nil => nofun
  | .cons _ _ _ body rest => List.forall_mem_append.2
      ⟨fun x hx => body.refers_of_mem_mentions x (List.mem_of_mem_filter hx),
        rest.refers_of_mem_mentions⟩

end

/-- The binder of an arrow is not mentioned. -/
theorem Agrees.hidden {p : Phrase} :
    Agrees (σ.under Term.placeholder) (none :: binders) scope p.mentions ↔
      Agrees σ binders scope p.mentions := by
  unfold Agrees
  refine forall₃_congr fun y hy _ => ?_
  rw [Naming.under_eq_refer_none_iff]
  refine and_iff_right ?_
  rintro rfl
  exact absurd (p.refers_of_mem_mentions _ hy) (by decide)

theorem Groups.length_resolve (binders : Binders) :
    ∀ groups : Groups, (groups.resolve binders).length = groups.names.length
  | .nil => rfl
  | .cons names _ type rest => by
    rw [Groups.resolve, List.length_append, List.length_map, List.length_range,
      rest.length_resolve, Groups.names, List.length_append]

/-- **The copies of a shared type** mean what the type does under binders that it does not refer to,
iff it mentions no name that such a binder has and that is in scope around the group. -/
theorem shared_iff (type : Phrase) (h : binders.Named scope) {xs : List String} (hxs : xs ≠ [])
    (ih : ∀ (σ : Naming) (binders : Binders), binders.Named scope →
      ((type.elaborate scope).interpret σ = type.resolve binders ↔
        type.captures scope = false ∧ Agrees σ binders scope type.mentions)) :
    (Telescope.types σ (xs.map fun x => (x, type.elaborate scope)) =
        (List.range xs.length).map fun i => type.resolve (List.replicate i none ++ binders)) ↔
      (xs.dropLast.any fun x => scope.contains x && type.mentions.contains x) = false ∧
        type.captures scope = false ∧ Agrees σ binders scope type.mentions := by
  have hcopy : ∀ i < xs.length, ((type.elaborate scope).interpret (σ.underAll (xs.take i)) =
      type.resolve (List.replicate i none ++ binders) ↔ type.captures scope = false ∧
        ∀ y ∈ type.mentions, y ∈ scope → y ∉ xs.take i ∧ σ y = binders.refer y) := by
    intro i hi
    have hlength : (xs.take i).length = i := List.length_take_of_le (Nat.le_of_lt hi)
    rw [ih _ _ (h.hidden i)]
    refine and_congr_right fun _ => forall₃_congr fun y _ _ => ?_
    have hhidden := @Naming.underAll_eq_refer_hidden_iff σ binders y (xs.take i)
    rwa [hlength] at hhidden
  have hdropLast : ∀ y, y ∈ xs.dropLast ↔ ∃ i < xs.length, y ∈ xs.take i := by
    intro y
    rw [List.dropLast_eq_take]
    refine ⟨fun hy => ⟨_, Nat.sub_lt (List.length_pos_iff.2 hxs) Nat.one_pos, hy⟩, ?_⟩
    rintro ⟨i, hi, hy⟩
    exact (List.take_sublist_take_left (Nat.le_sub_one_of_lt hi)).subset hy
  have hany : (xs.dropLast.any fun x => scope.contains x && type.mentions.contains x) = false ↔
      ∀ y ∈ type.mentions, y ∈ scope → y ∉ xs.dropLast := by
    simp only [List.any_eq_false, Bool.and_eq_true, List.contains_eq_mem, decide_eq_true_eq]
    exact ⟨fun hall y hy hs hmem => hall y hmem ⟨hs, hy⟩,
      fun hall y hmem hy => hall y hy.2 hy.1 hmem⟩
  have hpos : 0 < xs.length := List.length_pos_iff.2 hxs
  rw [Telescope.types_shared, List.map_inj_left, hany]
  simp only [List.mem_range]
  refine (forall₂_congr hcopy).trans ⟨fun hall => ⟨fun y hy hs hmem => ?_, (hall 0 hpos).1,
    fun y hy hs => ((hall 0 hpos).2 y hy hs).2⟩, ?_⟩
  · obtain ⟨i, hi, htake⟩ := (hdropLast y).1 hmem
    exact ((hall i hi).2 y hy hs).1 htake
  · rintro ⟨hnone, hcaptures, hagrees⟩ i hi
    exact ⟨hcaptures, fun y hy hs => ⟨fun htake => hnone y hy hs ((hdropLast y).2 ⟨i, hi, htake⟩),
      hagrees y hy hs⟩⟩

/-- The cases of a match are functions of its fields, whose types are left out. -/
theorem interpret_fields (σ : Naming) (xs : List String) (t : Term) :
    (Term.lams (xs.map fun x => (x, .global Term.placeholder)) t).interpret σ =
      (xs.map fun _ => Nameless.global Term.placeholder).foldr .lam
        (t.interpret (σ.underAll xs)) := by
  induction xs generalizing σ with
  | nil => rfl
  | cons x xs ih => exact congrArg (Nameless.lam _) (ih (σ.under x))

theorem append_inj_iff {α : Type} {as as' bs bs' : List α} (h : as.length = bs.length) :
    as ++ as' = bs ++ bs' ↔ as = bs ∧ as' = bs' :=
  ⟨fun heq => List.append_inj heq h, fun heq => congrArg₂ (· ++ ·) heq.1 heq.2⟩

mutual

theorem Atom.interpret_elaborate_iff : ∀ (a : Atom) {σ : Naming} {binders : Binders}
    {scope : List String}, binders.Named scope →
    ((a.elaborate scope).interpret σ = a.resolve binders ↔
      a.captures scope = false ∧ Agrees σ binders scope a.mentions)
  | .constant _ _ hw, σ, _, _, _ => iff_of_true (interpret_constant hw σ) ⟨rfl, .nil⟩
  | .leveled _ _ _, _, _, _, _ => iff_of_true rfl ⟨rfl, .nil⟩
  | .name x _, σ, binders, scope, h => by
    have hagrees : Agrees σ binders scope [x] ↔ (x ∈ scope → σ x = binders.refer x) :=
      List.forall_mem_singleton
    rw [Atom.elaborate, Atom.resolve, Atom.mentions, hagrees]
    by_cases hx : x ∈ scope
    · rw [if_pos hx]
      exact ⟨fun heq => ⟨rfl, fun _ => heq⟩, fun heq => heq.2 hx⟩
    · have hglobal : binders.refer x = .global x := if_neg fun hmem => hx ((h x).2 hmem)
      rw [if_neg hx, hglobal]
      exact iff_of_true rfl ⟨rfl, fun hmem => absurd hmem hx⟩
  | .paren inner, _, _, _, h => inner.interpret_elaborate_iff h

theorem Args.interpret_elaborate_iff : ∀ (args : Args) {σ : Naming} {binders : Binders}
    {scope : List String} {fn : Term} {u : Nameless}, binders.Named scope →
    ((args.elaborate scope fn).interpret σ = args.resolve binders u ↔
      fn.interpret σ = u ∧ args.captures scope = false ∧ Agrees σ binders scope args.mentions)
  | .nil, _, _, _, _, _, _ => ⟨fun heq => ⟨heq, rfl, .nil⟩, fun heq => heq.1⟩
  | .cons arg rest, _, _, _, _, _, h => by
    rw [Args.elaborate, Args.resolve, rest.interpret_elaborate_iff h, Term.interpret,
      Nameless.app.injEq, arg.interpret_elaborate_iff h, Args.captures, Bool.or_eq_false_iff,
      Args.mentions, Agrees.append]
    tauto

theorem Application.interpret_elaborate_iff : ∀ (a : Application) {σ : Naming} {binders : Binders}
    {scope : List String}, binders.Named scope →
    ((a.elaborate scope).interpret σ = a.resolve binders ↔
      a.captures scope = false ∧ Agrees σ binders scope a.mentions)
  | .mk head args, _, _, _, h => by
    rw [Application.elaborate, Application.resolve, args.interpret_elaborate_iff h,
      head.interpret_elaborate_iff h, Application.captures, Bool.or_eq_false_iff,
      Application.mentions, Agrees.append]
    tauto

/-- **What is built from a phrase means what the phrase does**, with a meaning for each name, iff
nothing is captured and every name in scope that is mentioned means what it refers to. -/
theorem Phrase.interpret_elaborate_iff : ∀ (p : Phrase) {σ : Naming} {binders : Binders}
    {scope : List String}, binders.Named scope →
    ((p.elaborate scope).interpret σ = p.resolve binders ↔
      p.captures scope = false ∧ Agrees σ binders scope p.mentions)
  | .application a, _, _, _, h => a.interpret_elaborate_iff h
  | .arrow left right, _, binders, scope, h => by
    have hhidden : Binders.Named (none :: binders) scope := h.hidden 1
    rw [Phrase.elaborate, Phrase.resolve, Term.arrow, Term.interpret, Nameless.pi.injEq,
      left.interpret_elaborate_iff h, right.interpret_elaborate_iff hhidden, Agrees.hidden,
      Phrase.captures, Bool.or_eq_false_iff, Phrase.mentions, Agrees.append]
    tauto
  | .bind q _ groups body, σ, binders, scope, h => by
    have hlength : ((groups.elaborate scope).types σ).length = (groups.resolve binders).length := by
      rw [Telescope.length_types, groups.length_resolve, ← groups.map_fst_elaborate scope,
        List.length_map]
    rw [Phrase.elaborate, Phrase.resolve, Quantifier.interpret_close,
      Quantifier.foldr_form_inj hlength, groups.map_fst_elaborate,
      groups.interpret_elaborate_iff h, body.interpret_elaborate_iff (h.enter groups.names),
      Agrees.enter, Phrase.captures, Bool.or_eq_false_iff, Phrase.mentions, Agrees.append]
    tauto
  | .fix self _ body, _, _, _, h => by
    rw [Phrase.elaborate, Phrase.resolve, Term.interpret, Nameless.fix.injEq, Phrase.captures,
      Phrase.mentions, ← Agrees.enter]
    exact body.interpret_elaborate_iff (h.enter [self])
  | .elim scrutinee motive cases _, _, _, _, h => by
    rw [Phrase.elaborate, Phrase.resolve, Term.interpret, Nameless.elim.injEq,
      scrutinee.interpret_elaborate_iff h, motive.interpret_elaborate_iff h,
      cases.interpret_elaborate_iff h, Phrase.captures, Bool.or_eq_false_iff, Bool.or_eq_false_iff,
      Phrase.mentions, Agrees.append, Agrees.append]
    tauto

theorem Groups.interpret_elaborate_iff : ∀ (groups : Groups) {σ : Naming} {binders : Binders}
    {scope : List String}, binders.Named scope →
    ((groups.elaborate scope).types σ = groups.resolve binders ↔
      groups.captures scope = false ∧ Agrees σ binders scope groups.mentions)
  | .nil, _, _, _, _ => iff_of_true rfl ⟨rfl, .nil⟩
  | .cons names hne type rest, σ, binders, scope, h => by
    have hshared := @shared_iff σ binders scope type h names.list hne fun _ _ h =>
      type.interpret_elaborate_iff h
    have hlength : (Telescope.types σ (names.list.map fun x => (x, type.elaborate scope))).length =
        ((List.range names.list.length).map fun i =>
          type.resolve (List.replicate i none ++ binders)).length := by
      rw [Telescope.length_types, List.length_map, List.length_map, List.length_range]
    have hnames : (names.list.map fun x => (x, type.elaborate scope)).map Prod.fst =
        names.list := (List.map_map).trans (List.map_id _)
    rw [Groups.elaborate, Groups.resolve, Telescope.types_append, append_inj_iff hlength, hshared,
      hnames, rest.interpret_elaborate_iff (h.enter names.list), Agrees.enter, Groups.captures,
      Bool.or_eq_false_iff, Bool.or_eq_false_iff, Groups.mentions, Agrees.append]
    tauto

theorem Cases.interpret_elaborate_iff : ∀ (cases : Cases) {σ : Naming} {binders : Binders}
    {scope : List String}, binders.Named scope →
    (Term.interpretAll σ (cases.elaborate scope) = cases.resolve binders ↔
      cases.captures scope = false ∧ Agrees σ binders scope cases.mentions)
  | .nil, _, _, _, _ => iff_of_true rfl ⟨rfl, .nil⟩
  | .cons _ _ fields body rest, _, _, _, h => by
    have hform : ∀ {u v : Nameless} {types : List Nameless},
        types.foldr .lam u = types.foldr .lam v ↔ u = v := fun {_ _ types} =>
      (@Quantifier.foldr_form_inj .lam _ _ types types rfl).trans (and_iff_right rfl)
    rw [Cases.elaborate, Cases.resolve, Term.interpretAll, List.cons.injEq, interpret_fields,
      hform, body.interpret_elaborate_iff (h.enter fields.list),
      Agrees.enter, rest.interpret_elaborate_iff h, Cases.captures, Bool.or_eq_false_iff,
      Cases.mentions, Agrees.append]
    tauto

end

/-- **The nameless form of what is built from a phrase** is that of the phrase iff nothing is
captured. -/
theorem Phrase.nameless_elaborate_iff (p : Phrase) :
    (p.elaborate []).nameless = p.resolve [] ↔ p.captures [] = false := by
  have hnamed : Binders.Named [] [] := fun x => by simp
  rw [Term.nameless, p.interpret_elaborate_iff hnamed]
  exact and_iff_left fun _ _ hx => absurd hx List.not_mem_nil

end Grammar
end ProofKernel
