import ProofKernel.Proofs.Script.Phrase

/-!
# Orderly phrases are unambiguous

Words are the words of one orderly phrase at most.

* `Grammar.continues` are the words that could be read as part of a phrase before them.
* `Phrase.words_append_inj`: where two orderly phrases end, and the words behind them are no part of
  them, equal words are those of the same phrase.
-/

set_option autoImplicit false
namespace ProofKernel

open ProofKernel.Parser (startsAtom)

namespace Grammar

variable {w : Word} {rest rest' : List Word}

@[simp] theorem front_cons (w : Word) (ws : List Word) : front (w :: ws) = w := rfl

/-! ## First words -/

theorem startsAtom_ident {x : String} : startsAtom (.ident x) = true ↔ x ∉ Word.keywords := by
  by_cases hx : x ∈ Word.keywords <;> simp [startsAtom, Word.name?, hx]

theorem startsAtom_of_constant? {t : Term} (h : constant? w = some t) : startsAtom w = true := by
  unfold constant? at h
  split at h
  · rfl
  · rfl
  · rfl
  · next x =>
    refine startsAtom_ident.2 fun hx => ?_
    have hnone : ∀ x ∈ Word.keywords, constant? (.ident x) = none := by decide +kernel
    have hsome : constant? (.ident x) = some t := h
    rw [hnone x hx] at hsome
    cases hsome
  · cases h

theorem isLevel_of_level? {level : Int64} (h : level? w = some level) : isLevel w = true := by
  cases w with
  | integer digits =>
    have hread : (if digits.startsWith "-" then none else Parser.readLevel? digits.toList) =
        some level := h
    split_ifs at hread with hsign
    simpa [isLevel] using hsign
  | _ => cases h

theorem startsAtom_of_isLevel (h : isLevel w = true) : startsAtom w = true := by
  cases w with
  | integer _ => rfl
  | _ => cases h

theorem not_mem_keywords_of_refers {x : String} (h : refers x = true) : x ∉ Word.keywords := by
  simp only [refers, Bool.and_eq_true, decide_eq_true_eq] at h
  exact h.1.1.1.1

namespace Atom

theorem words_eq_cons (a : Atom) : ∃ tail, a.words = a.first :: tail := by
  cases a with
  | paren inner => exact ⟨inner.words ++ [.closeParen], rfl⟩
  | _ => exact ⟨_, rfl⟩

theorem startsAtom_first (a : Atom) : startsAtom a.first = true := by
  cases a with
  | constant w t h => exact startsAtom_of_constant? h
  | leveled w level h => exact startsAtom_ident.2 (by decide)
  | name x h => exact startsAtom_ident.2 (not_mem_keywords_of_refers h)
  | paren inner => rfl

theorem length_words_pos (a : Atom) : 0 < a.words.length := by
  obtain ⟨tail, h⟩ := a.words_eq_cons
  rw [h]
  exact Nat.zero_lt_succ _

theorem front_words (a : Atom) (rest : List Word) : front (a.words ++ rest) = a.first := by
  obtain ⟨tail, h⟩ := a.words_eq_cons
  rw [h]
  rfl

end Atom

theorem Application.words_eq_cons (a : Application) :
    ∃ w tail, a.words = w :: tail ∧ startsAtom w = true := by
  obtain ⟨head, args⟩ := a
  obtain ⟨tail, h⟩ := head.words_eq_cons
  exact ⟨head.first, tail ++ args.words, by rw [Application.words, h]; rfl, head.startsAtom_first⟩

theorem Application.length_words_pos (a : Application) : 0 < a.words.length := by
  obtain ⟨w, tail, h, -⟩ := a.words_eq_cons
  rw [h]
  exact Nat.zero_lt_succ _

theorem Quantifier.keyword_inj {q q' : Quantifier} (h : q.keyword = q'.keyword) : q = q' := by
  revert h
  cases q <;> cases q' <;> decide

/-! ## Words behind a phrase -/

/-- Whether a word could be read as part of a phrase before it. -/
def continues (w : Word) : Bool :=
  startsAtom w || w = .arrow || w = .bar || w = .ident "end"

theorem Atom.takes_eq_false (a : Atom) (h : startsAtom w = false) : a.takes w = false := by
  have hlevel : isLevel w = false :=
    Bool.eq_false_iff.2 fun hlevel => by simp [startsAtom_of_isLevel hlevel] at h
  cases a with
  | constant => rw [takes, hlevel, Bool.and_false]
  | _ => rfl

mutual

theorem Phrase.takes_eq_false (h : continues w = false) : ∀ p : Phrase, p.takes w = false
  | .application _ => by
    simp only [continues, Bool.or_eq_false_iff] at h
    rw [Phrase.takes, h.1.1.1, h.1.1.2]
    rfl
  | .arrow _ right => right.takes_eq_false h
  | .bind _ _ _ body | .fix _ _ body => body.takes_eq_false h
  | .elim _ _ cases _ => by
    have hend := h
    simp only [continues, Bool.or_eq_false_iff] at hend
    rw [Phrase.takes, cases.takes_eq_false h, hend.2]
    simp

theorem Cases.takes_eq_false (h : continues w = false) : ∀ cases : Cases, cases.takes w = false
  | .nil => by
    simp only [continues, Bool.or_eq_false_iff] at h
    exact h.1.2
  | .cons _ _ _ body rest => by
    rw [Cases.takes, body.takes_eq_false h, rest.takes_eq_false h]
    simp

end

/-! ## Equal words -/

theorem Names.words_append_inj {xs ys : Names} (h : xs.words ++ rest = ys.words ++ rest')
    (hrest : (front rest).name? = none) (hrest' : (front rest').name? = none) :
    xs = ys ∧ rest = rest' := by
  obtain ⟨xs, hxs⟩ := xs
  obtain ⟨ys, hys⟩ := ys
  have hname : ∀ x ∉ Word.keywords, (Word.ident x).name? ≠ none := by
    intro x hx
    simp [Word.name?, hx]
  have hlists : xs = ys ∧ rest = rest' := by
    induction xs generalizing ys with
    | nil =>
      cases ys with
      | nil => exact ⟨rfl, h⟩
      | cons y ys =>
        obtain rfl : rest = .ident y :: _ := h
        exact absurd hrest (hname y (hys y List.mem_cons_self))
    | cons x xs ih =>
      cases ys with
      | nil =>
        obtain rfl : _ = rest' := h
        exact absurd hrest' (hname x (hxs x List.mem_cons_self))
      | cons y ys =>
        obtain ⟨hhead, htail⟩ := List.cons.inj h
        cases hhead
        obtain ⟨rfl, hrests⟩ := ih (fun z hz => hxs z (List.mem_cons_of_mem _ hz)) ys
          (fun z hz => hys z (List.mem_cons_of_mem _ hz)) htail
        exact ⟨rfl, hrests⟩
  obtain ⟨rfl, hrests⟩ := hlists
  exact ⟨rfl, hrests⟩

theorem Names.front_words {xs : Names} (h : xs.list ≠ []) (rest : List Word) :
    ∃ x, front (xs.words ++ rest) = .ident x := by
  obtain ⟨x, tail, hx⟩ := List.exists_cons_of_ne_nil h
  exact ⟨x, by rw [Names.words, hx]; rfl⟩

/-- Groups begin with a parenthesis unless they are bare. -/
theorem Groups.front_words {bare : Bool} {groups : Groups} (h : groups.fits bare = true)
    (rest : List Word) : front (groups.words bare ++ rest) = .openParen ↔ bare = false := by
  cases groups with
  | nil => cases bare <;> cases h
  | cons names hne type more =>
    cases bare with
    | false => exact iff_of_true rfl rfl
    | true =>
      obtain ⟨x, hx⟩ := Names.front_words hne (.colon :: type.words ++ more.words true ++ rest)
      rw [Groups.words, List.append_assoc, List.append_assoc, ← List.append_assoc _ _ rest, hx]
      simp

theorem Groups.bare_inj {bare bare' : Bool} {groups groups' : Groups}
    (h : groups.words bare ++ rest = groups'.words bare' ++ rest')
    (hfits : groups.fits bare = true) (hfits' : groups'.fits bare' = true) : bare = bare' := by
  have hparen : bare = false ↔ bare' = false := by
    rw [← Groups.front_words hfits rest, h, Groups.front_words hfits' rest']
  exact Bool.eq_iff_iff.2 (by simpa using not_congr hparen)

/-- The rule of the grammar by which an atom is written. -/
def Atom.rule : Atom → Fin 4
  | constant _ _ _ => 0
  | leveled _ _ _ => 1
  | name _ _ => 2
  | paren _ => 3

/-- The rule by which the first atom of words is written, as the first two words tell. -/
def Atom.ruleOf (ws : List Word) : Fin 4 :=
  if front ws = .openParen then 3
  else if front ws = .ident "Type" && isLevel (front ws.tail) then 1
  else if (constant? (front ws)).isSome then 0
  else 2

theorem constant?_of_refers {x : String} (h : refers x = true) : constant? (.ident x) = none := by
  simp only [refers, Bool.and_eq_true, decide_eq_true_eq, Option.isNone_iff_eq_none] at h
  obtain ⟨⟨⟨⟨-, hhole⟩, hprop⟩, htype⟩, hlevel⟩ := h
  simp [constant?, hhole, hprop, htype, hlevel]

theorem Atom.ruleOf_words {a : Atom} (h : a.takes (front rest) = false) :
    ruleOf (a.words ++ rest) = a.rule := by
  unfold ruleOf
  cases a with
  | constant w t hw =>
    have hparen : w ≠ .openParen := by
      rintro rfl
      cases hw
    have hlevel : ¬(w = .ident "Type" && isLevel (front rest)) = true := by
      simp only [Bool.and_eq_true, decide_eq_true_eq, not_and, Bool.not_eq_true]
      rintro rfl
      simpa [takes] using h
    have hconstant : (constant? w).isSome = true := by rw [hw]; rfl
    exact (if_neg hparen).trans ((if_neg hlevel).trans (if_pos hconstant))
  | leveled w level hw =>
    have hlevel : isLevel w = true := isLevel_of_level? hw
    exact (if_neg (by simp [Atom.words])).trans (if_pos (by simpa [Atom.words] using hlevel))
  | name x hx =>
    have htype : ¬(Word.ident x = .ident "Type" && isLevel (front rest)) = true := by
      have hne : x ≠ "Type" := by
        rintro rfl
        exact absurd hx (by decide)
      simp [hne]
    have hconstant : ¬(constant? (.ident x)).isSome = true := by
      rw [constant?_of_refers hx]
      exact Bool.false_ne_true
    exact (if_neg (by simp [Atom.words])).trans ((if_neg htype).trans (if_neg hconstant))
  | paren inner => exact if_pos rfl

/-- The rule by which a phrase is written; an arrow begins as an application does. -/
def Phrase.rule : Phrase → Fin 4
  | application _ | arrow _ _ => 0
  | bind _ _ _ _ => 1
  | fix _ _ _ => 2
  | elim _ _ _ _ => 3

/-- The rule by which a phrase is written, as its first word tells. -/
def Phrase.ruleOf (w : Word) : Fin 4 :=
  if startsAtom w then 0
  else if w = .ident "fix" then 2
  else if w = .ident "match" then 3
  else 1

theorem Phrase.ruleOf_front (p : Phrase) (rest : List Word) :
    ruleOf (front (p.words ++ rest)) = p.rule := by
  have happlication : ∀ (a : Application) (ws : List Word), ruleOf (front (a.words ++ ws)) = 0 := by
    intro a ws
    obtain ⟨w, tail, hw, hstart⟩ := a.words_eq_cons
    rw [hw]
    exact if_pos hstart
  cases p with
  | application a => exact happlication a rest
  | arrow left right =>
    rw [Phrase.words, List.append_assoc]
    exact happlication left _
  | bind q bare groups body => cases q <;> rfl
  | _ => rfl

/-- What stands behind an atom with its arguments is no part of the atom. -/
theorem Args.takes_front {before : Atom} {args : Args} (h : args.Orderly before)
    (hnext : startsAtom (front rest) = false) :
    before.takes (front (args.words ++ rest)) = false := by
  cases args with
  | nil => exact before.takes_eq_false hnext
  | cons arg more =>
    rw [Args.words, List.append_assoc, arg.front_words]
    exact h.1

/-- Arguments begin with an atom. -/
theorem Args.startsAtom_front (arg : Atom) (more : Args) (rest : List Word) :
    startsAtom (front ((cons arg more).words ++ rest)) = true := by
  rw [Args.words, List.append_assoc, arg.front_words]
  exact arg.startsAtom_first

/-- What stands behind the body of a case is no part of it. -/
theorem Cases.takes_front {constructor : String} {hc : constructor ∉ Word.keywords} {fields : Names}
    {body : Phrase} {more : Cases} (h : (cons constructor hc fields body more).Orderly)
    (hnext : (cons constructor hc fields body more).takes (front rest) = false) :
    body.takes (front (more.words ++ rest)) = false := by
  cases more with
  | nil =>
    rw [Cases.takes, Bool.or_eq_false_iff] at hnext
    exact hnext.1
  | cons _ _ _ _ _ => exact h.2.2 rfl

/-- What stands behind the cases of a match is no part of them, be it `end` or not. -/
theorem Phrase.takes_closing {scrutinee motive : Application} {cases : Cases} {ended : Bool}
    (h : (elim scrutinee motive cases ended).Orderly)
    (hnext : (elim scrutinee motive cases ended).takes (front rest) = false) :
    cases.takes (front (closing ended ++ rest)) = false := by
  cases ended with
  | true => exact h.2.2.2 rfl
  | false =>
    rw [Phrase.takes, Bool.not_false, Bool.true_and, Bool.or_eq_false_iff] at hnext
    exact hnext.2

/-- A match is closed if `end` stands behind its cases. -/
theorem closing_append_inj {scrutinee motive : Application} {cases : Cases} {ended ended' : Bool}
    (h : closing ended ++ rest = closing ended' ++ rest')
    (hnext : (Phrase.elim scrutinee motive cases ended).takes (front rest) = false)
    (hnext' : (Phrase.elim scrutinee motive cases ended').takes (front rest') = false) :
    ended = ended' ∧ rest = rest' := by
  have hopen : ∀ {ws : List Word},
      (Phrase.elim scrutinee motive cases false).takes (front (.ident "end" :: ws)) = true := by
    intro ws
    simp [Phrase.takes]
  cases ended <;> cases ended'
  · exact ⟨rfl, h⟩
  · obtain rfl : rest = .ident "end" :: rest' := h
    rw [hopen] at hnext
    cases hnext
  · obtain rfl : .ident "end" :: rest = rest' := h
    rw [hopen] at hnext'
    cases hnext'
  · exact ⟨rfl, (List.cons.inj h).2⟩

mutual

theorem Atom.words_append_inj : ∀ {a a' : Atom} {rest rest' : List Word},
    a.words ++ rest = a'.words ++ rest' → a.Orderly → a'.Orderly →
    a.takes (front rest) = false → a'.takes (front rest') = false → a = a' ∧ rest = rest'
  | a, a', rest, rest', h, ha, ha', hnext, hnext' => by
    have hrule : a.rule = a'.rule :=
      (Atom.ruleOf_words hnext).symm.trans
        ((congrArg Atom.ruleOf h).trans (Atom.ruleOf_words hnext'))
    cases a with
    | constant w t hw =>
      cases a' with
      | constant w' t' hw' =>
        cases h
        cases hw.symm.trans hw'
        exact ⟨rfl, rfl⟩
      | _ => cases hrule
    | leveled w level hw =>
      cases a' with
      | leveled w' level' hw' =>
        cases h
        cases hw.symm.trans hw'
        exact ⟨rfl, rfl⟩
      | _ => cases hrule
    | name x hx =>
      cases a' with
      | name x' hx' =>
        cases h
        exact ⟨rfl, rfl⟩
      | _ => cases hrule
    | paren inner =>
      cases a' with
      | paren inner' =>
        have hinner :
            inner.words ++ .closeParen :: rest = inner'.words ++ .closeParen :: rest' := by
          simpa [Atom.words] using h
        obtain ⟨rfl, hrests⟩ := Phrase.words_append_inj hinner ha ha'
          (inner.takes_eq_false rfl) (inner'.takes_eq_false rfl)
        exact ⟨rfl, (List.cons.inj hrests).2⟩
      | _ => cases hrule
termination_by structural a => a

theorem Args.words_append_inj : ∀ {args args' : Args} {before : Atom} {rest rest' : List Word},
    args.words ++ rest = args'.words ++ rest' → args.Orderly before → args'.Orderly before →
    startsAtom (front rest) = false → startsAtom (front rest') = false →
    args = args' ∧ rest = rest'
  | .nil, .nil, _, _, _, h, _, _, _, _ => ⟨rfl, h⟩
  | .nil, .cons arg more, _, rest, rest', h, _, _, hnext, _ => by
    rw [show rest = (Args.cons arg more).words ++ rest' from h, Args.startsAtom_front] at hnext
    cases hnext
  | .cons arg more, .nil, _, rest, rest', h, _, _, _, hnext' => by
    rw [show rest' = (Args.cons arg more).words ++ rest from h.symm,
      Args.startsAtom_front] at hnext'
    cases hnext'
  | .cons arg more, .cons arg' more', _, rest, rest', h, ⟨_, harg, hmore⟩, ⟨_, harg', hmore'⟩,
      hnext, hnext' => by
    rw [Args.words, Args.words, List.append_assoc, List.append_assoc] at h
    obtain ⟨rfl, htail⟩ := Atom.words_append_inj h harg harg' (Args.takes_front hmore hnext)
      (Args.takes_front hmore' hnext')
    obtain ⟨rfl, hrests⟩ := Args.words_append_inj htail hmore hmore' hnext hnext'
    exact ⟨rfl, hrests⟩
termination_by structural a => a

theorem Application.words_append_inj : ∀ {a a' : Application} {rest rest' : List Word},
    a.words ++ rest = a'.words ++ rest' → a.Orderly → a'.Orderly →
    startsAtom (front rest) = false → startsAtom (front rest') = false → a = a' ∧ rest = rest'
  | .mk head args, .mk head' args', rest, rest', h, ⟨hhead, hargs⟩, ⟨hhead', hargs'⟩, hnext,
      hnext' => by
    rw [Application.words, Application.words, List.append_assoc, List.append_assoc] at h
    obtain ⟨rfl, htail⟩ := Atom.words_append_inj h hhead hhead' (Args.takes_front hargs hnext)
      (Args.takes_front hargs' hnext')
    obtain ⟨rfl, hrests⟩ := Args.words_append_inj htail hargs hargs' hnext hnext'
    exact ⟨rfl, hrests⟩
termination_by structural a => a

/-- **Two orderly phrases of the same words are the same**, where nothing behind them is a part of
them. -/
theorem Phrase.words_append_inj : ∀ {p p' : Phrase} {rest rest' : List Word},
    p.words ++ rest = p'.words ++ rest' → p.Orderly → p'.Orderly →
    p.takes (front rest) = false → p'.takes (front rest') = false → p = p' ∧ rest = rest'
  | p, p', rest, rest', h, hp, hp', hnext, hnext' => by
    have hrule : p.rule = p'.rule := by
      rw [← p.ruleOf_front rest, h, p'.ruleOf_front]
    have hbehind : ∀ {w : Word}, (startsAtom w || w = .arrow) = false →
        startsAtom w = false ∧ w ≠ .arrow := by
      intro w hw
      simpa using hw
    cases p with
    | application a =>
      obtain ⟨hstart, harrow⟩ := hbehind hnext
      cases p' with
      | application a' =>
        obtain ⟨rfl, hrests⟩ := Application.words_append_inj h hp hp' hstart (hbehind hnext').1
        exact ⟨rfl, hrests⟩
      | arrow left right =>
        rw [Phrase.words, Phrase.words, List.append_assoc] at h
        obtain ⟨-, rfl⟩ := Application.words_append_inj h hp hp'.1 hstart rfl
        exact absurd rfl harrow
      | _ => cases hrule
    | arrow left right =>
      cases p' with
      | application a' =>
        rw [Phrase.words, Phrase.words, List.append_assoc] at h
        obtain ⟨hstart, harrow⟩ := hbehind hnext'
        obtain ⟨-, hrests⟩ := Application.words_append_inj h hp.1 hp' rfl hstart
        rw [← hrests] at harrow
        exact absurd rfl harrow
      | arrow left' right' =>
        rw [Phrase.words, Phrase.words, List.append_assoc, List.append_assoc] at h
        obtain ⟨rfl, htail⟩ := Application.words_append_inj h hp.1 hp'.1 rfl rfl
        obtain ⟨rfl, hrests⟩ :=
          Phrase.words_append_inj (List.cons.inj htail).2 hp.2 hp'.2 hnext hnext'
        exact ⟨rfl, hrests⟩
      | _ => cases hrule
    | bind q bare groups body =>
      cases p' with
      | bind q' bare' groups' body' =>
        simp only [Phrase.words, List.cons_append, List.append_assoc, List.cons.injEq,
          Word.ident.injEq] at h
        obtain ⟨hkeyword, h⟩ := h
        obtain rfl : q = q' := Quantifier.keyword_inj hkeyword
        have hseparator : q.separator ≠ .openParen ∧ continues q.separator = false := by
          cases q <;> decide
        obtain rfl := Groups.bare_inj h hp.1 hp'.1
        obtain ⟨rfl, htail⟩ : groups = groups' ∧ _ := by
          cases bare with
          | true =>
            exact Groups.bare_append_inj h hp.1 hp'.1 hp.2.1 hp'.2.1 hseparator.2 hseparator.2
          | false => exact Groups.words_append_inj h hp.2.1 hp'.2.1 hseparator.1 hseparator.1
        obtain ⟨rfl, hrests⟩ :=
          Phrase.words_append_inj (List.cons.inj htail).2 hp.2.2 hp'.2.2 hnext hnext'
        exact ⟨rfl, hrests⟩
      | _ => cases hrule
    | fix self hself body =>
      cases p' with
      | fix self' hself' body' =>
        rw [Phrase.words, Phrase.words] at h
        simp only [List.cons_append, List.cons.injEq, true_and, Word.ident.injEq] at h
        obtain ⟨rfl, htail⟩ := h
        obtain ⟨rfl, hrests⟩ := Phrase.words_append_inj htail hp hp' hnext hnext'
        exact ⟨rfl, hrests⟩
      | _ => cases hrule
    | elim scrutinee motive cases ended =>
      cases p' with
      | elim scrutinee' motive' cases' ended' =>
        have hcases := Phrase.takes_closing hp hnext
        have hcases' := Phrase.takes_closing hp' hnext'
        rw [Phrase.words, Phrase.words] at h
        simp only [List.cons_append, List.append_assoc, List.cons.injEq, true_and] at h
        obtain ⟨rfl, htail⟩ := Application.words_append_inj h hp.1 hp'.1 rfl rfl
        obtain ⟨rfl, htail₁⟩ :=
          Application.words_append_inj (List.cons.inj htail).2 hp.2.1 hp'.2.1 rfl rfl
        obtain ⟨rfl, htail₂⟩ :=
          Cases.words_append_inj (List.cons.inj htail₁).2 hp.2.2.1 hp'.2.2.1 hcases hcases'
        obtain ⟨rfl, hrests⟩ := closing_append_inj htail₂ hnext hnext'
        exact ⟨rfl, hrests⟩
      | _ => cases hrule
termination_by structural a => a

/-- A bare group ends before a word that is no part of its type. -/
theorem Groups.bare_append_inj : ∀ {groups groups' : Groups} {rest rest' : List Word},
    groups.words true ++ rest = groups'.words true ++ rest' →
    groups.fits true = true → groups'.fits true = true → groups.Orderly → groups'.Orderly →
    continues (front rest) = false → continues (front rest') = false →
    groups = groups' ∧ rest = rest'
  | .cons names hne type .nil, .cons names' hne' type' .nil, rest, rest', h, _, _, ⟨htype, _⟩,
      ⟨htype', _⟩, hnext, hnext' => by
    simp only [Groups.words, List.append_assoc, List.cons_append, List.nil_append] at h
    obtain ⟨rfl, htail⟩ := Names.words_append_inj h rfl rfl
    obtain ⟨rfl, hrests⟩ := Phrase.words_append_inj (List.cons.inj htail).2 htype htype'
      (type.takes_eq_false hnext) (type'.takes_eq_false hnext')
    exact ⟨rfl, hrests⟩
termination_by structural a => a

/-- Groups end before a word that does not begin another one. -/
theorem Groups.words_append_inj : ∀ {groups groups' : Groups} {rest rest' : List Word},
    groups.words false ++ rest = groups'.words false ++ rest' → groups.Orderly → groups'.Orderly →
    front rest ≠ .openParen → front rest' ≠ .openParen → groups = groups' ∧ rest = rest'
  | .nil, .nil, _, _, h, _, _, _, _ => ⟨rfl, h⟩
  | .nil, .cons _ _ _ _, rest, _, h, _, _, hnext, _ => by
    obtain rfl : rest = .openParen :: _ := h
    exact absurd rfl hnext
  | .cons _ _ _ _, .nil, _, rest', h, _, _, _, hnext' => by
    obtain rfl : .openParen :: _ = rest' := h
    exact absurd rfl hnext'
  | .cons names hne type more, .cons names' hne' type' more', rest, rest', h, ⟨htype, hmore⟩,
      ⟨htype', hmore'⟩, hnext, hnext' => by
    simp only [Groups.words, List.append_assoc, List.cons_append, List.cons.injEq, true_and] at h
    obtain ⟨rfl, htail⟩ := Names.words_append_inj h rfl rfl
    obtain ⟨rfl, htail₁⟩ := Phrase.words_append_inj (List.cons.inj htail).2 htype htype'
      (type.takes_eq_false rfl) (type'.takes_eq_false rfl)
    obtain ⟨rfl, hrests⟩ :=
      Groups.words_append_inj (List.cons.inj htail₁).2 hmore hmore' hnext hnext'
    exact ⟨rfl, hrests⟩
termination_by structural a => a

theorem Cases.words_append_inj : ∀ {cases cases' : Cases} {rest rest' : List Word},
    cases.words ++ rest = cases'.words ++ rest' → cases.Orderly → cases'.Orderly →
    cases.takes (front rest) = false → cases'.takes (front rest') = false →
    cases = cases' ∧ rest = rest'
  | .nil, .nil, _, _, h, _, _, _, _ => ⟨rfl, h⟩
  | .nil, .cons _ _ _ _ _, rest, _, h, _, _, hnext, _ => by
    obtain rfl : rest = .bar :: _ := h
    cases hnext
  | .cons _ _ _ _ _, .nil, _, rest', h, _, _, _, hnext' => by
    obtain rfl : .bar :: _ = rest' := h
    cases hnext'
  | .cons constructor hc fields body more, .cons constructor' hc' fields' body' more', rest, rest',
      h, hcases, hcases', hnext, hnext' => by
    have hbody := Cases.takes_front hcases hnext
    have hbody' := Cases.takes_front hcases' hnext'
    rw [Cases.takes, Bool.or_eq_false_iff] at hnext hnext'
    simp only [Cases.words, List.append_assoc, List.cons_append, List.cons.injEq, true_and,
      Word.ident.injEq] at h
    obtain ⟨rfl, htail⟩ := h
    obtain ⟨rfl, htail₁⟩ := Names.words_append_inj htail rfl rfl
    obtain ⟨rfl, htail₂⟩ :=
      Phrase.words_append_inj (List.cons.inj htail₁).2 hcases.1 hcases'.1 hbody hbody'
    obtain ⟨rfl, hrests⟩ :=
      Cases.words_append_inj htail₂ hcases.2.1 hcases'.2.1 hnext.2 hnext'.2
    exact ⟨rfl, hrests⟩
termination_by structural a => a

end

end Grammar
end ProofKernel
