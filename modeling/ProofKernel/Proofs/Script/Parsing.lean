import ProofKernel.Proofs.Script.Alike

/-!
# Parsing tokens that are alike

Two lists of tokens that are alike may differ in length behind the period, and with them the fuel
they are read with; but the fuel is never used up.

* `Parser.Enough` is fuel that is not used up, and `Parser.Enough.step` spends it on a token.
* `Parser.Reads` says of all parsers of terms that they read the same, and is shown for one more
  unit of fuel at a time (`Parser.reads`).
* `Parser.follows_statement`: the same statement is read.
-/

set_option autoImplicit false
namespace ProofKernel
namespace Parser

variable {post post' ts ts' : List Token}

/-! ## Fuel -/

/-- Fuel for two lists of tokens that is not used up: four calls for each token, and as many as it
takes from a rule of the grammar down to the next token. -/
structure Enough (depth n n' : Nat) (ts ts' : List Token) : Prop where
  left : 4 * ts.length + depth ≤ n
  right : 4 * ts'.length + depth ≤ n'

namespace Enough

variable {depth depth' n n' : Nat} {rest rest' : List Token}

theorem pos (h : Enough (depth + 1) n n' ts ts') : ∃ m, n' = m + 1 :=
  Nat.exists_eq_succ_of_ne_zero (by have := h.right; omega)

/-- A call one step down the grammar. -/
theorem down (h : Enough depth (n + 1) (n' + 1) ts ts') (hdepth : depth' + 1 ≤ depth) :
    Enough depth' n n' ts ts' := by
  obtain ⟨hleft, hright⟩ := h
  exact ⟨by omega, by omega⟩

/-- Fewer tokens need less fuel. -/
theorem later (h : Enough depth n n' ts ts') (halike : Alike post post' ts ts')
    (hrest : Alike post post' rest rest') (hle : rest.length ≤ ts.length)
    (hdepth : depth' ≤ depth) : Enough depth' n n' rest rest' := by
  obtain ⟨hleft, hright⟩ := h
  have hlength := halike.length
  have hlength' := hrest.length
  exact ⟨by omega, by omega⟩

/-- A call after a token was taken may start the grammar again. -/
theorem step (h : Enough depth (n + 1) (n' + 1) ts ts') (halike : Alike post post' ts ts')
    (hrest : Alike post post' rest rest') (hlt : rest.length < ts.length)
    (hdepth : depth' ≤ depth + 3) : Enough depth' n n' rest rest' := by
  obtain ⟨hleft, hright⟩ := h
  have hlength := halike.length
  have hlength' := hrest.length
  exact ⟨by omega, by omega⟩

end Enough

/-! ## Terms -/

/-- All parsers of terms read the same from tokens alike, with this fuel and any that is enough for
the other list.  A term takes a token at least. -/
structure Reads (post post' : List Token) (n : Nat) : Prop where
  term : ∀ {n' : Nat} {scope : List String} {ts ts' : List Token}, Alike post post' ts ts' →
    Enough 3 n n' ts ts' →
    Follows post post' (fun _ k => k < ts.length) (term n scope) (term n' scope) ts ts'
  cases : ∀ {n' : Nat} {scope : List String} {ts ts' : List Token}, Alike post post' ts ts' →
    Enough 1 n n' ts ts' →
    Follows post post' (fun _ k => k ≤ ts.length) (cases n scope) (cases n' scope) ts ts'
  application : ∀ {n' : Nat} {scope : List String} {ts ts' : List Token},
    Alike post post' ts ts' → Enough 2 n n' ts ts' →
    Follows post post' (fun _ k => k < ts.length) (application n scope) (application n' scope)
      ts ts'
  arguments : ∀ {n' : Nat} {scope : List String} {fn : Term} {ts ts' : List Token},
    Alike post post' ts ts' → Enough 2 n n' ts ts' →
    Follows post post' (fun _ k => k ≤ ts.length) (arguments n scope fn) (arguments n' scope fn)
      ts ts'
  atom : ∀ {n' : Nat} {scope : List String} {ts ts' : List Token}, Alike post post' ts ts' →
    Enough 1 n n' ts ts' →
    Follows post post' (fun _ k => k < ts.length) (atom n scope) (atom n' scope) ts ts'
  binders : ∀ {n' : Nat} {scope : List String} {ts ts' : List Token}, Alike post post' ts ts' →
    Enough 2 n n' ts ts' →
    Follows post post' (fun _ k => k ≤ ts.length) (binders n scope) (binders n' scope) ts ts'
  groups : ∀ {n' : Nat} {scope : List String} {ts ts' : List Token}, Alike post post' ts ts' →
    Enough 1 n n' ts ts' →
    Follows post post' (fun _ k => k ≤ ts.length) (groups n scope) (groups n' scope) ts ts'
  group : ∀ {n' : Nat} {scope : List String} {ts ts' : List Token}, Alike post post' ts ts' →
    Enough 1 n n' ts ts' →
    Follows post post' (fun _ k => k ≤ ts.length) (group n scope) (group n' scope) ts ts'

section Step

variable {n n' : Nat} {scope : List String} (ih : Reads post post' n)
include ih

theorem follows_atom (h : Alike post post' ts ts') (he : Enough 1 (n + 1) (n' + 1) ts ts') :
    Follows post post' (fun _ k => k < ts.length) (atom (n + 1) scope) (atom (n' + 1) scope)
      ts ts' := by
  rw [atom, atom]
  obtain ⟨t, rest, t', rest', rfl, rfl, hhead⟩ := h.head
  refine .peek ?_
  rcases hhead with ⟨ht, _⟩ | ⟨hopen, hword, hrest⟩
  · rcases closes_iff.1 ht with hw | hw <;>
    · rw [hw]
      exact .unexpected _
  have htaken : ∀ {k : Nat}, k ≤ rest.length → k < (t :: rest).length := Nat.lt_succ_of_le
  rw [hword]
  cases hw : t.word with
  | openParen =>
    refine .advance hopen hword ?_
    refine (ih.term hrest (he.step h hrest (Nat.lt_succ_self _) (by omega))).bind
      fun inner left left' halike hlt => ?_
    refine (follows_expect rfl halike).bind fun _ last last' hlast hlt' => ?_
    exact .pure hlast (htaken (by omega))
  | integer digits =>
    refine .advance hopen hword ?_
    cases readInt? digits with
    | some value => exact .pure hrest (htaken (Nat.le_refl _))
    | none => exact .fail _ _
  | float digits =>
    refine .advance hopen hword ?_
    cases readFloat? digits with
    | some value => exact .pure hrest (htaken (Nat.le_refl _))
    | none => exact .fail _ _
  | string value => exact .advance hopen hword (.pure hrest (htaken (Nat.le_refl _)))
  | ident x =>
    dsimp only
    cases (Word.ident x).name? with
    | some y =>
      exact .advance hopen hword ((follows_reference hrest).mono fun _ _ => htaken)
    | none => exact .unexpected _
  | _ => exact .unexpected _

theorem follows_arguments {fn : Term} (h : Alike post post' ts ts')
    (he : Enough 2 (n + 1) (n' + 1) ts ts') :
    Follows post post' (fun _ k => k ≤ ts.length) (arguments (n + 1) scope fn)
      (arguments (n' + 1) scope fn) ts ts' := by
  rw [arguments, arguments]
  have hmore : Follows post post' (fun _ k => k ≤ ts.length)
      (do let arg ← atom n scope; arguments n scope (.app fn arg))
      (do let arg ← atom n' scope; arguments n' scope (.app fn arg)) ts ts' := by
    refine (ih.atom h (he.down (by omega))).bind fun arg left left' halike hlt => ?_
    refine (ih.arguments halike (he.step h halike hlt (by omega))).mono fun _ k hk => ?_
    omega
  obtain ⟨t, rest, t', rest', rfl, rfl, hhead⟩ := h.head
  refine .peek ?_
  rcases hhead with ⟨ht, ht'⟩ | ⟨hopen, hword, hrest⟩
  · have hatoms : startsAtom t.word = false ∧ startsAtom t'.word = false := by
      rcases closes_iff.1 ht with hw | hw <;> rcases closes_iff.1 ht' with hw' | hw' <;>
        rw [hw, hw'] <;> exact ⟨rfl, rfl⟩
    rw [hatoms.1, hatoms.2]
    exact .pure h (Nat.le_refl _)
  · rw [hword]
    split
    · exact hmore
    · exact .pure h (Nat.le_refl _)

theorem follows_application (h : Alike post post' ts ts')
    (he : Enough 2 (n + 1) (n' + 1) ts ts') :
    Follows post post' (fun _ k => k < ts.length) (application (n + 1) scope)
      (application (n' + 1) scope) ts ts' := by
  rw [application, application]
  refine (ih.atom h (he.down (by omega))).bind fun fn left left' halike hlt => ?_
  refine (ih.arguments halike (he.step h halike hlt (by omega))).mono fun _ k hk => ?_
  omega

theorem follows_cases (h : Alike post post' ts ts') (he : Enough 1 (n + 1) (n' + 1) ts ts') :
    Follows post post' (fun _ k => k ≤ ts.length) (cases (n + 1) scope) (cases (n' + 1) scope)
      ts ts' := by
  rw [cases, cases]
  refine (follows_accept rfl h).bind fun b left left' halike hb => ?_
  cases b with
  | false => exact .pure halike hb.1
  | true =>
    have hlt := hb.2 rfl
    refine (follows_name halike).bind fun _ left₁ left₁' halike₁ hlt₁ => ?_
    refine (follows_names halike₁).bind fun fields left₂ left₂' halike₂ hle₂ => ?_
    refine (follows_expect rfl halike₂).bind fun _ left₃ left₃' halike₃ hlt₃ => ?_
    refine (ih.term halike₃ (he.step h halike₃ (by omega) (by omega))).bind
      fun body left₄ left₄' halike₄ hlt₄ => ?_
    refine (ih.cases halike₄ (he.step h halike₄ (by omega) (by omega))).bind
      fun rest left₅ left₅' halike₅ hle₅ => ?_
    exact .pure halike₅ (by omega)

theorem follows_term (h : Alike post post' ts ts') (he : Enough 3 (n + 1) (n' + 1) ts ts') :
    Follows post post' (fun _ k => k < ts.length) (term (n + 1) scope) (term (n' + 1) scope)
      ts ts' := by
  rw [term, term]
  have harrow : Follows post post' (fun _ k => k < ts.length)
      (do
        let left ← application n scope
        if ← accept .arrow then
          let right ← term n scope
          return .arrow left right
        return left)
      (do
        let left ← application n' scope
        if ← accept .arrow then
          let right ← term n' scope
          return .arrow left right
        return left) ts ts' := by
    refine (ih.application h (he.down (by omega))).bind fun left r r' halike hlt => ?_
    refine (follows_accept rfl halike).bind fun b r₁ r₁' halike₁ hb => ?_
    cases b with
    | false => exact .pure halike₁ (by omega)
    | true =>
      refine (ih.term halike₁ (he.step h halike₁ (by omega) (by omega))).bind
        fun right r₂ r₂' halike₂ hlt₂ => ?_
      exact .pure halike₂ (by omega)
  obtain ⟨t, rest, t', rest', rfl, rfl, hhead⟩ := h.head
  refine .peek ?_
  rcases hhead with ⟨ht, ht'⟩ | ⟨hopen, hword, hrest⟩
  · -- no keyword closes a command, so both read an application
    rcases closes_iff.1 ht with hw | hw <;> rcases closes_iff.1 ht' with hw' | hw' <;>
    · rw [hw, hw']
      exact harrow
  rw [hword]
  have hstep : ∀ {r r' : List Token} {depth : Nat}, Alike post post' r r' →
      r.length ≤ rest.length → depth ≤ 6 → Enough depth n n' r r' :=
    fun halike hle hdepth => he.step h halike (Nat.lt_succ_of_le hle) hdepth
  have htaken : ∀ {k : Nat}, k ≤ rest.length → k < (t :: rest).length := Nat.lt_succ_of_le
  have hbinding : ∀ (w : Word), closes w = false → ∀ bind : Telescope → Term → Term,
      Follows post post' (fun _ k => k < (t :: rest).length)
        (do
          let bound ← binders n scope
          expect w
          let body ← term n (extend scope bound)
          return bind bound body)
        (do
          let bound ← binders n' scope
          expect w
          let body ← term n' (extend scope bound)
          return bind bound body) rest rest' := by
    intro w hw bind
    refine (ih.binders hrest (hstep hrest (Nat.le_refl _) (by omega))).bind
      fun bound r r' halike hle => ?_
    refine (follows_expect hw halike).bind fun _ r₁ r₁' halike₁ hlt₁ => ?_
    refine (ih.term halike₁ (hstep halike₁ (by omega) (by omega))).bind
      fun body r₂ r₂' halike₂ hlt₂ => ?_
    exact .pure halike₂ (htaken (by omega))
  split
  · exact .advance hopen hword (hbinding .doubleArrow rfl Term.lams)
  · exact .advance hopen hword (hbinding .comma rfl Term.pis)
  · refine .advance hopen hword ?_
    refine (follows_name hrest).bind fun self r r' halike hlt => ?_
    refine (follows_expect rfl halike).bind fun _ r₁ r₁' halike₁ hlt₁ => ?_
    refine (ih.term halike₁ (hstep halike₁ (by omega) (by omega))).bind
      fun body r₂ r₂' halike₂ hlt₂ => ?_
    exact .pure halike₂ (htaken (by omega))
  · refine .advance hopen hword ?_
    refine (ih.application hrest (hstep hrest (Nat.le_refl _) (by omega))).bind
      fun scrutinee r r' halike hlt => ?_
    refine (follows_expect rfl halike).bind fun _ r₁ r₁' halike₁ hlt₁ => ?_
    refine (ih.application halike₁ (hstep halike₁ (by omega) (by omega))).bind
      fun motive r₂ r₂' halike₂ hlt₂ => ?_
    refine (follows_expect rfl halike₂).bind fun _ r₃ r₃' halike₃ hlt₃ => ?_
    refine (ih.cases halike₃ (hstep halike₃ (by omega) (by omega))).bind
      fun cases r₄ r₄' halike₄ hle₄ => ?_
    refine (follows_accept rfl halike₄).bind fun _ r₅ r₅' halike₅ hle₅ => ?_
    exact .pure halike₅ (htaken (by omega))
  · exact harrow

theorem follows_group (h : Alike post post' ts ts') (he : Enough 1 (n + 1) (n' + 1) ts ts') :
    Follows post post' (fun _ k => k ≤ ts.length) (group (n + 1) scope) (group (n' + 1) scope)
      ts ts' := by
  rw [group, group]
  refine (follows_names h).bind fun bound r r' halike hle => ?_
  dsimp only
  cases bound with
  | nil => exact Follows.bind (P := fun _ _ => False) (.unexpected _) fun _ _ _ _ => False.elim
  | cons x bound =>
    refine (follows_expect rfl halike).bind fun _ r₁ r₁' halike₁ hlt₁ => ?_
    refine (ih.term halike₁ (he.step h halike₁ (by omega) (by omega))).bind
      fun type r₂ r₂' halike₂ hlt₂ => ?_
    exact .pure halike₂ (by omega)

theorem follows_groups (h : Alike post post' ts ts') (he : Enough 1 (n + 1) (n' + 1) ts ts') :
    Follows post post' (fun _ k => k ≤ ts.length) (groups (n + 1) scope) (groups (n' + 1) scope)
      ts ts' := by
  rw [groups, groups]
  refine (follows_accept rfl h).bind fun b r r' halike hb => ?_
  cases b with
  | false => exact .pure halike hb.1
  | true =>
    have hlt := hb.2 rfl
    refine (ih.group halike (he.step h halike hlt (by omega))).bind
      fun first r₁ r₁' halike₁ hle₁ => ?_
    refine (follows_expect rfl halike₁).bind fun _ r₂ r₂' halike₂ hlt₂ => ?_
    refine (ih.groups halike₂ (he.step h halike₂ (by omega) (by omega))).bind
      fun rest r₃ r₃' halike₃ hle₃ => ?_
    exact .pure halike₃ (by omega)

theorem follows_binders (h : Alike post post' ts ts') (he : Enough 2 (n + 1) (n' + 1) ts ts') :
    Follows post post' (fun _ k => k ≤ ts.length) (binders (n + 1) scope) (binders (n' + 1) scope)
      ts ts' := by
  rw [binders, binders]
  refine (follows_sees rfl h).bind fun b r r' halike hle => ?_
  have he' : Enough 1 n n' r r' := (he.down (by omega)).later h halike hle (Nat.le_refl _)
  cases b with
  | true => exact (ih.groups halike he').mono fun _ k hk => by omega
  | false => exact (ih.group halike he').mono fun _ k hk => by omega

end Step

/-- **Terms are read the same from tokens alike.** -/
theorem reads (n : Nat) : Reads post post' n := by
  induction n with
  | zero => constructor <;> exact fun _ he => absurd he.left (by omega)
  | succ n ih =>
    constructor <;> intro n' <;> intros <;> rename_i h he <;> obtain ⟨n', rfl⟩ := he.pos
    · exact follows_term ih h he
    · exact follows_cases ih h he
    · exact follows_application ih h he
    · exact follows_arguments ih h he
    · exact follows_atom ih h he
    · exact follows_binders ih h he
    · exact follows_groups ih h he
    · exact follows_group ih h he

/-! ## Commands -/

section Commands

variable {fuel fuel' : Nat} {scope : List String}

theorem follows_constructors {n n' : Nat} (h : Alike post post' ts ts')
    (he : Enough 3 fuel fuel' ts ts') (hn : ts.length ≤ n) (hn' : ts'.length ≤ n') :
    Follows post post' (fun _ k => k ≤ ts.length) (constructors fuel scope n)
      (constructors fuel' scope n') ts ts' := by
  induction n generalizing n' ts ts' with
  | zero =>
    obtain ⟨t, rest, t', rest', rfl, rfl, _⟩ := h.head
    cases hn
  | succ n ih =>
    cases n' with
    | zero =>
      obtain ⟨t, rest, t', rest', rfl, rfl, _⟩ := h.head
      cases hn'
    | succ n' =>
      rw [constructors, constructors]
      refine (follows_peekName? h).bind fun found r r' halike hle => ?_
      cases found with
      | none => exact .pure halike hle
      | some _ =>
        refine (follows_name halike).bind fun c r₁ r₁' halike₁ hlt₁ => ?_
        refine (follows_expect rfl halike₁).bind fun _ r₂ r₂' halike₂ hlt₂ => ?_
        refine ((reads fuel).term halike₂ (he.later h halike₂ (by omega) (Nat.le_refl _))).bind
          fun type r₃ r₃' halike₃ hlt₃ => ?_
        refine (follows_accept rfl halike₃).bind fun b r₄ r₄' halike₄ hb => ?_
        cases b with
        | false => exact .pure halike₄ (by omega)
        | true =>
          have hlength := h.length
          have hlength' := halike₄.length
          refine (ih halike₄ (he.later h halike₄ (by omega) (Nat.le_refl _)) (by omega)
            (by omega)).bind fun rest r₅ r₅' halike₅ hle₅ => ?_
          exact .pure halike₅ (by omega)

/-- The type that may stand before the body of a declaration, and what is read after it. -/
theorem follows_type? {α β : Type} {P : β → Nat → Prop} {f : Term → α}
    {body body' : Option α → Parser β} (h : Alike post post' ts ts')
    (he : Enough 3 fuel fuel' ts ts')
    (hbody : ∀ type r r', Alike post post' r r' → r.length ≤ ts.length →
      Follows post post' P (body type) (body' type) r r') :
    Follows post post' P
      (do
        if ← accept .colon then
          let type ← term fuel scope
          let type ← pure (some (f type))
          body type
        else
          let type ← pure none
          body type)
      (do
        if ← accept .colon then
          let type ← term fuel' scope
          let type ← pure (some (f type))
          body' type
        else
          let type ← pure none
          body' type) ts ts' := by
  refine (follows_accept rfl h).bind fun b r r' halike hb => ?_
  cases b with
  | false => exact hbody none r r' halike hb.1
  | true =>
    refine ((reads fuel).term halike (he.later h halike hb.1 (Nat.le_refl _))).bind
      fun type r₁ r₁' halike₁ hlt₁ => ?_
    exact hbody (some (f type)) r₁ r₁' halike₁ (by omega)

theorem follows_definition (h : Alike post post' ts ts') (he : Enough 3 fuel fuel' ts ts') :
    Follows post post' (fun _ k => k ≤ ts.length) (definition fuel) (definition fuel') ts ts' := by
  unfold definition
  refine (follows_name h).bind fun x r r' halike hlt => ?_
  refine ((reads fuel).groups halike (he.later h halike (by omega) (by omega))).bind
    fun binders r₁ r₁' halike₁ hle₁ => ?_
  refine follows_type? halike₁ (he.later h halike₁ (by omega) (Nat.le_refl _))
    fun type r₂ r₂' halike₂ hle₂ => ?_
  refine (follows_expect rfl halike₂).bind fun _ r₃ r₃' halike₃ hlt₃ => ?_
  refine ((reads fuel).term halike₃ (he.later h halike₃ (by omega) (Nat.le_refl _))).bind
    fun body r₄ r₄' halike₄ hlt₄ => ?_
  exact .pure halike₄ (by omega)

theorem follows_postulate (h : Alike post post' ts ts') (he : Enough 3 fuel fuel' ts ts') :
    Follows post post' (fun _ k => k ≤ ts.length) (postulate fuel) (postulate fuel') ts ts' := by
  unfold postulate
  refine (follows_name h).bind fun x r r' halike hlt => ?_
  refine ((reads fuel).groups halike (he.later h halike (by omega) (by omega))).bind
    fun binders r₁ r₁' halike₁ hle₁ => ?_
  refine (follows_expect rfl halike₁).bind fun _ r₂ r₂' halike₂ hlt₂ => ?_
  refine ((reads fuel).term halike₂ (he.later h halike₂ (by omega) (Nat.le_refl _))).bind
    fun type r₃ r₃' halike₃ hlt₃ => ?_
  exact .pure halike₃ (by omega)

theorem follows_family (h : Alike post post' ts ts') (he : Enough 3 fuel fuel' ts ts') :
    Follows post post' (fun _ k => k ≤ ts.length) (family fuel) (family fuel') ts ts' := by
  unfold family
  refine (follows_name h).bind fun x r r' halike hlt => ?_
  refine ((reads fuel).groups halike (he.later h halike (by omega) (by omega))).bind
    fun params r₁ r₁' halike₁ hle₁ => ?_
  refine follows_type? halike₁ (he.later h halike₁ (by omega) (Nat.le_refl _))
    fun sort r₂ r₂' halike₂ hle₂ => ?_
  refine (follows_expect rfl halike₂).bind fun _ r₃ r₃' halike₃ hlt₃ => ?_
  refine (follows_accept rfl halike₃).bind fun _ r₄ r₄' halike₄ hle₄ => ?_
  have he₄ := he.later h halike₄ (by omega) (Nat.le_refl _)
  have hcount : r₄.length ≤ fuel ∧ r₄'.length ≤ fuel' := by
    have hleft := he₄.left
    have hright := he₄.right
    omega
  refine (follows_constructors halike₄ he₄ hcount.1 hcount.2).bind
    fun found r₅ r₅' halike₅ hle₅ => ?_
  exact .pure halike₅ (by omega)

/-- **The same statement is read from tokens alike.** -/
theorem follows_statement (h : Alike post post' ts ts') (he : Enough 3 fuel fuel' ts ts') :
    Follows post post' (fun _ k => k < ts.length) (statement fuel) (statement fuel') ts ts' := by
  unfold statement
  obtain ⟨t, rest, t', rest', rfl, rfl, hhead⟩ := h.head
  refine .peek ?_
  rcases hhead with ⟨ht, _⟩ | ⟨hopen, hword, hrest⟩
  · rcases closes_iff.1 ht with hw | hw <;>
    · rw [hw]
      exact .unexpected _
  have he' : Enough 3 fuel fuel' rest rest' := he.later h hrest (Nat.le_succ _) (Nat.le_refl _)
  have htaken : ∀ {k : Nat}, k ≤ rest.length → k < (t :: rest).length := Nat.lt_succ_of_le
  rw [hword]
  cases hw : t.word with
  | ident word =>
    dsimp only
    split
    · refine .advance hopen hword ((follows_definition hrest he').bind fun d r r' halike hle => ?_)
      exact .pure halike (htaken hle)
    · refine .advance hopen hword ((follows_postulate hrest he').bind fun d r r' halike hle => ?_)
      exact .pure halike (htaken hle)
    · refine .advance hopen hword ((follows_family hrest he').bind fun d r r' halike hle => ?_)
      exact .pure halike (htaken hle)
    · refine .advance hopen hword (((reads fuel).term hrest he').bind
        fun e r r' halike hlt => ?_)
      exact .pure halike (htaken (Nat.le_of_lt hlt))
    · refine .advance hopen hword (((reads fuel).term hrest he').bind
        fun e r r' halike hlt => ?_)
      exact .pure halike (htaken (Nat.le_of_lt hlt))
    · refine .advance hopen hword ((follows_name hrest).bind fun x r r' halike hlt => ?_)
      exact .pure halike (htaken (Nat.le_of_lt hlt))
    · exact .fail _ _
  | _ => exact .unexpected _

end Commands

end Parser
end ProofKernel
