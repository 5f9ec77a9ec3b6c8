import ProofKernel.Guard
import ProofKernel.Proofs.Hygiene
import ProofKernel.Proofs.Nameless.Reduction
import ProofKernel.Proofs.Verdict

/-!
# The guard does not see bound names

Two fixpoints of the same meaning are both guarded or both not, provided that no binder has the name
that stands for none: such a binder never becomes smaller.

* `Guard.ScopeAlike` relates what is known along a path in two terms: variables that mean the same
  are known to be the same.
* `Guard.walk_matches` follows the visit of a term, `checkTermination_matches` a whole fixpoint.
-/

set_option autoImplicit false
namespace ProofKernel

open Term (interpret shape)

theorem NameMap.get?_erase {α : Type} (m : NameMap α) (name other : String) :
    (m.erase name).get? other = if other = name then none else m.get? other := by
  induction m with
  | nil => simp [NameMap.erase]
  | cons p rest ih =>
    unfold NameMap.erase at ih ⊢
    by_cases hp : p.1 = name
    · rw [List.filter_cons_of_neg (by simpa using hp), ih, get?]
      split
      · rfl
      · next hne => rw [if_neg fun h => hne (h.symm.trans hp)]
    · rw [List.filter_cons_of_pos (by simpa using hp), get?, ih, get?]
      split
      · next heq => rw [if_neg fun h => hp (heq.trans h)]
      · rfl

namespace Guard

/-! ## Scopes -/

/-- Two fixpoints over one table, with the same structural argument. -/
structure TargetAlike (g g' : Target) : Prop where
  table : g'.table = g.table
  index : g'.index = g.index

/-- Variables that mean the same are known to be the same: the fixpoint, smaller than its argument,
or of a type that can be matched on. -/
structure ScopeAlike (σ σ' : Naming) (g g' : Target) (s s' : Scope) : Prop where
  refers : ∀ x x', σ x = σ' x' → (s.active && x == g.self) = (s'.active && x' == g'.self)
  smaller : ∀ x x', σ x = σ' x' → (x ∈ s.smaller ↔ x' ∈ s'.smaller)
  matchers : ∀ x x', σ x = σ' x' → s.matchers.get? x = s'.matchers.get? x'

variable {σ σ' : Naming} {g g' : Target} {s s' : Scope}

/-- The variable of a binder is not the fixpoint. -/
theorem Scope.refers_bind_self (s : Scope) (self x : String) :
    ((s.bind self x).active && x == self) = false := by
  rw [bind]
  by_cases hx : x = self
  · simp [hx]
  · simp [hx]

theorem Scope.refers_bind_of_ne {n x : String} (hxn : x ≠ n) (s : Scope) (self : String) :
    ((s.bind self n).active && x == self) = (s.active && x == self) := by
  rw [bind]
  by_cases hx : x = self
  · subst hx
    rw [bne_iff_ne.2 (Ne.symm hxn), Bool.and_true]
  · rw [beq_eq_false_iff_ne.2 hx, Bool.and_false, Bool.and_false]

/-- Inside a binder nothing is known of its variable. -/
theorem ScopeAlike.bind (h : ScopeAlike σ σ' g g' s s') (hσ : σ.Faithful) (hσ' : σ'.Faithful)
    (n n' : String) :
    ScopeAlike (σ.under n) (σ'.under n') g g' (s.bind g.self n) (s'.bind g'.self n') := by
  constructor
  · intro x x' hx
    rcases (Naming.under_eq_under_iff hσ hσ').1 hx with ⟨rfl, rfl⟩ | ⟨hxn, hxn', hx⟩
    · rw [Scope.refers_bind_self, Scope.refers_bind_self]
    · rw [Scope.refers_bind_of_ne hxn, Scope.refers_bind_of_ne hxn', h.refers x x' hx]
  · intro x x' hx
    rw [Scope.bind, Scope.bind, NameSet.mem_erase, NameSet.mem_erase]
    rcases (Naming.under_eq_under_iff hσ hσ').1 hx with ⟨hxn, hxn'⟩ | ⟨hxn, hxn', hx⟩
    · exact iff_of_false (fun h => h.2 hxn) fun h => h.2 hxn'
    · exact and_congr (h.smaller x x' hx) (iff_of_true hxn hxn')
  · intro x x' hx
    rw [Scope.bind, Scope.bind, NameMap.get?_erase, NameMap.get?_erase]
    rcases (Naming.under_eq_under_iff hσ hσ').1 hx with ⟨hxn, hxn'⟩ | ⟨hxn, hxn', hx⟩
    · rw [if_pos hxn, if_pos hxn']
    · rw [if_neg hxn, if_neg hxn', h.matchers x x' hx]

/-- A name is a given one iff what means the same is the other given one. -/
theorem eq_iff_of_faithful (hσ : σ.Faithful) (hσ' : σ'.Faithful) {n n' x x' : String}
    (hn : σ n = σ' n') (hx : σ x = σ' x') : x = n ↔ x' = n' := by
  constructor
  · rintro rfl
    exact hσ'.injective (hx.symm.trans hn)
  · rintro rfl
    exact hσ.injective (hx.trans hn.symm)

theorem ScopeAlike.decreasing (h : ScopeAlike σ σ' g g' s s') (hσ : σ.Faithful)
    (hσ' : σ'.Faithful) {n n' : String} (hn : σ n = σ' n') (family : String) :
    ScopeAlike σ σ' g g' (s.decreasing n family) (s'.decreasing n' family) := by
  refine ⟨h.refers, h.smaller, fun x x' hx => ?_⟩
  rw [Scope.decreasing, Scope.decreasing, NameMap.get?_put, NameMap.get?_put]
  have hiff := eq_iff_of_faithful hσ hσ' hn hx
  by_cases hxn : x = n
  · rw [if_pos hxn.symm, if_pos (hiff.1 hxn).symm]
  · rw [if_neg fun e => hxn e.symm, if_neg fun e => hxn (hiff.2 e.symm), h.matchers x x' hx]

theorem ScopeAlike.withSmaller (h : ScopeAlike σ σ' g g' s s') (hσ : σ.Faithful)
    (hσ' : σ'.Faithful) {n n' : String} (hn : σ n = σ' n') (family : Option String) :
    ScopeAlike σ σ' g g' (s.withSmaller n family) (s'.withSmaller n' family) := by
  refine ⟨h.refers, fun x x' hx => ?_, ?_⟩
  · show x ∈ s.smaller.insert n ↔ x' ∈ s'.smaller.insert n'
    rw [NameSet.mem_insert, NameSet.mem_insert]
    exact or_congr (eq_iff_of_faithful hσ hσ' hn hx) (h.smaller x x' hx)
  · cases family with
    | none => exact h.matchers
    | some f => exact (h.decreasing hσ hσ' hn f).matchers

/-- Entering a binder of a case keeps scopes alike, unless it has the name that stands for none. -/
theorem ScopeAlike.enter (h : ScopeAlike σ σ' g g' s s') (hσ : σ.Faithful) (hσ' : σ'.Faithful)
    {n n' : String} (hn : n ≠ Term.placeholder) (hn' : n' ≠ Term.placeholder) (site : Site) :
    ScopeAlike (σ.under n) (σ'.under n') g g' (g.enter s n site).1 (g'.enter s' n' site).1 ∧
      (g.enter s n site).2 = (g'.enter s' n' site).2 := by
  have hbind := h.bind hσ hσ' n n'
  match site with
  | .operand | .head | .branch [] => exact ⟨hbind, rfl⟩
  | .branch (family :: rest) =>
    rw [Target.enter, Target.enter, if_neg hn, if_neg hn']
    refine ⟨hbind.withSmaller (hσ.under n) (hσ'.under n') ?_ family, rfl⟩
    rw [Naming.under_self, Naming.under_self]

/-! ## Recursive calls -/

theorem ScopeAlike.constructorsOf_eq (h : ScopeAlike σ σ' g g' s s') (hg : TargetAlike g g')
    (hσ : σ.Faithful) (hσ' : σ'.Faithful) {t t' : Term} (ht : t.interpret σ = t'.interpret σ') :
    g.constructorsOf s t = g'.constructorsOf s' t' := by
  unfold Target.constructorsOf
  cases shape hσ hσ' ht with
  | @var x x' hx =>
    dsimp only
    rw [h.matchers x x' hx, hg.table]
  | _ => rfl

theorem TargetAlike.fieldFamilies_eq (hg : TargetAlike g g') (constructor : String) :
    g.fieldFamilies constructor = g'.fieldFamilies constructor := by
  unfold Target.fieldFamilies
  rw [hg.table]

/-- A call is guarded iff the call of the same meaning is. -/
theorem ScopeAlike.checkCall_matches (h : ScopeAlike σ σ' g g' s s') (hg : TargetAlike g g')
    (hσ : σ.Faithful) (hσ' : σ'.Faithful) {t t' : Term} (ht : t.interpret σ = t'.interpret σ') :
    Verdict.Matches (fun _ _ => True) (g.checkCall s t) (g'.checkCall s' t') := by
  have hcall : (s.active && t.head == .var g.self) = (s'.active && t'.head == .var g'.self) := by
    have hhead := shape hσ hσ' (Term.head_congr hσ hσ' ht)
    generalize t.head = u, t'.head = u' at hhead
    have hvar : ∀ x y, (Term.var x == Term.var y) = (x == y) := by
      intro x y
      rw [Bool.eq_iff_iff, beq_iff_eq, beq_iff_eq, Term.var.injEq]
    have hother : ∀ (b : Bool) (u : Term) (y : String), (∀ x, u ≠ .var x) →
        (b && u == .var y) = false := by
      intro b u y hu
      rw [beq_eq_false_iff_ne.2 (hu y), Bool.and_false]
    cases hhead with
    | var hx => rw [hvar, hvar, h.refers _ _ hx]
    | _ =>
      refine (hother _ _ _ ?_).trans (hother _ _ _ ?_).symm
      · exact nofun
      · exact nofun
  unfold Target.checkCall
  rw [hcall, hg.index]
  split
  · rcases Term.map_eq_map_cases (Term.getElem?_args_congr hσ hσ' ht g.index) with
      ⟨ha, ha'⟩ | ⟨arg, arg', ha, ha', heq⟩
    · rw [ha, ha']
      exact Verdict.Matches.reject _ _
    · rw [ha, ha']
      dsimp only
      cases shape hσ hσ' heq with
      | @var x x' hx =>
        dsimp only
        by_cases hsmall : x ∈ s.smaller
        · rw [if_pos (decide_eq_true hsmall),
            if_pos (decide_eq_true ((h.smaller x x' hx).1 hsmall))]
          trivial
        · have hsmall' : x' ∉ s'.smaller := fun hmem => hsmall ((h.smaller x x' hx).2 hmem)
          rw [if_neg (by simpa using hsmall), if_neg (by simpa using hsmall')]
          exact Verdict.Matches.reject _ _
      | _ => exact Verdict.Matches.reject _ _
  · exact Verdict.Matches.pure trivial

/-! ## The visit -/

/-- A list of cases is visited alike if each case is. -/
theorem walkCases_matches (hg : TargetAlike g g') {cases cases' : List Term}
    (hc : cases.map (interpret σ) = cases'.map (interpret σ'))
    (ih : ∀ c ∈ cases, ∀ c' ∈ cases', c.interpret σ = c'.interpret σ' → ∀ site,
      Verdict.Matches (fun _ _ => True) (g.walk s site c) (g'.walk s' site c'))
    (constructors : List String) :
    Verdict.Matches (fun _ _ => True) (g.walkCases s constructors cases)
      (g'.walkCases s' constructors cases') := by
  induction cases generalizing cases' constructors with
  | nil =>
    obtain rfl : cases' = [] := List.map_eq_nil_iff.1 hc.symm
    exact Verdict.Matches.pure trivial
  | cons c rest ihrest =>
    obtain ⟨c', rest', rfl, hc', hrest⟩ := List.map_eq_cons_iff.1 hc.symm
    have hwalk := ih c List.mem_cons_self c' List.mem_cons_self hc'.symm
    have htail := ihrest hrest.symm
      (fun d hd d' hd' => ih d (List.mem_cons_of_mem _ hd) d' (List.mem_cons_of_mem _ hd'))
    cases constructors with
    | nil =>
      rw [Target.walkCases, Target.walkCases]
      exact (hwalk .operand).bind fun _ _ _ _ _ => htail []
    | cons name names =>
      rw [Target.walkCases, Target.walkCases, hg.fieldFamilies_eq name]
      exact (hwalk _).bind fun _ _ _ _ _ => htail names

/-- **The visit of two terms of the same meaning ends alike.** -/
theorem walk_matches {t t' : Term} {used used' : List String} (hg : TargetAlike g g')
    (h : ScopeAlike σ σ' g g' s s') (hσ : σ.Faithful) (hσ' : σ'.Faithful)
    (ht : t.interpret σ = t'.interpret σ') (hu : t.hygienic used = true)
    (hu' : t'.hygienic used' = true) (hp : Term.placeholder ∈ used)
    (hp' : Term.placeholder ∈ used') (site : Site) :
    Verdict.Matches (fun _ _ => True) (g.walk s site t) (g'.walk s' site t') := by
  induction t generalizing σ σ' s s' t' used used' site with
  | sort | global | lit | hole =>
    cases shape hσ hσ' ht
    exact Verdict.Matches.pure trivial
  | var x =>
    cases shape hσ hσ' ht with
    | var hx =>
      cases site with
      | head => exact Verdict.Matches.pure trivial
      | _ =>
        rw [Target.walk.eq_def, Target.walk.eq_def]
        dsimp only
        rw [h.refers _ _ hx]
        split
        · exact Verdict.Matches.reject _ _
        · exact Verdict.Matches.pure trivial
  | app f a ihf iha =>
    cases shape hσ hσ' ht with
    | app hf ha =>
      obtain ⟨huf, hua⟩ := Term.hygienic_app.1 hu
      obtain ⟨huf', hua'⟩ := Term.hygienic_app.1 hu'
      have hrest := (ihf h hσ hσ' hf huf huf' hp hp' .head).bind fun _ _ _ _ _ =>
        iha h hσ hσ' ha hua hua' hp hp' .operand
      cases site with
      | head => exact hrest
      | _ => exact (h.checkCall_matches hg hσ hσ' ht).bind fun _ _ _ _ _ => hrest
  | lam x a b iha ihb =>
    cases shape hσ hσ' ht with
    | @lam _ x' _ a' _ b' ha hb =>
      obtain ⟨hua, hux, hub⟩ := Term.hygienic_lam.1 hu
      obtain ⟨hua', hux', hub'⟩ := Term.hygienic_lam.1 hu'
      rw [Target.walk, Target.walk]
      refine (iha h hσ hσ' ha hua hua' hp hp' .operand).bind fun _ _ _ _ _ => ?_
      have hx : x ≠ Term.placeholder := by
        rintro rfl
        exact hux hp
      have hx' : x' ≠ Term.placeholder := by
        rintro rfl
        exact hux' hp'
      obtain ⟨hscope, hsite⟩ := h.enter hσ hσ' hx hx' site
      dsimp only
      rw [hsite]
      exact ihb hscope (hσ.under x) (hσ'.under x') hb hub hub' (List.mem_cons_of_mem _ hp)
        (List.mem_cons_of_mem _ hp') _
  | pi x a b iha ihb =>
    cases shape hσ hσ' ht with
    | @pi _ x' _ a' _ b' ha hb =>
      obtain ⟨hua, hux, hub⟩ := Term.hygienic_pi.1 hu
      obtain ⟨hua', hux', hub'⟩ := Term.hygienic_pi.1 hu'
      rw [Target.walk, Target.walk]
      refine (iha h hσ hσ' ha hua hua' hp hp' .operand).bind fun _ _ _ _ _ => ?_
      exact ihb (h.bind hσ hσ' x x') (hσ.under x) (hσ'.under x') hb hub hub'
        (List.mem_cons_of_mem _ hp) (List.mem_cons_of_mem _ hp') .operand
  | fix x b ihb =>
    cases shape hσ hσ' ht with
    | @fix _ x' _ b' hb =>
      obtain ⟨hux, _, hub⟩ := Term.hygienic_fix.1 hu
      obtain ⟨hux', _, hub'⟩ := Term.hygienic_fix.1 hu'
      rw [Target.walk, Target.walk]
      exact ihb (h.bind hσ hσ' x x') (hσ.under x) (hσ'.under x') hb hub hub'
        (List.mem_cons_of_mem _ hp) (List.mem_cons_of_mem _ hp') .operand
  | elim s₀ m cases ihs ihm ihc =>
    cases shape hσ hσ' ht with
    | elim hs hm hc =>
      obtain ⟨hus, hum, huc⟩ := Term.hygienic_elim.1 hu
      obtain ⟨hus', hum', huc'⟩ := Term.hygienic_elim.1 hu'
      rw [Target.walk, Target.walk]
      refine (ihs h hσ hσ' hs hus hus' hp hp' .operand).bind fun _ _ _ _ _ => ?_
      refine (ihm h hσ hσ' hm hum hum' hp hp' .operand).bind fun _ _ _ _ _ => ?_
      rw [h.constructorsOf_eq hg hσ hσ' hs]
      refine walkCases_matches hg hc (fun c hmem c' hmem' heq site => ?_) _
      exact ihc c hmem h hσ hσ' heq (huc c hmem) (huc' c' hmem') hp hp' site

/-! ## Whole fixpoints -/

/-- The parameters of a fixpoint are entered, and the body under them is visited, alike. -/
theorem enterParams_matches {t t' : Term} {used used' : List String} (hg : TargetAlike g g')
    (h : ScopeAlike σ σ' g g' s s') (hσ : σ.Faithful) (hσ' : σ'.Faithful)
    (ht : t.interpret σ = t'.interpret σ') (hu : t.hygienic used = true)
    (hu' : t'.hygienic used' = true) (hp : Term.placeholder ∈ used)
    (hp' : Term.placeholder ∈ used') (place : Option Nat) :
    Verdict.Matches (fun _ _ => True)
      (g.enterParams s place t.lambdaChain.1 >>= fun s => g.walk s .operand t.lambdaChain.2)
      (g'.enterParams s' place t'.lambdaChain.1 >>= fun s =>
        g'.walk s .operand t'.lambdaChain.2) := by
  induction t generalizing σ σ' s s' t' used used' place with
  | lam x a b _ ihb =>
    cases shape hσ hσ' ht with
    | @lam _ x' _ a' _ b' ha hb =>
      obtain ⟨hua, hux, hub⟩ := Term.hygienic_lam.1 hu
      obtain ⟨hua', hux', hub'⟩ := Term.hygienic_lam.1 hu'
      have hnext := @ihb (σ.under x) (σ'.under x')
      rw [Term.lambdaChain, Term.lambdaChain]
      dsimp only
      rw [Target.enterParams, Target.enterParams]
      refine Verdict.Matches.bind_bind ((walk_matches hg h hσ hσ' ha hua hua' hp hp' .operand).bind
        fun _ _ _ _ _ => ?_)
      by_cases hplace : place = some 0
      · rw [if_pos hplace, if_pos hplace]
        refine Verdict.Matches.bind_bind (Verdict.Matches.note_bind ?_)
        rw [Term.headGlobal?_congr hσ hσ' ha]
        refine hnext ((h.bind hσ hσ' x x').decreasing (hσ.under x) (hσ'.under x') ?_ _)
          (hσ.under x) (hσ'.under x') hb hub hub' (List.mem_cons_of_mem _ hp)
          (List.mem_cons_of_mem _ hp') none
        rw [Naming.under_self, Naming.under_self]
      · rw [if_neg hplace, if_neg hplace]
        exact hnext (h.bind hσ hσ' x x') (hσ.under x) (hσ'.under x') hb hub hub'
          (List.mem_cons_of_mem _ hp) (List.mem_cons_of_mem _ hp') _
  | _ =>
    cases shape hσ hσ' ht
    all_goals exact walk_matches hg h hσ hσ' ht hu hu' hp hp' .operand

end Guard

open Guard in
/-- **A fixpoint is guarded iff the fixpoint of the same meaning is.** -/
theorem checkTermination_matches {options : Options} {table : SymbolTable} {σ σ' : Naming}
    {x x' : String} {b b' : Term} {used used' : List String} (hσ : σ.Faithful) (hσ' : σ'.Faithful)
    (hb : b.interpret (σ.under x) = b'.interpret (σ'.under x')) (hu : b.hygienic used = true)
    (hu' : b'.hygienic used' = true) (hp : Term.placeholder ∈ used)
    (hp' : Term.placeholder ∈ used') :
    Verdict.Matches (fun _ _ => True) (checkTermination options table x b)
      (checkTermination options table x' b') := by
  unfold checkTermination
  rw [SymbolTable.structuralIndex?_congr (hσ.under x) (hσ'.under x') hb]
  cases table.structuralIndex? b' with
  | none => exact Verdict.Matches.reject _ _
  | some index =>
    have hscope : ScopeAlike (σ.under x) (σ'.under x') ⟨options, table, x, index⟩
        ⟨options, table, x', index⟩ .initial .initial := by
      refine ⟨fun y y' hy => ?_, fun y y' _ => ?_, fun y y' _ => rfl⟩
      · have hiff : y = x ↔ y' = x' := eq_iff_of_faithful (hσ.under x) (hσ'.under x')
          (by rw [Naming.under_self, Naming.under_self]) hy
        rw [Bool.eq_iff_iff]
        simpa [Scope.initial] using hiff
      · exact iff_of_false nofun nofun
    have htarget : TargetAlike ⟨options, table, x, index⟩ ⟨options, table, x', index⟩ := ⟨rfl, rfl⟩
    exact enterParams_matches htarget hscope (hσ.under x) (hσ'.under x') hb hu hu' hp hp' _

end ProofKernel
