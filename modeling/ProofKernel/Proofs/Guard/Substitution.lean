import ProofKernel.Proofs.Guard.Visit
import ProofKernel.Proofs.Nameless.Guard

/-!
# The guard and substitution

A visit depends only on what its scope knows of the free variables, and the more it knows the fewer
violations it meets.  Substitution renames binders and moves terms into places where more may be
known; neither leads to a violation.

* `Guard.Knows` compares what two scopes know of a variable each.
* `Guard.Target.Accepts.mono` is a visit in a scope that knows more.
* `Guard.Target.Accepts.substitute` is a visit after substitution of a term that
  `Guard.Target.StandsFor` the variable.
-/

set_option autoImplicit false
namespace ProofKernel

/-- A fresh name is the placeholder only if it was to begin with. -/
theorem fresh_ne_placeholder {base : String} (h : base ≠ Term.placeholder) (taken : List String) :
    fresh base taken ≠ Term.placeholder := by
  have hprime : ∀ name : String, name ++ "'" ≠ Term.placeholder := by
    intro name heq
    have hlast := congrArg (fun s : String => s.toList.getLast?) heq
    simp [Term.placeholder] at hlast
  have hwithin : ∀ (n : Nat) (name : String), name ≠ Term.placeholder →
      freshWithin taken n name ≠ Term.placeholder := by
    intro n
    induction n with
    | zero => exact fun name hname => hname
    | succ n ih =>
      intro name hname
      rw [freshWithin]
      split
      · exact ih _ (hprime name)
      · exact hname
  exact hwithin _ base h

namespace Guard

variable {g : Target} {s s' s'' : Scope} {site site' : Site} {x x' x'' n n' : String}

/-! ## Inside a binder -/

/-- The field that a function binds at a site, if it does: its inductive type, if any. -/
def Site.field? : Site → Option (Option String)
  | branch (family :: _) => some family
  | operand | head | branch [] => none

namespace Target

theorem inside_eq (g : Target) (s : Scope) (n : String) (site : Site) :
    g.inside s n site =
      match site.field? with
      | some family =>
        if n = Term.placeholder then s.bind g.self n else (s.bind g.self n).withSmaller n family
      | none => s.bind g.self n := by
  cases site with
  | operand | head => rfl
  | branch fields => cases fields <;> rfl

theorem refers_inside : (g.inside s n site).active = true ∧ x = g.self ↔
    x ≠ n ∧ s.active = true ∧ x = g.self := by
  have hactive : (g.inside s n site).active = (s.bind g.self n).active := by
    rw [inside_eq]
    split
    · split <;> rfl
    · rfl
  rw [hactive, Scope.bind, Bool.and_eq_true, bne_iff_ne]
  grind

theorem mem_smaller_inside : x ∈ (g.inside s n site).smaller ↔
    if x = n then site.field?.isSome ∧ n ≠ Term.placeholder else x ∈ s.smaller := by
  have hbind : x ∈ (s.bind g.self n).smaller ↔ x ∈ s.smaller ∧ x ≠ n := NameSet.mem_erase
  rw [inside_eq]
  cases site.field? with
  | none =>
    refine hbind.trans ?_
    by_cases hx : x = n <;> simp [hx]
  | some family =>
    dsimp only
    split
    · next hn =>
      refine hbind.trans ?_
      by_cases hx : x = n
      · rw [if_pos hx]
        exact iff_of_false (fun h => h.2 hx) fun h => h.2 hn
      · rw [if_neg hx]
        exact and_iff_left hx
    · next hn =>
      refine NameSet.mem_insert.trans ?_
      rw [hbind]
      by_cases hx : x = n <;> simp [hx, hn]

theorem matchers_inside : (g.inside s n site).matchers.get? x =
    if x = n then (if n = Term.placeholder then none else site.field?.join)
    else s.matchers.get? x := by
  have hbind : (s.bind g.self n).matchers.get? x = if x = n then none else s.matchers.get? x :=
    NameMap.get?_erase _ _ _
  rw [inside_eq]
  cases site.field? with
  | none =>
    refine hbind.trans ?_
    by_cases hx : x = n <;> simp [hx]
  | some family =>
    dsimp only
    split
    · exact hbind
    · cases family with
      | none =>
        refine hbind.trans ?_
        by_cases hx : x = n <;> simp [hx]
      | some f =>
        refine (NameMap.get?_put _ _ _ _).trans ?_
        rw [hbind]
        by_cases hx : x = n
        · simp [hx]
        · simp [hx, Ne.symm hx]

end Target

/-! ## Scopes that know more -/

/-- What one scope knows of a variable, another one knows of a variable of its own; and the first
one is the fixpoint if the second one is. -/
structure Knows (g : Target) (s s' : Scope) (x x' : String) : Prop where
  refers : s'.active = true ∧ x' = g.self → s.active = true ∧ x = g.self
  smaller : x ∈ s.smaller → x' ∈ s'.smaller
  matchers : ∀ family, s.matchers.get? x = some family → s'.matchers.get? x' = some family

/-- The sites of a case know more than that of an operand. -/
inductive Site.Le : Site → Site → Prop
  | refl (site : Site) : Le site site
  | branch (fields : List (Option String)) : Le .operand (.branch fields)

theorem Site.Le.inner (h : site.Le site') : site.inner.Le site'.inner := by
  cases h with
  | refl => exact .refl _
  | branch fields =>
    cases fields with
    | nil => exact .refl _
    | cons family rest => exact .branch rest

namespace Knows

theorem refl (g : Target) (s : Scope) (x : String) : Knows g s s x x :=
  ⟨id, id, fun _ => id⟩

theorem trans (h : Knows g s s' x x') (h' : Knows g s' s'' x' x'') :
    Knows g s s'' x x'' :=
  ⟨fun hx => h.refers (h'.refers hx), fun hx => h'.smaller (h.smaller hx),
    fun family hx => h'.matchers family (h.matchers family hx)⟩

/-- What is known of other variables is known inside a binder. -/
theorem inside_right (hx : x ≠ n) (g : Target) (s : Scope) (site : Site) :
    Knows g s (g.inside s n site) x x := by
  refine ⟨fun hr => (Target.refers_inside.1 hr).2, fun hr => ?_, fun family hr => ?_⟩
  · rwa [Target.mem_smaller_inside, if_neg hx]
  · rwa [Target.matchers_inside, if_neg hx]

/-- Inside a binder nothing new is known of other variables. -/
theorem inside_left (hx : x ≠ n) (g : Target) (s : Scope) (site : Site) :
    Knows g (g.inside s n site) s x x := by
  refine ⟨fun hr => Target.refers_inside.2 ⟨hx, hr⟩, fun hr => ?_, fun family hr => ?_⟩
  · rwa [Target.mem_smaller_inside, if_neg hx] at hr
  · rwa [Target.matchers_inside, if_neg hx] at hr

/-- What is known of other variables stays known inside binders. -/
theorem inside_of_ne (h : Knows g s s' x x') (hx : x ≠ n) (hx' : x' ≠ n') :
    Knows g (g.inside s n site) (g.inside s' n' site') x x' :=
  ((inside_left hx g s site).trans h).trans (inside_right hx' g s' site')

/-- What is known of the variable of a binder depends on the site only. -/
theorem inside_self (hsite : site.Le site') (hn : n ≠ Term.placeholder → n' ≠ Term.placeholder) :
    Knows g (g.inside s n site) (g.inside s' n' site') n n' := by
  refine ⟨fun hr => absurd rfl (Target.refers_inside.1 hr).1, fun hr => ?_, fun family hr => ?_⟩
  · rw [Target.mem_smaller_inside, if_pos rfl] at hr ⊢
    cases hsite with
    | refl => exact ⟨hr.1, hn hr.2⟩
    | branch => cases hr.1
  · rw [Target.matchers_inside, if_pos rfl] at hr ⊢
    split at hr
    · cases hr
    · next hplaceholder =>
      rw [if_neg (hn hplaceholder)]
      cases hsite with
      | refl => exact hr
      | branch => cases hr

/-- What is known inside two binders of one name. -/
theorem inside (hsite : site.Le site') (h : x ≠ n → Knows g s s' x x) :
    Knows g (g.inside s n site) (g.inside s' n site') x x := by
  by_cases hx : x = n
  · subst hx
    exact inside_self hsite id
  · exact (h hx).inside_of_ne hx hx

end Knows

namespace Target

variable {t r : Term} {y : String}

theorem mem_freeVars_of_head {f : Term} (h : x ∈ f.head.freeVars) : x ∈ f.freeVars := by
  induction f with
  | app f a ihf _ => exact List.mem_append_left _ (ihf h)
  | _ => exact h

theorem mem_freeVars_of_args {f : Term} {i : Nat} (h : f.args[i]? = some (.var x)) :
    x ∈ f.freeVars :=
  Term.freeVarsAll_args (Term.mem_freeVarsAll.2
    ⟨.var x, List.mem_of_getElem? h, List.mem_singleton_self x⟩)

/-- A call stays guarded in a scope that knows more. -/
theorem Guards.mono (h : g.Guards s t.head t.args)
    (hs : ∀ x ∈ t.freeVars, Knows g s s' x x) : g.Guards s' t.head t.args := by
  intro hactive hself
  have hmem : g.self ∈ t.freeVars :=
    mem_freeVars_of_head (hself ▸ List.mem_singleton_self g.self)
  obtain ⟨x, hx, hsmaller⟩ := h ((hs _ hmem).refers ⟨hactive, rfl⟩).1 hself
  exact ⟨x, hx, (hs x (mem_freeVars_of_args hx)).smaller hsmaller⟩

theorem operand_le_caseSite (g : Target) (constructor : Option String) :
    Site.operand.Le (g.caseSite constructor) := by
  cases constructor with
  | none => exact .refl _
  | some constructor => exact .branch _

/-- The site of a case knows at least as much when the scope knows more of the scrutinee. -/
theorem caseSite_le {scrutinee scrutinee' : Term}
    (h : ∀ x family, scrutinee = .var x → s.matchers.get? x = some family →
      ∃ x', scrutinee' = .var x' ∧ s'.matchers.get? x' = some family) (i : Nat) :
    (g.caseSite (g.constructorsOf s scrutinee)[i]?).Le
      (g.caseSite (g.constructorsOf s' scrutinee')[i]?) := by
  cases scrutinee with
  | var x =>
    cases hf : s.matchers.get? x with
    | none =>
      have hnone : g.constructorsOf s (.var x) = [] := by rw [constructorsOf, hf]
      rw [hnone]
      exact operand_le_caseSite g _
    | some family =>
      obtain ⟨x', rfl, hf'⟩ := h x family rfl hf
      have hsame : g.constructorsOf s (.var x) = g.constructorsOf s' (.var x') := by
        rw [constructorsOf, constructorsOf, hf, hf']
      rw [hsame]
      exact .refl _
  | _ => exact operand_le_caseSite g _

/-- **A visit meets no violation in a scope that knows more.** -/
theorem Accepts.mono (h : g.Accepts s site t) (hsite : site.Le site')
    (hs : ∀ x ∈ t.freeVars, Knows g s s' x x) : g.Accepts s' site' t := by
  induction t generalizing s s' site site' with
  | sort | global | lit | hole => rfl
  | var x =>
    rw [accepts_var] at h ⊢
    refine h.imp ?_ fun hn hr => hn ((hs x List.mem_cons_self).refers hr)
    rintro rfl
    cases hsite
    rfl
  | pi x a b iha ihb =>
    rw [Term.freeVars, List.forall_mem_append] at hs
    rw [accepts_pi] at h ⊢
    refine ⟨iha h.1 (.refl _) hs.1, ihb h.2 (.refl _) fun y hy => ?_⟩
    exact .inside (.refl _) fun hyx => hs.2 y (Term.mem_filter_ne.2 ⟨hy, hyx⟩)
  | lam x a b iha ihb =>
    rw [Term.freeVars, List.forall_mem_append] at hs
    rw [accepts_lam] at h ⊢
    refine ⟨iha h.1 (.refl _) hs.1, ihb h.2 hsite.inner fun y hy => ?_⟩
    exact .inside hsite fun hyx => hs.2 y (Term.mem_filter_ne.2 ⟨hy, hyx⟩)
  | fix x b ihb =>
    rw [accepts_fix] at h ⊢
    refine ihb h (.refl _) fun y hy => ?_
    exact .inside (.refl _) fun hyx => hs y (Term.mem_filter_ne.2 ⟨hy, hyx⟩)
  | app f a ihf iha =>
    have hparts := List.forall_mem_append.1 hs
    by_cases hhead : site = .head
    · subst hhead
      cases hsite
      rw [accepts_head_app] at h ⊢
      exact ⟨ihf h.1 (.refl _) hparts.1, iha h.2 (.refl _) hparts.2⟩
    · have hhead' : site' ≠ .head := by
        rintro rfl
        cases hsite
        exact hhead rfl
      rw [accepts_app hhead] at h
      rw [accepts_app hhead']
      exact ⟨Guards.mono (t := .app f a) h.1 hs, ihf h.2.1 (.refl _) hparts.1,
        iha h.2.2 (.refl _) hparts.2⟩
  | elim scrutinee m cases ihs ihm ihc =>
    rw [Term.freeVars, List.forall_mem_append, List.forall_mem_append] at hs
    obtain ⟨⟨hs, hm⟩, hcases⟩ := hs
    rw [accepts_elim] at h ⊢
    refine ⟨ihs h.1 (.refl _) hs, ihm h.2.1 (.refl _) hm, fun i c hc => ?_⟩
    have hmem := List.mem_of_getElem? hc
    refine ihc c hmem (h.2.2 i c hc) (caseSite_le ?_ i) fun x hx =>
      hcases x (Term.mem_freeVarsAll.2 ⟨c, hmem, hx⟩)
    rintro x family rfl hf
    exact ⟨x, rfl, (hs x List.mem_cons_self).matchers family hf⟩

/-! ## Substitution -/

/-- A term may stand for a variable: it is a variable of which as much is known, or nothing is known
of the variable and the term is accepted. -/
inductive StandsFor (g : Target) (s s' : Scope) (y : String) : Term → Prop
  | var {y' : String} (h : Knows g s s' y y') : StandsFor g s s' y (.var y')
  | term {r : Term} (hsmaller : y ∉ s.smaller) (hmatchers : s.matchers.get? y = none)
      (hr : g.Accepts s' .operand r) : StandsFor g s s' y r

/-- A term that is accepted as an operand is a guarded call, and may be applied. -/
theorem Accepts.guards (h : g.Accepts s .operand t) : g.Guards s t.head t.args := by
  cases t with
  | app f a => exact ((accepts_app (by simp)).1 h).1
  | var x =>
    intro hactive hself
    rcases accepts_var.1 h with h | h
    · cases h
    · exact absurd ⟨hactive, Term.var.inj hself⟩ h
  | _ => exact fun _ hself => nomatch hself

theorem Accepts.head (h : g.Accepts s .operand t) : g.Accepts s .head t := by
  cases t with
  | app f a => exact accepts_head_app.2 ((accepts_app (by simp)).1 h).2
  | var x => exact accepts_var.2 (.inl rfl)
  | _ => exact h

/-- What is accepted as an operand is accepted everywhere. -/
theorem Accepts.anywhere (h : g.Accepts s .operand t) (site : Site) : g.Accepts s site t := by
  cases site with
  | operand => exact h
  | head => exact h.head
  | branch fields => exact h.mono (.branch fields) fun x _ => .refl g s x

theorem head_ne_app (t f a : Term) : t.head ≠ .app f a := by
  induction t with
  | app f' a' ihf _ => exact ihf
  | _ => exact nofun

theorem head_substitute (t : Term) (y : String) (r : Term) :
    (t.substitute y r).head = (t.head.substitute y r).head := by
  induction t with
  | app f a ihf _ => rw [Term.substitute_app, Term.head, Term.head, ihf]
  | _ => rfl

theorem args_substitute (t : Term) (y : String) (r : Term) :
    (t.substitute y r).args =
      (t.head.substitute y r).args ++ t.args.map fun a => a.substitute y r := by
  induction t with
  | app f a ihf _ =>
    rw [Term.substitute_app, Term.args, Term.args, Term.head, ihf, List.map_append,
      List.append_assoc, List.map_singleton]
  | _ => simp [Term.head, Term.args]

/-- More arguments leave a call guarded. -/
theorem Guards.append {head : Term} {args : List Term} (h : g.Guards s head args)
    (more : List Term) : g.Guards s head (args ++ more) := by
  intro hactive hself
  obtain ⟨x, hx, hsmaller⟩ := h hactive hself
  exact ⟨x, (List.getElem?_append_left (List.getElem?_eq_some_iff.1 hx).1).trans hx, hsmaller⟩

/-- A call stays guarded after substitution. -/
theorem Guards.substitute (h : g.Guards s t.head t.args) (hr : g.StandsFor s s' y r)
    (hs : ∀ x ∈ t.freeVars, x ≠ y → Knows g s s' x x) :
    g.Guards s' (t.substitute y r).head (t.substitute y r).args := by
  intro hactive hself
  rw [head_substitute] at hself
  rw [args_substitute]
  -- the argument that guards the call is a variable, and stays one of which as much is known
  have hargs : s.active = true → t.head = .var g.self →
      ∃ x, (t.args.map fun a => a.substitute y r)[g.index]? = some (.var x) ∧ x ∈ s'.smaller := by
    intro hactive hself
    obtain ⟨z, hz, hsmaller⟩ := h hactive hself
    rw [List.getElem?_map, hz, Option.map_some, Term.substitute_var]
    by_cases hzy : z = y
    · subst hzy
      rw [if_pos rfl]
      cases hr with
      | var hknows => exact ⟨_, rfl, hknows.smaller hsmaller⟩
      | term hunknown => exact absurd hsmaller hunknown
    · rw [if_neg hzy]
      exact ⟨z, rfl, (hs z (mem_freeVars_of_args hz) hzy).smaller hsmaller⟩
  cases hhead : t.head with
  | var x =>
    rw [hhead, Term.substitute_var] at hself
    rw [Term.substitute_var]
    by_cases hxy : x = y
    · subst hxy
      rw [if_pos rfl] at hself ⊢
      cases hr with
      | var hknows =>
        obtain ⟨hactive, rfl⟩ := hknows.refers ⟨hactive, Term.var.inj hself⟩
        exact hargs hactive hhead
      | term _ _ hr => exact hr.guards.append _ hactive hself
    · rw [if_neg hxy] at hself ⊢
      obtain rfl := Term.var.inj hself
      have hmem : g.self ∈ t.freeVars :=
        mem_freeVars_of_head (hhead ▸ List.mem_singleton_self g.self)
      exact hargs ((hs _ hmem hxy).refers ⟨hactive, rfl⟩).1 hhead
  | app f a => exact absurd hhead (head_ne_app t f a)
  | pi | lam | fix =>
    simp [hhead, Term.substitute_pi, Term.substitute_lam, Term.substitute_fix, Term.head] at hself
  | _ => simp [hhead, Term.head] at hself

/-- A term that stands for a variable does so inside a binder of which neither has the name. -/
theorem StandsFor.inside (h : g.StandsFor s s' y r) (hy : y ≠ n) (hn : n ∉ r.freeVars)
    (site : Site) : g.StandsFor (g.inside s n site) (g.inside s' n site) y r := by
  cases h with
  | @var y' h =>
    have hy' : y' ≠ n := fun heq => hn (List.mem_singleton.2 heq.symm)
    exact .var (h.inside_of_ne hy hy')
  | term hsmaller hmatchers hr =>
    refine .term ?_ ?_ (hr.mono (.refl _) fun x hx => ?_)
    · rwa [mem_smaller_inside, if_neg hy]
    · rwa [matchers_inside, if_neg hy]
    · refine .inside_right ?_ g s' site
      rintro rfl
      exact hn hx

/-- Substitution in the body of a binder. -/
theorem Accepts.substituteBody {b : Term}
    (ih : ∀ (t : Term) (y : String) (r : Term) (s s' : Scope) (site : Site), t.size = b.size →
      g.Accepts s site t → g.StandsFor s s' y r →
      (∀ x ∈ t.freeVars, x ≠ y → Knows g s s' x x) → g.Accepts s' site (t.substitute y r))
    (h : g.Accepts (g.inside s n site) site.inner b) (hr : g.StandsFor s s' y r)
    (hs : ∀ x ∈ b.freeVars.filter (· != n), x ≠ y → Knows g s s' x x) :
    g.Accepts (g.inside s' (Term.substituteBody n b y r).1 site) site.inner
      (Term.substituteBody n b y r).2 := by
  unfold Term.substituteBody
  by_cases hny : n = y
  · -- the binder hides the variable
    rw [if_pos hny]
    refine h.mono (.refl _) fun x hx => .inside (.refl _) fun hxn => ?_
    exact hs x (Term.mem_filter_ne.2 ⟨hx, hxn⟩) (hny ▸ hxn)
  rw [if_neg hny]
  split
  · -- the binder is renamed, and as much is known of its new name
    have hfresh := fresh_not_mem n (y :: r.freeVars ++ b.freeVars)
    have hplaceholder : n ≠ Term.placeholder →
        fresh n (y :: r.freeVars ++ b.freeVars) ≠ Term.placeholder :=
      fun hn => fresh_ne_placeholder hn _
    generalize fresh n (y :: r.freeVars ++ b.freeVars) = n' at hfresh hplaceholder
    simp only [List.cons_append, List.mem_cons, List.mem_append, not_or] at hfresh
    obtain ⟨hy, hnr, hnb⟩ := hfresh
    have hrenamed : g.Accepts (g.inside s n' site) site.inner (b.substitute n (.var n')) := by
      refine ih b n (.var n') _ _ _ rfl h (.var (.inside_self (.refl _) hplaceholder)) ?_
      intro x hx hxn
      exact (Knows.refl g s x).inside_of_ne hxn fun heq => hnb (heq ▸ hx)
    refine ih _ y r _ _ _ (Term.size_substitute_var ..) hrenamed
      (hr.inside (Ne.symm hy) hnr site) fun x hx hxy => .inside (.refl _) fun hxn' => ?_
    rcases Term.mem_freeVars_substitute.1 hx with ⟨hx, hxn⟩ | ⟨_, hx⟩
    · exact hs x (Term.mem_filter_ne.2 ⟨hx, hxn⟩) hxy
    · exact absurd (List.mem_singleton.1 hx) hxn'
  · next hsafe =>
    have hknows : ∀ x ∈ b.freeVars, x ≠ y →
        Knows g (g.inside s n site) (g.inside s' n site) x x := fun x hx hxy =>
      .inside (.refl _) fun hxn => hs x (Term.mem_filter_ne.2 ⟨hx, hxn⟩) hxy
    by_cases hnr : n ∈ r.freeVars
    · -- the variable does not occur in the body
      have hyb : y ∉ b.freeVars := by
        intro hyb
        refine hsafe ?_
        rw [(Term.occurs_iff_mem_freeVars y b).2 hyb, Bool.and_true]
        exact List.contains_iff_mem.2 hnr
      rw [Term.substitute_of_not_mem r hyb]
      exact h.mono (.refl _) fun x hx => hknows x hx fun heq => hyb (heq ▸ hx)
    · exact ih b y r _ _ _ rfl h (hr.inside (Ne.symm hny) hnr site) hknows

/-- A variable is accepted after substitution where it was accepted. -/
theorem StandsFor.accepts_var {x : String} (hr : g.StandsFor s s' y r)
    (hx : x ≠ y → Knows g s s' x x) (h : g.Accepts s site (.var x)) :
    g.Accepts s' site ((Term.var x).substitute y r) := by
  rw [Term.substitute_var]
  by_cases hxy : x = y
  · subst hxy
    rw [if_pos rfl]
    cases hr with
    | var hknows =>
      rw [Target.accepts_var] at h ⊢
      exact h.imp_right fun hn hr => hn (hknows.refers hr)
    | term _ _ hr => exact hr.anywhere site
  · rw [if_neg hxy]
    refine h.mono (.refl _) fun z hz => ?_
    obtain rfl := List.mem_singleton.1 hz
    exact hx hxy

/-- A scrutinee whose constructors are known is a variable after substitution, and they are known
there. -/
theorem StandsFor.caseSite_le {scrutinee : Term} (hr : g.StandsFor s s' y r)
    (hs : ∀ x ∈ scrutinee.freeVars, x ≠ y → Knows g s s' x x) (i : Nat) :
    (g.caseSite (g.constructorsOf s scrutinee)[i]?).Le
      (g.caseSite (g.constructorsOf s' (scrutinee.substitute y r))[i]?) := by
  refine Target.caseSite_le ?_ i
  rintro x family rfl hf
  rw [Term.substitute_var]
  by_cases hxy : x = y
  · subst hxy
    rw [if_pos rfl]
    cases hr with
    | @var y' hknows => exact ⟨y', rfl, hknows.matchers family hf⟩
    | term _ hmatchers =>
      rw [hmatchers] at hf
      cases hf
  · rw [if_neg hxy]
    exact ⟨x, rfl, (hs x List.mem_cons_self hxy).matchers family hf⟩

/-- **A visit meets no violation after substitution** of a term that stands for the variable. -/
theorem Accepts.substitute (h : g.Accepts s site t) (hr : g.StandsFor s s' y r)
    (hs : ∀ x ∈ t.freeVars, x ≠ y → Knows g s s' x x) : g.Accepts s' site (t.substitute y r) := by
  -- a renamed body is not a part of the term, but it has the size of one
  induction hn : t.size using Nat.strongRecOn generalizing t y r s s' site with
  | ind n ih =>
    subst hn
    have hbody : ∀ {b : Term}, b.size < t.size → ∀ (u : Term) (y : String) (r : Term)
        (s s' : Scope) (site : Site), u.size = b.size → g.Accepts s site u →
        g.StandsFor s s' y r → (∀ x ∈ u.freeVars, x ≠ y → Knows g s s' x x) →
        g.Accepts s' site (u.substitute y r) :=
      fun hb u y r s s' site hu h hr hs => ih u.size (by omega) h hr hs rfl
    have hpart : ∀ {u : Term} {site : Site}, u.size < t.size → g.Accepts s site u →
        (∀ x ∈ u.freeVars, x ≠ y → Knows g s s' x x) → g.Accepts s' site (u.substitute y r) :=
      fun hu h hs => hbody hu _ y r s s' _ rfl h hr hs
    cases t with
    | sort | global | lit | hole => rfl
    | var x => exact hr.accepts_var (hs x List.mem_cons_self) h
    | pi x a b =>
      rw [Term.freeVars, List.forall_mem_append] at hs
      rw [accepts_pi] at h
      rw [Term.substitute_pi, accepts_pi]
      exact ⟨hpart (by simp only [Term.size]; omega) h.1 hs.1,
        Accepts.substituteBody (hbody (by simp only [Term.size]; omega)) h.2 hr hs.2⟩
    | lam x a b =>
      rw [Term.freeVars, List.forall_mem_append] at hs
      rw [accepts_lam] at h
      rw [Term.substitute_lam, accepts_lam]
      exact ⟨hpart (by simp only [Term.size]; omega) h.1 hs.1,
        Accepts.substituteBody (hbody (by simp only [Term.size]; omega)) h.2 hr hs.2⟩
    | fix x b =>
      rw [accepts_fix] at h
      rw [Term.substitute_fix, accepts_fix]
      exact Accepts.substituteBody (hbody (by simp only [Term.size]; omega)) h hr hs
    | app f a =>
      have hparts := List.forall_mem_append.1 hs
      have hf : ∀ {site : Site}, g.Accepts s site f → g.Accepts s' site (f.substitute y r) :=
        fun h => hpart (by simp only [Term.size]; omega) h hparts.1
      have ha : g.Accepts s .operand a → g.Accepts s' .operand (a.substitute y r) :=
        fun h => hpart (by simp only [Term.size]; omega) h hparts.2
      by_cases hhead : site = .head
      · subst hhead
        rw [accepts_head_app] at h
        rw [Term.substitute_app, accepts_head_app]
        exact ⟨hf h.1, ha h.2⟩
      · rw [accepts_app hhead] at h
        have hguards := Guards.substitute (t := .app f a) h.1 hr hs
        rw [Term.substitute_app] at hguards ⊢
        exact (accepts_app hhead).2 ⟨hguards, hf h.2.1, ha h.2.2⟩
    | elim scrutinee m cases =>
      rw [Term.freeVars, List.forall_mem_append, List.forall_mem_append] at hs
      obtain ⟨⟨hs, hm⟩, hcases⟩ := hs
      rw [accepts_elim] at h
      rw [Term.substitute_elim, accepts_elim]
      refine ⟨hpart (by simp only [Term.size]; omega) h.1 hs,
        hpart (by simp only [Term.size]; omega) h.2.1 hm, fun i c hc => ?_⟩
      rw [List.getElem?_map, Option.map_eq_some_iff] at hc
      obtain ⟨c, hc, rfl⟩ := hc
      have hmem := List.mem_of_getElem? hc
      have hsize := Term.size_le_sizes hmem
      have hsubst := hpart (by simp only [Term.size]; omega) (h.2.2 i c hc)
        fun x hx => hcases x (Term.mem_freeVarsAll.2 ⟨c, hmem, hx⟩)
      exact hsubst.mono (hr.caseSite_le hs i) fun x _ => .refl g s' x

end Target
end Guard
end ProofKernel
