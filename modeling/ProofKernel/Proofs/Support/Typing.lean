import ProofKernel.Proofs.Support.Guard
import ProofKernel.Proofs.Typing.Rules

/-!
# Typing over tables that agree

A term that rests on a set of names gets the same judgements over two tables that agree on the set,
with the same log, and the types that are inferred for it rest on the set again.

* `Judged` says so of all judgements about one term, and is shown from smaller terms, node by node.
* `SymbolTable.Shared.infer`, `SymbolTable.Shared.check` and `SymbolTable.Shared.inferSort` say it
  of all terms.
-/

set_option autoImplicit false
namespace ProofKernel

variable {options : Options} {S : Leaf → Prop} {table table' : SymbolTable} {locals : Telescope}

/-! ## Small parts of the judgements -/

/-- The types of local variables rest on a set. -/
def LocalsOver (S : Leaf → Prop) (locals : Telescope) : Prop :=
  ∀ p ∈ locals, p.2.Over S

theorem LocalsOver.cons {x : String} {a : Term} (h : LocalsOver S locals) (ha : a.Over S) :
    LocalsOver S ((x, a) :: locals) :=
  List.forall_mem_cons.2 ⟨ha, h⟩

theorem LocalsOver.get? {x : String} {a : Term} (h : LocalsOver S locals)
    (hx : (⟨table, locals⟩ : Context).get? x = some a) : a.Over S := by
  unfold Context.get? at hx
  dsimp only at hx
  induction locals with
  | nil => cases hx
  | cons p rest ih =>
    obtain ⟨hp, hrest⟩ := List.forall_mem_cons.1 h
    rw [List.lookup_cons] at hx
    split at hx
    · cases hx
      exact hp
    · exact ih hrest hx

theorem Term.Over.openLambda {Γ : Context} {x y : String} {b codomain : Term} (hb : b.Over S)
    (hc : codomain.Over S) :
    (ProofKernel.openLambda Γ x b y codomain).2.1.Over S ∧
      (ProofKernel.openLambda Γ x b y codomain).2.2.Over S := by
  unfold ProofKernel.openLambda
  split
  · exact ⟨hb, hc⟩
  split
  · exact ⟨hb.rename _ _, hc.rename _ _⟩
  · exact ⟨hb, hc.rename _ _⟩

theorem Term.Over.effectiveMotive {m type motiveType motive : Term} (hm : m.Over S)
    (htype : type.Over S)
    (h : (ProofKernel.effectiveMotive m type motiveType).outcome = .ok motive) :
    motive.Over S := by
  unfold ProofKernel.effectiveMotive at h
  split at h
  · cases h
    exact over_lam.2 ⟨htype, hm⟩
  · split at h
    · cases h
    split at h
    · cases h
      exact hm
    · cases h
  · cases h

theorem SymbolTable.Shared.compare (h : Shared S table table') {expected found : Term}
    (he : expected.Over S) (hf : found.Over S) :
    ProofKernel.compare options ⟨table, locals⟩ expected found =
      ProofKernel.compare options ⟨table', locals⟩ expected found := by
  unfold ProofKernel.compare
  rw [h.isSubtype hf he]

/-! ## All judgements about one term -/

/-- What is judged of a term is the same over two tables, and the types that are found rest on the
set. -/
structure Judged (options : Options) (S : Leaf → Prop) (table table' : SymbolTable) (t : Term) :
    Prop where
  infer : ∀ {locals : Telescope}, LocalsOver S locals →
    Verdict.Same (Term.Over S) (infer options ⟨table, locals⟩ t) (infer options ⟨table', locals⟩ t)
  check : ∀ {locals : Telescope} {expected : Term}, LocalsOver S locals → expected.Over S →
    check options ⟨table, locals⟩ t expected = check options ⟨table', locals⟩ t expected
  fixType : ∀ {locals : Telescope}, LocalsOver S locals →
    Verdict.Same (Term.Over S) (fixType options ⟨table, locals⟩ t)
      (fixType options ⟨table', locals⟩ t)

theorem Judged.inferSort {t : Term} (ht : Judged options S table table' t)
    (h : SymbolTable.Shared S table table') (hl : LocalsOver S locals) :
    ProofKernel.inferSort options ⟨table, locals⟩ t =
      ProofKernel.inferSort options ⟨table', locals⟩ t := by
  rw [ProofKernel.inferSort, ProofKernel.inferSort]
  refine ((ht.infer hl).bind (Q := fun _ => True) fun type htype => ?_).eq
  exact .lift_bind (h.asSort htype) (.refl _)

theorem Judged.checkCases {cases : List Term}
    (hcases : ∀ c ∈ cases, Judged options S table table' c)
    (h : SymbolTable.Shared S table table') (hl : LocalsOver S locals) {motive : Term}
    {params : List Term} {constructors : List String} (hm : motive.Over S)
    (hp : ∀ p ∈ params, p.Over S) (hc : ∀ c ∈ constructors, S (.global c)) :
    ProofKernel.checkCases options ⟨table, locals⟩ motive params constructors cases =
      ProofKernel.checkCases options ⟨table', locals⟩ motive params constructors cases := by
  induction cases generalizing constructors with
  | nil => cases constructors <;> rw [ProofKernel.checkCases.eq_def, ProofKernel.checkCases.eq_def]
  | cons c rest ih =>
    rw [List.forall_mem_cons] at hcases
    cases constructors with
    | nil => rw [ProofKernel.checkCases.eq_def, ProofKernel.checkCases.eq_def]
    | cons name names =>
      rw [List.forall_mem_cons] at hc
      rw [ProofKernel.checkCases, ProofKernel.checkCases]
      dsimp only
      rw [← h.constructor? hc.1]
      cases hconstructor : table.constructor? name with
      | none => rfl
      | some constructor =>
        have htype := ((h.entries name hc.1).constructor constructor hconstructor).1
        have hexpected := Term.Over.caseType hm hc.1 htype hp
        dsimp only
        rw [hcases.1.check hl hexpected, ih hcases.2 hc.2]

theorem Judged.synthesize_app {f a : Term} (hf : Judged options S table table' f)
    (ha : Judged options S table table' a) (h : SymbolTable.Shared S table table')
    (hl : LocalsOver S locals) (hover : a.Over S) :
    Verdict.Same (Term.Over S) (synthesize options ⟨table, locals⟩ (.app f a))
      (synthesize options ⟨table', locals⟩ (.app f a)) := by
  rw [synthesize, synthesize]
  refine (hf.infer hl).bind fun type htype => .lift_bind (h.asPi htype) ?_
  cases hpi : (asPi options table type).value with
  | none => exact .reject _
  | some p =>
    obtain ⟨x, domain, codomain⟩ := p
    obtain ⟨hdomain, hcodomain⟩ := htype.asPi h hpi
    dsimp only
    rw [ha.check hl hdomain]
    exact (Verdict.Same.refl _).bind fun _ _ => .pure (hcodomain.substitute x hover)

theorem Judged.synthesize_elim {s m : Term} {cases : List Term}
    (hs : Judged options S table table' s) (hm : Judged options S table table' m)
    (hcases : ∀ c ∈ cases, Judged options S table table' c)
    (h : SymbolTable.Shared S table table') (hl : LocalsOver S locals) (hsOver : s.Over S)
    (hmOver : m.Over S) :
    Verdict.Same (Term.Over S) (synthesize options ⟨table, locals⟩ (.elim s m cases))
      (synthesize options ⟨table', locals⟩ (.elim s m cases)) := by
  rw [synthesize, synthesize]
  refine (hs.infer hl).bind fun S₀ hS₀ => .lift_bind (h.normalize hS₀) ?_
  rw [SymbolTable.value_normalize]
  have htype := hS₀.reduce h.unfolds options.fuel
  dsimp only
  rw [← h.familyOf htype]
  refine (Verdict.Same.ofExcept (P := fun p => (∀ c ∈ p.1.constructors, S (.global c)) ∧
    ∀ a ∈ p.2, a.Over S) fun p hp => htype.familyOf h hp).bind fun p hp => ?_
  obtain ⟨family, params⟩ := p
  refine (hm.infer hl).bind fun M hM => .lift_bind (h.normalize hM) ?_
  refine Verdict.Same.bind ⟨rfl, fun motive hmotive => hmOver.effectiveMotive htype hmotive⟩
    fun motive hmotive => ?_
  split
  · exact (Verdict.Same.reject (P := fun _ => False) _).bind fun _ hfalse => hfalse.elim
  · rw [Judged.checkCases hcases h hl hmotive hp.2 hp.1]
    refine (Verdict.Same.refl _).bind fun _ _ => .pure ?_
    exact (Term.over_app.2 ⟨hmotive, hsOver⟩).betaReduce

section Parts

variable {t : Term} (h : SymbolTable.Shared S table table') (ht : t.Over S)
  (ih : ∀ u : Term, u.size < t.size → u.Over S → Judged options S table table' u)
include h ht ih

/-- Inference by the rule for the outermost node. -/
theorem synthesize_same (hl : LocalsOver S locals) :
    Verdict.Same (Term.Over S) (synthesize options ⟨table, locals⟩ t)
      (synthesize options ⟨table', locals⟩ t) := by
  cases t with
  | sort u =>
    rw [synthesize, synthesize]
    exact .pure (Term.over_sort _)
  | lit value =>
    rw [synthesize, synthesize]
    exact .pure (Term.over_global.2 (h.literal value))
  | hole =>
    rw [synthesize, synthesize]
    exact .reject _
  | var x =>
    rw [synthesize, synthesize]
    cases hx : (⟨table, locals⟩ : Context).get? x with
    | none =>
      rw [show (⟨table', locals⟩ : Context).get? x = none from hx]
      exact .reject _
    | some a =>
      rw [show (⟨table', locals⟩ : Context).get? x = some a from hx]
      exact .pure (hl.get? hx)
  | global x =>
    have hx := Term.over_global.1 ht
    rw [synthesize, synthesize]
    dsimp only
    rw [← h.type? hx]
    cases hA : table.type? x with
    | none => exact .reject _
    | some A => exact .pure ((h.entries x hx).type? hA)
  | pi x a b =>
    obtain ⟨ha, hb⟩ := Term.over_pi.1 ht
    have iha := ih a (by simp only [Term.size]; omega) ha
    have ihb := ih b (by simp only [Term.size]; omega) hb
    rw [synthesize, synthesize, iha.inferSort h hl]
    refine (Verdict.Same.refl _).bind fun u _ => ?_
    have hsort := ihb.inferSort h (hl.cons (x := x) ha)
    unfold Context.extend
    dsimp only
    rw [hsort]
    exact (Verdict.Same.refl _).bind fun v _ => .pure (Term.over_sort _)
  | lam x a b =>
    obtain ⟨ha, hb⟩ := Term.over_lam.1 ht
    have iha := ih a (by simp only [Term.size]; omega) ha
    have ihb := ih b (by simp only [Term.size]; omega) hb
    rw [synthesize, synthesize, iha.inferSort h hl]
    refine (Verdict.Same.refl _).bind fun u _ => ?_
    refine (ihb.infer (hl.cons ha)).bind fun type htype => ?_
    exact .pure (Term.over_pi.2 ⟨ha, htype⟩)
  | app f a =>
    obtain ⟨hf, ha⟩ := Term.over_app.1 ht
    have ihf := ih f (by simp only [Term.size]; omega) hf
    have iha := ih a (by simp only [Term.size]; omega) ha
    exact ihf.synthesize_app iha h hl ha
  | elim s m cases =>
    obtain ⟨hs, hm, hc⟩ := Term.over_elim.1 ht
    have ihs := ih s (by simp only [Term.size]; omega) hs
    have ihm := ih m (by simp only [Term.size]; omega) hm
    have ihc : ∀ c ∈ cases, Judged options S table table' c := by
      intro c hmem
      have := Term.size_le_sizes hmem
      exact ih c (by simp only [Term.size]; omega) (hc c hmem)
    exact ihs.synthesize_elim ihm ihc h hl hs hm
  | fix x b =>
    have hb := Term.over_fix.1 ht
    have ihb := ih b (by simp only [Term.size]; omega) hb
    rw [synthesize, synthesize]
    dsimp only
    rw [h.checkTermination hb]
    refine (Verdict.Same.refl _).bind fun _ _ => ?_
    refine (ihb.fixType hl).bind fun type htype => .note_bind ?_
    have hcheck := ihb.check (hl.cons (x := x) htype) htype
    unfold Context.extend
    dsimp only
    rw [hcheck]
    exact (Verdict.Same.refl _).bind fun _ _ => .pure htype

theorem infer_same (hl : LocalsOver S locals) :
    Verdict.Same (Term.Over S) (infer options ⟨table, locals⟩ t)
      (infer options ⟨table', locals⟩ t) := by
  rw [infer, infer]
  exact (synthesize_same h ht ih hl).bind fun type htype => .note_bind (.pure htype)

theorem check_same {expected : Term} (hl : LocalsOver S locals) (he : expected.Over S) :
    check options ⟨table, locals⟩ t expected = check options ⟨table', locals⟩ t expected := by
  have hinfer := infer_same h ht ih hl
  by_cases hhole : expected = .hole
  · rw [hhole, check_expected_hole, check_expected_hole]
    exact (Verdict.Same.note_bind (Q := fun _ => True)
      (hinfer.bind fun _ _ => .refl _)).eq
  by_cases htHole : t = .hole
  · rw [htHole, check_hole hhole, check_hole hhole]
    exact (Verdict.Same.note_bind (Q := fun _ => True)
      (.lift_bind (h.asSort he) (.refl _))).eq
  by_cases hopen : ∃ x a b, t = .lam x a b ∧ a.isPlaceholder = true
  · obtain ⟨x, a, b, rfl, ha⟩ := hopen
    rw [check_open hhole ha, check_open hhole ha]
    refine (Verdict.Same.note_bind (Q := fun _ => True) (.lift_bind (h.asPi he) ?_)).eq
    cases hpi : (asPi options table expected).value with
    | none => exact .reject _
    | some p =>
      obtain ⟨y, domain, codomain⟩ := p
      obtain ⟨hdomain, hcodomain⟩ := he.asPi h hpi
      obtain ⟨hbody, htype⟩ := (Term.over_lam.1 ht).2.openLambda (Γ := ⟨table, locals⟩) (x := x)
        (y := y) hcodomain
      have ihb := ih _ (by rw [size_openLambda, Term.size]; omega) hbody
      exact ⟨ihb.check (hl.cons hdomain) htype, fun _ _ => trivial⟩
  · have hother : ∀ x a b, t = .lam x a b → a.isPlaceholder = false := by
      intro x a b heq
      cases ha : a.isPlaceholder with
      | false => rfl
      | true => exact absurd ⟨x, a, b, heq, ha⟩ hopen
    rw [check_other hhole htHole hother, check_other hhole htHole hother]
    refine (Verdict.Same.note_bind (Q := fun _ => True) (hinfer.bind fun type htype => ?_)).eq
    rw [h.compare he htype]
    exact .refl _

theorem fixType_same (hl : LocalsOver S locals) :
    Verdict.Same (Term.Over S) (fixType options ⟨table, locals⟩ t)
      (fixType options ⟨table', locals⟩ t) := by
  have hinfer := infer_same h ht ih hl
  cases t with
  | lam x a b =>
    obtain ⟨ha, hb⟩ := Term.over_lam.1 ht
    have iha := ih a (by simp only [Term.size]; omega) ha
    have ihb := ih b (by simp only [Term.size]; omega) hb
    rw [fixType, fixType, iha.inferSort h hl]
    refine (Verdict.Same.refl _).bind fun u _ => ?_
    refine (ihb.fixType (hl.cons ha)).bind fun type htype => ?_
    exact .pure (Term.over_pi.2 ⟨ha, htype⟩)
  | elim s m cases =>
    obtain ⟨hs, hm, _⟩ := Term.over_elim.1 ht
    have ihm := ih m (by simp only [Term.size]; omega) hm
    by_cases hlam : ∃ x a b, m = .lam x a b
    · obtain ⟨x, a, b, rfl⟩ := hlam
      rw [fixType, fixType]
      exact .pure ((Term.over_lam.1 hm).2.substitute x hs)
    · have hm' : ∀ x a b, m ≠ .lam x a b := fun x a b heq => hlam ⟨x, a, b, heq⟩
      rw [fixType_elim hm', fixType_elim hm']
      refine (ihm.infer hl).bind fun M hM => .lift_bind (h.asSort hM) ?_
      dsimp only
      split
      · exact .pure hm
      · exact .pure (Term.over_app.2 ⟨hm, hs⟩).betaReduce
  | _ =>
    rw [fixType.eq_def, fixType.eq_def options ⟨table', locals⟩]
    exact hinfer

end Parts

/-- **A term that rests on a set is judged alike over tables that agree on it.** -/
theorem judged (h : SymbolTable.Shared S table table') {t : Term} (ht : t.Over S) :
    Judged options S table table' t := by
  induction hn : t.size using Nat.strongRecOn generalizing t with
  | ind n ih =>
    subst hn
    have hparts : ∀ u : Term, u.size < t.size → u.Over S → Judged options S table table' u :=
      fun u hu ho => ih u.size hu ho rfl
    exact ⟨infer_same h ht hparts, check_same h ht hparts, fixType_same h ht hparts⟩

namespace SymbolTable.Shared

variable {t : Term}

theorem infer (h : Shared S table table') (ht : t.Over S) (hl : LocalsOver S locals) :
    Verdict.Same (Term.Over S) (ProofKernel.infer options ⟨table, locals⟩ t)
      (ProofKernel.infer options ⟨table', locals⟩ t) :=
  (judged h ht).infer hl

theorem check (h : Shared S table table') {expected : Term} (ht : t.Over S)
    (hl : LocalsOver S locals) (he : expected.Over S) :
    ProofKernel.check options ⟨table, locals⟩ t expected =
      ProofKernel.check options ⟨table', locals⟩ t expected :=
  (judged h ht).check hl he

theorem inferSort (h : Shared S table table') (ht : t.Over S) (hl : LocalsOver S locals) :
    ProofKernel.inferSort options ⟨table, locals⟩ t =
      ProofKernel.inferSort options ⟨table', locals⟩ t :=
  (judged h ht).inferSort h hl

end SymbolTable.Shared
end ProofKernel
