import ProofKernel.Typing
import ProofKernel.Proofs.Reduction.Steps
import ProofKernel.Proofs.Support.Tables

/-!
# Reduction over tables that agree

Reduction gives the same answers over two tables that agree on a set, for terms that rest on it, and
what it gives rests on it again.

* `SymbolTable.Shared.step?` and `Term.Over.step?` are one step, `SymbolTable.Shared.normalize` and
  `Term.Over.reduce` any number of them.
* `SymbolTable.Shared.asPi`, `SymbolTable.Shared.familyOf` and their siblings are the questions that
  typing asks about a type.

Both statements go through the recognizers of redexes: which constructor a term is headed by, which
argument of a fixpoint is structural, and which operation is applied to literals.
-/

set_option autoImplicit false
namespace ProofKernel

variable {S : Leaf → Prop} {table table' : SymbolTable} {t u : Term}

namespace SymbolTable.Shared

/-! ## Recognizing redexes -/

theorem constructorForm? (h : Shared S table table') (ht : t.Over S) :
    table.constructorForm? t = table'.constructorForm? t := by
  unfold SymbolTable.constructorForm?
  cases hname : t.headGlobal? with
  | none => rfl
  | some name =>
    have hS := ht.headGlobal? hname
    simp only [Option.bind_eq_bind, Option.bind_some, ← h.constructor? hS]
    cases hc : table.constructor? name with
    | none => rfl
    | some c => simp only [Option.bind_some, h.family? ((h.entries name hS).constructor c hc).2]

theorem structuralIndexOf (h : Shared S table table') {binders : Telescope}
    (hb : ∀ p ∈ binders, p.2.Over S) :
    table.structuralIndexOf binders = table'.structuralIndexOf binders := by
  unfold SymbolTable.structuralIndexOf
  induction binders with
  | nil => rfl
  | cons p rest ih =>
    rw [List.forall_mem_cons] at hb
    have hhead : p.2.headGlobal?.map table.isFamily = p.2.headGlobal?.map table'.isFamily :=
      Option.map_congr fun name hname => h.isFamily (hb.1.headGlobal? hname)
    simp only [List.findIdx?_cons, hhead, ih hb.2]

theorem structuralIndex? (h : Shared S table table') (ht : t.Over S) :
    table.structuralIndex? t = table'.structuralIndex? t :=
  h.structuralIndexOf ht.lambdaChain.1

theorem arithmetic? (h : Shared S table table') (ht : t.Over S) :
    table.arithmetic? t = table'.arithmetic? t := by
  unfold SymbolTable.arithmetic?
  split
  · next operation _ _ =>
    have hS : S (.global operation) := by simpa using ht
    rw [h.postulate? hS]
  · rfl

theorem deltaStep? (h : Shared S table table') (ht : t.Over S) :
    table.deltaStep? t = table'.deltaStep? t := by
  unfold SymbolTable.deltaStep?
  split
  · next self body hhead =>
    have hbody : body.Over S := by simpa [hhead] using ht.spine.1
    rw [h.structuralIndex? hbody]
    refine Option.bind_congr fun index _ => Option.bind_congr fun arg harg => ?_
    rw [h.constructorForm? (ht.spine.2 arg (List.mem_of_getElem? harg))]
  · rfl

end SymbolTable.Shared

/-! ## What the redexes contract to -/

namespace Term.Over

theorem constructorForm? {index : Nat} {fields : List Term} (ht : t.Over S)
    (hform : table.constructorForm? t = some (index, fields)) : ∀ a ∈ fields, a.Over S := by
  unfold SymbolTable.constructorForm? at hform
  simp only [Option.bind_eq_bind, Option.bind_eq_some_iff, Option.pure_def,
    Option.some.injEq, Prod.mk.injEq] at hform
  obtain ⟨_, _, _, _, _, _, _, _, _, rfl⟩ := hform
  exact fun a ha => ht.spine.2 a (List.mem_of_mem_drop ha)

theorem arithmetic? (hstep : table.arithmetic? t = some u) : u.Over S := by
  unfold SymbolTable.arithmetic? at hstep
  split at hstep
  · split at hstep
    · obtain ⟨n, _, rfl⟩ := Option.map_eq_some_iff.1 hstep
      exact over_lit _
    · cases hstep
  · cases hstep

theorem deltaStep? (ht : t.Over S) (hstep : table.deltaStep? t = some u) : u.Over S := by
  unfold SymbolTable.deltaStep? at hstep
  split at hstep
  · next self body hhead =>
    have hbody : body.Over S := by simpa [hhead] using ht.spine.1
    simp only [Option.bind_eq_bind, Option.bind_eq_some_iff, Option.pure_def,
      Option.some.injEq] at hstep
    obtain ⟨_, _, _, _, _, _, rfl⟩ := hstep
    exact over_apps.2 ⟨hbody.substitute self (over_fix.2 hbody), ht.spine.2⟩
  · cases hstep

end Term.Over

/-! ## Steps -/

/-- What the definitions of a set unfold to is over the set. -/
def SymbolTable.Unfolds (S : Leaf → Prop) (table : SymbolTable) : Prop :=
  ∀ name d, S (.global name) → table.definition? name = some d → d.body.Over S

theorem SymbolTable.Shared.unfolds (h : Shared S table table') : table.Unfolds S :=
  fun name d hname hd => ((h.entries name hname).definition d hd).2

/-- **One step stays over the set.** -/
theorem Term.Over.step? (h : table.Unfolds S) (ht : t.Over S) (hstep : table.step? t = some u) :
    u.Over S := by
  induction t generalizing u with
  | sort | var | lit | hole => cases hstep
  | global name =>
    rw [SymbolTable.step?] at hstep
    obtain ⟨d, hd, rfl⟩ := Option.map_eq_some_iff.1 hstep
    exact h name d (Term.over_global.1 ht) hd
  | pi x a b iha ihb =>
    obtain ⟨ha, hb⟩ := Term.over_pi.1 ht
    rw [SymbolTable.step?, Option.or_eq_some_iff] at hstep
    rcases hstep with hstep | ⟨_, hstep⟩
    · obtain ⟨a', ha', rfl⟩ := Option.map_eq_some_iff.1 hstep
      exact Term.over_pi.2 ⟨iha ha ha', hb⟩
    · obtain ⟨b', hb', rfl⟩ := Option.map_eq_some_iff.1 hstep
      exact Term.over_pi.2 ⟨ha, ihb hb hb'⟩
  | lam x a b iha ihb =>
    obtain ⟨ha, hb⟩ := Term.over_lam.1 ht
    rw [SymbolTable.step?, Option.or_eq_some_iff] at hstep
    rcases hstep with hstep | ⟨_, hstep⟩
    · obtain ⟨a', ha', rfl⟩ := Option.map_eq_some_iff.1 hstep
      exact Term.over_lam.2 ⟨iha ha ha', hb⟩
    · obtain ⟨b', hb', rfl⟩ := Option.map_eq_some_iff.1 hstep
      exact Term.over_lam.2 ⟨ha, ihb hb hb'⟩
  | fix x b ihb =>
    rw [SymbolTable.step?] at hstep
    obtain ⟨b', hb', rfl⟩ := Option.map_eq_some_iff.1 hstep
    exact Term.over_fix.2 (ihb (Term.over_fix.1 ht) hb')
  | elim s m cases ihs _ _ =>
    obtain ⟨hs, hm, hc⟩ := Term.over_elim.1 ht
    rw [SymbolTable.step?, Option.or_eq_some_iff] at hstep
    rcases hstep with hstep | ⟨_, hstep⟩
    · simp only [Option.bind_eq_bind, Option.bind_eq_some_iff, Option.pure_def,
        Option.some.injEq] at hstep
      obtain ⟨⟨index, fields⟩, hform, chosen, hchosen, rfl⟩ := hstep
      exact Term.over_apps.2
        ⟨hc chosen (List.mem_of_getElem? hchosen), hs.constructorForm? hform⟩
    · obtain ⟨s', hs', rfl⟩ := Option.map_eq_some_iff.1 hstep
      exact Term.over_elim.2 ⟨ihs hs hs', hm, hc⟩
  | app f a ihf iha =>
    obtain ⟨hf, ha⟩ := Term.over_app.1 ht
    by_cases hlam : ∃ x d b, f = .lam x d b
    · obtain ⟨x, d, b, rfl⟩ := hlam
      rw [SymbolTable.step?_app_lam] at hstep
      cases hstep
      exact (Term.over_lam.1 hf).2.substitute x ha
    · rw [SymbolTable.step?_app fun x d b hf => hlam ⟨x, d, b, hf⟩, Option.or_eq_some_iff,
        Option.or_eq_some_iff, Option.or_eq_some_iff] at hstep
      rcases hstep with hstep | ⟨_, hstep | ⟨_, hstep | ⟨_, hstep⟩⟩⟩
      · exact Term.Over.arithmetic? hstep
      · exact ht.deltaStep? hstep
      · obtain ⟨f', hf', rfl⟩ := Option.map_eq_some_iff.1 hstep
        exact Term.over_app.2 ⟨ihf hf hf', ha⟩
      · obtain ⟨a', ha', rfl⟩ := Option.map_eq_some_iff.1 hstep
        exact Term.over_app.2 ⟨hf, iha ha ha'⟩

/-- **Both tables take the same step.** -/
theorem SymbolTable.Shared.step? (h : Shared S table table') (ht : t.Over S) :
    table.step? t = table'.step? t := by
  induction t with
  | sort | var | lit | hole => rfl
  | global name => rw [SymbolTable.step?, SymbolTable.step?, h.definition? (Term.over_global.1 ht)]
  | pi x a b iha ihb =>
    obtain ⟨ha, hb⟩ := Term.over_pi.1 ht
    rw [SymbolTable.step?, SymbolTable.step?, iha ha, ihb hb]
  | lam x a b iha ihb =>
    obtain ⟨ha, hb⟩ := Term.over_lam.1 ht
    rw [SymbolTable.step?, SymbolTable.step?, iha ha, ihb hb]
  | fix x b ihb => rw [SymbolTable.step?, SymbolTable.step?, ihb ht]
  | elim s m cases ihs _ _ =>
    obtain ⟨hs, hm, hc⟩ := Term.over_elim.1 ht
    rw [SymbolTable.step?, SymbolTable.step?, ihs hs, h.constructorForm? hs]
  | app f a ihf iha =>
    obtain ⟨hf, ha⟩ := Term.over_app.1 ht
    by_cases hlam : ∃ x d b, f = .lam x d b
    · obtain ⟨x, d, b, rfl⟩ := hlam
      rw [step?_app_lam, step?_app_lam]
    · have hf' : ∀ x d b, f ≠ .lam x d b := fun x d b heq => hlam ⟨x, d, b, heq⟩
      rw [step?_app hf', step?_app hf', h.arithmetic? ht, h.deltaStep? ht, ihf hf, iha ha]

/-! ## Normal forms -/

theorem Term.Over.reduce (h : table.Unfolds S) (ht : t.Over S) (n : Nat) :
    (table.reduce n t).Over S := by
  induction n generalizing t with
  | zero => exact ht
  | succ n ih =>
    rw [SymbolTable.reduce]
    split
    · exact ht
    · next t' hstep => exact ih (ht.step? h hstep)

namespace SymbolTable.Shared

variable {options : Options}

theorem reduceFrom (h : Shared S table table') {whole : Term} {n : Nat} {log : Log}
    (ht : t.Over S) :
    ProofKernel.reduceFrom options table whole n t log =
      ProofKernel.reduceFrom options table' whole n t log := by
  induction n generalizing t log with
  | zero => rfl
  | succ n ih =>
    rw [ProofKernel.reduceFrom, ProofKernel.reduceFrom, ← h.step? ht]
    cases hstep : table.step? t with
    | none => rfl
    | some t' => exact ih (ht.step? h.unfolds hstep)

/-- **Both tables normalize a term in the same way.** -/
theorem normalize (h : Shared S table table') (ht : t.Over S) :
    ProofKernel.normalize options table t = ProofKernel.normalize options table' t :=
  h.reduceFrom ht

/-! ## Questions about types -/

theorem asSort (h : Shared S table table') (ht : t.Over S) :
    ProofKernel.asSort options table t = ProofKernel.asSort options table' t := by
  unfold ProofKernel.asSort
  split
  · rfl
  · rw [h.normalize ht]

theorem asPi (h : Shared S table table') (ht : t.Over S) :
    ProofKernel.asPi options table t = ProofKernel.asPi options table' t := by
  unfold ProofKernel.asPi
  split
  · rfl
  · rw [h.normalize ht]

theorem isSubtype (h : Shared S table table') (ht : t.Over S) (hu : u.Over S) :
    ProofKernel.isSubtype options table t u = ProofKernel.isSubtype options table' t u := by
  unfold ProofKernel.isSubtype
  rw [h.normalize ht, h.normalize hu]

theorem familyOf (h : Shared S table table') (ht : t.Over S) :
    table.familyOf t = table'.familyOf t := by
  have hfamily : t.headGlobal?.bind table.family? = t.headGlobal?.bind table'.family? :=
    Option.bind_congr fun name hname => h.family? (ht.headGlobal? hname)
  unfold SymbolTable.familyOf
  rw [hfamily]

end SymbolTable.Shared

namespace Term.Over

variable {options : Options}

theorem asPi {x : String} {domain codomain : Term} (h : SymbolTable.Shared S table table')
    (ht : t.Over S) (hpi : (ProofKernel.asPi options table t).value = some (x, domain, codomain)) :
    domain.Over S ∧ codomain.Over S := by
  unfold ProofKernel.asPi at hpi
  split at hpi
  · cases hpi
    exact over_pi.1 ht
  · rw [Traced.value_bind, SymbolTable.value_normalize] at hpi
    split at hpi
    · next hnormal =>
      cases hpi
      have := ht.reduce h.unfolds options.fuel
      rw [hnormal] at this
      exact over_pi.1 this
    · cases hpi

/-- An inductive type that is read off a term has its constructors in the set, and the parameters
rest on it. -/
theorem familyOf {family : Family} {params : List Term} (h : SymbolTable.Shared S table table')
    (ht : t.Over S) (hfamily : table.familyOf t = .ok (family, params)) :
    (∀ c ∈ family.constructors, S (.global c)) ∧ ∀ p ∈ params, p.Over S := by
  unfold SymbolTable.familyOf at hfamily
  split at hfamily
  · next f hf =>
    obtain ⟨name, hname, hf⟩ := Option.bind_eq_some_iff.1 hf
    split at hfamily
    · cases hfamily
      exact ⟨((h.entries name (ht.headGlobal? hname)).family family hf).2, ht.spine.2⟩
    · cases hfamily
  · cases hfamily

end Term.Over
end ProofKernel
