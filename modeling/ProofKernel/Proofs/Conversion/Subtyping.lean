import ProofKernel.Proofs.Conversion.Anchored
import ProofKernel.Proofs.Conversion.Confluence
import ProofKernel.Proofs.Nameless.Subtyping
import ProofKernel.Proofs.Session.Closed

/-!
# Contracted types

Types are compared by their normal forms.  A type and what it is contracted to have one normal form,
so that each is a subtype of the other, unless the reducer leaves a redex in a motive or in a case.

* `Session.Reachable.isSubtype_of_betaStep` is one beta-redex, contracted at any position.
* `Session.not_isSubtype_of_betaStep`: the reducer passes over a redex in a case.
-/

set_option autoImplicit false
namespace ProofKernel

open Nameless (Calm Steps Irreducible)

/-- **A type and what it is contracted to are subtypes of one another.**  In every session, where no
contraction moves the structural position of a fixpoint, the results of normalization before and
after one beta-redex is contracted, at any position, have a common reduct when reduction may enter
motives and cases.  If both are normal, in motives and cases too, then they are equal up to bound
names; and if there is no NaN in them, then each type is a subtype of the other. -/
theorem Session.Reachable.isSubtype_of_betaStep {options : Options} {withPrelude : Bool}
    {allowed : Statement → Prop} {s : Session} (h : Reachable options withPrelude allowed s)
    {t t' : Term} (hbeta : t.BetaStep t') (hcalm : Calm s.table t.nameless) :
    let normal := fun u => (normalize options s.table u).value
    (∃ w, Steps s.table (normal t).nameless w ∧ Steps s.table (normal t').nameless w) ∧
      ((∀ u ∈ [normal t, normal t'], s.table.step? u = none ∧ s.table.settled u = true) →
        (normal t).nameless = (normal t').nameless ∧
          ((normal t).Numeric → (isSubtype options s.table t t').value = true ∧
            (isSubtype options s.table t' t).value = true)) := by
  intro normal
  have hstep : Steps s.table t.nameless t'.nameless := .single (hbeta.step s.table .free)
  have hsteps := fun u => SymbolTable.steps_normalize h.bodiesClosed options u
  obtain ⟨w, hw, hw'⟩ := hcalm.confluent h.bodiesClosed h.unambiguous (hsteps t)
    (hstep.trans (hsteps t'))
  refine ⟨⟨w, hw, hw'⟩, fun hnormal => ?_⟩
  have hirreducible : ∀ u ∈ [normal t, normal t'], Irreducible s.table u.nameless := fun u hu =>
    SymbolTable.irreducible_of_step? Naming.faithful_free (hnormal u hu).1 (hnormal u hu).2
  have heq : (normal t).nameless = (normal t').nameless := by
    rw [← hw.eq_of_irreducible (hirreducible _ List.mem_cons_self),
      ← hw'.eq_of_irreducible (hirreducible _ (List.mem_cons_of_mem _ List.mem_cons_self))]
  refine ⟨heq, fun hnumeric => ?_⟩
  have hself : Nameless.Agrees (normal t).nameless (normal t).nameless :=
    hnumeric.agrees_self Naming.faithful_free
  exact ⟨isSubtype_iff.2 (heq ▸ hself.le), isSubtype_iff.2 (heq ▸ hself.le)⟩

/-- A fixpoint with a parameter in front of the structural one, and a redex that is contracted
before it is unfolded. -/
theorem Session.isSubtype_of_betaStep_fixpoint :
    let options : Options := ⟨100, false, false, false⟩
    let type := Term.global "True"
    let redex := Term.app (.lam "x" type (.var "x")) (.global "I")
    let call := fun c : Term =>
      Term.app (.app (.fix "f" (.lam "P" (.sort .prop) (.lam "n" type (.var "n")))) type) c
    ∃ s : Session, Reachable options true (fun _ => True) s ∧
      (call redex).BetaStep (call (.global "I")) ∧ Calm s.table (call redex).nameless ∧
      (normalize options s.table (call redex)).value = .global "I" ∧
      (normalize options s.table (call (.global "I"))).value = .global "I" ∧
      (isSubtype options s.table (call redex) (call (.global "I"))).value = true ∧
      (isSubtype options s.table (call (.global "I")) (call redex)).value = true := by
  intro options type redex call
  obtain ⟨table, htable, hrooted, hcall, hvalue, hvalue', hnormal⟩ :=
    Verdict.exists_ok_of_any (v := initialTable options true)
      (P := fun table => table.rooted = true ∧ (call redex).nameless.rooted table = true ∧
        (normalize options table (call redex)).value = .global "I" ∧
        (normalize options table (call (.global "I"))).value = .global "I" ∧
        table.step? (.global "I") = none) (by decide +kernel)
  have hs : Reachable options true (fun _ => True) ⟨options, true, table⟩ :=
    @Reachable.start _ _ _ false _ (by simp [Session.start, htable])
  have hbeta : (call redex).BetaStep (call (.global "I")) := .arg (.redex ..)
  have hcalm : Calm table (call redex).nameless :=
    Nameless.calm_of_rooted hs.unambiguous hrooted hcall
  obtain ⟨-, hsame⟩ := hs.isSubtype_of_betaStep hbeta hcalm
  simp only [hvalue, hvalue', List.forall_mem_cons, List.not_mem_nil, false_implies, implies_true,
    and_true, and_self] at hsame
  obtain ⟨-, hle⟩ := hsame ⟨hnormal, rfl⟩
  obtain ⟨h, h'⟩ := hle (by simp [Term.Numeric, Term.literals])
  exact ⟨_, hs, hbeta, hcalm, hvalue, hvalue', h, h'⟩

/-- A redex in a case of a match stays there, whether it is written there or put there by a
reduction; a NaN differs from itself; and a redex in front of the structural parameter of a
fixpoint, when it is contracted, moves the position at which the fixpoint waits. -/
theorem Session.not_isSubtype_of_betaStep :
    let options : Options := ⟨100, false, false, false⟩
    let type := Term.global "True"
    let redex := Term.app (.lam "x" type (.var "x")) (.global "I")
    let inCase := fun c : Term => Term.lam "n" type (.elim (.var "n") (.lam "w" type type) [c])
    let passed := fun c : Term => Term.app (.lam "y" type (inCase (.var "y"))) c
    let nan := Term.lit (.float ⟨0x7FF8000000000000⟩)
    let same := Term.app (.lam "x" (.global "Float") (.var "x")) nan
    let waiting := fun first : Term => Term.lam "y" type
      (.app (.app (.fix "f" (.lam "a" first (.lam "n" type (.var "n")))) (.var "y")) (.global "I"))
    let headless := Term.app (.lam "T" (.sort .prop) (.var "T")) type
    ∃ s : Session, Reachable options true (fun _ => True) s ∧
      ∀ p ∈ [(inCase redex, inCase (.global "I")), (passed redex, passed (.global "I")),
          (same, nan), (waiting headless, waiting type)],
        p.1.Complete ∧ p.1.BetaStep p.2 ∧
          (∃ T, (infer options (.ofTable s.table) p.1).outcome = .ok T) ∧
          s.table.step? (normalize options s.table p.1).value = none ∧
          s.table.step? (normalize options s.table p.2).value = none ∧
          (isSubtype options s.table p.1 p.2).value = false ∧
          (isSubtype options s.table p.2 p.1).value = false := by
  intro options type redex inCase passed nan same waiting headless
  obtain ⟨table, htable, hinfer, hreached⟩ :=
    Verdict.exists_ok_of_any (v := initialTable options true)
      (P := fun table =>
        ((infer options (.ofTable table) (inCase redex)).outcome = .ok (.pi "n" type type) ∧
          (infer options (.ofTable table) (passed redex)).outcome = .ok (.pi "n" type type) ∧
          (infer options (.ofTable table) same).outcome = .ok (.global "Float") ∧
          (infer options (.ofTable table) (waiting headless)).outcome = .ok (.pi "y" type type)) ∧
        ∀ p ∈ [(inCase redex, inCase (.global "I")), (passed redex, passed (.global "I")),
            (same, nan), (waiting headless, waiting type)],
          p.1.Complete ∧ table.step? (normalize options table p.1).value = none ∧
            table.step? (normalize options table p.2).value = none ∧
            (isSubtype options table p.1 p.2).value = false ∧
            (isSubtype options table p.2 p.1).value = false) (by decide +kernel)
  have hs : Reachable options true (fun _ => True) ⟨options, true, table⟩ :=
    @Reachable.start _ _ _ false _ (by simp [Session.start, htable])
  refine ⟨_, hs, fun p hp => ?_⟩
  obtain ⟨hcomplete, hnormal⟩ := hreached p hp
  obtain ⟨hbeta, hok⟩ : p.1.BetaStep p.2 ∧
      ∃ T, (infer options (.ofTable table) p.1).outcome = .ok T := by
    simp only [List.mem_cons, List.not_mem_nil, or_false] at hp
    obtain rfl | rfl | rfl | rfl := hp
    · exact ⟨.lamBody (@Term.BetaStep.case _ _ _ _ [] [] (.redex ..)), _, hinfer.1⟩
    · exact ⟨.arg (.redex ..), _, hinfer.2.1⟩
    · exact ⟨.redex .., _, hinfer.2.2.1⟩
    · exact ⟨.lamBody (.fn (.fn (.fixBody (.lamType (.redex ..))))), _, hinfer.2.2.2⟩
  exact ⟨hcomplete, hbeta, hok, hnormal⟩

end ProofKernel
