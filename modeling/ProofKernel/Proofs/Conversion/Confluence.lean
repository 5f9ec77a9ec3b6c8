import ProofKernel.Proofs.Conversion.Parallel

/-!
# Confluence

Where no structural position moves, whatever a term is contracted to can be contracted further to
one and the same term.

* `Nameless.Develops` is a term that all parallel contractions of another one lead on to, and
  `Nameless.Calm.exists_develops` finds it node by node.
* `Nameless.Calm.confluent` is confluence.
-/

set_option autoImplicit false
namespace ProofKernel
namespace Nameless

variable {table : SymbolTable} {u v w : Nameless}

/-! ## Developments -/

/-- All parallel contractions of a term can be contracted further to a second one. -/
def Develops (table : SymbolTable) (u w : Nameless) : Prop :=
  ∀ v, Par table u v → Par table v w

namespace Develops

variable {a b c f m s a₁ b₁ c₁ f₁ m₁ s₁ : Nameless}

theorem self (h : Develops table u w) : Par table u w :=
  h u (.refl u)

/-! ### Nodes that are no redexes -/

theorem pi (ha : Develops table a a₁) (hb : Develops table b b₁) :
    Develops table (.pi a b) (.pi a₁ b₁) := by
  intro v h
  cases h with
  | pi ha' hb' => exact .pi (ha _ ha') (hb _ hb')

theorem lam (ha : Develops table a a₁) (hb : Develops table b b₁) :
    Develops table (.lam a b) (.lam a₁ b₁) := by
  intro v h
  cases h with
  | lam ha' hb' => exact .lam (ha _ ha') (hb _ hb')

theorem fix (hb : Develops table b b₁) : Develops table (.fix b) (.fix b₁) := by
  intro v h
  cases h with
  | fix hb' => exact .fix (hb _ hb')

theorem app (hf : Develops table f f₁) (ha : Develops table a a₁)
    (hlam : ∀ d b, f ≠ .lam d b)
    (hwait : ∀ i fields, Awaits table f 0 → ¬ConstructorForm table a i fields)
    (harith : ∀ z, ¬Par table (.app f a) (.lit z)) :
    Develops table (.app f a) (.app f₁ a₁) := by
  intro v h
  cases h with
  | app hf' ha' => exact .app (hf _ hf') (ha _ ha')
  | beta => exact absurd rfl (hlam _ _)
  | unfold _ _ h hform => exact absurd hform (hwait _ _ h)
  | arithmetic h hz => exact absurd (.arithmetic h hz) (harith _)

theorem forall₂ {cases cases' cases₁ : List Nameless}
    (h : List.Forall₂ (Develops table) cases cases₁)
    (h' : List.Forall₂ (Par table) cases cases') : List.Forall₂ (Par table) cases' cases₁ := by
  induction h' generalizing cases₁ with
  | nil =>
    cases h
    exact .nil
  | cons hc _ ih =>
    cases h with
    | cons hdev h => exact .cons (hdev _ hc) (ih h)

theorem elim {cases cases₁ : List Nameless} (hs : Develops table s s₁) (hm : Develops table m m₁)
    (hcases : List.Forall₂ (Develops table) cases cases₁)
    (hresolve : ∀ i fields, ConstructorForm table s i fields → cases[i]? = none) :
    Develops table (.elim s m cases) (.elim s₁ m₁ cases₁) := by
  intro v h
  cases h with
  | elim hs' hm' hlen hcases' =>
    have hcases' := List.forall₂_iff_zip.2 ⟨hlen, hcases'⟩
    exact .elim_forall₂ (hs _ hs') (hm _ hm') (forall₂ hcases hcases')
  | resolve _ _ hform _ hc _ =>
    rw [hresolve _ _ hform] at hc
    cases hc

/-! ### Redexes -/

/-- A development of a function is one of its parts. -/
theorem of_lam (h : Develops table (.lam a b) w) : ∃ b₁, Develops table b b₁ := by
  obtain ⟨a₁, b₁, rfl⟩ : ∃ a₁ b₁, w = .lam a₁ b₁ := by
    cases h.self with
    | lam _ _ => exact ⟨_, _, rfl⟩
  refine ⟨b₁, fun b' hb' => ?_⟩
  cases h _ (.lam (.refl a) hb') with
  | lam _ hb => exact hb

theorem beta (hbodies : table.BodiesClosed) (hroles : table.Unambiguous)
    (hcalm : Calm table (.app (.lam a b) c)) (hb : Develops table b b₁) (hc : Develops table c c₁) :
    Develops table (.app (.lam a b) c) (b₁.instantiate c₁) := by
  intro v h
  have hcontracted : ∀ {b' c'}, Par table b b' → Par table c c' →
      Par table (b'.instantiate c') (b₁.instantiate c₁) := by
    intro b' c' hb' hc'
    -- the function with its parts contracted is among the terms that it reduces to
    have hsteps := (((Par.lam (.refl a) hb').app hc').steps_and_awaits hroles hcalm).1
    exact (hb _ hb').instantiate hbodies (hc _ hc') ((hcalm _ hsteps).beta (.whole _))
  cases h with
  | app hf' hc' =>
    cases hf' with
    | lam ha' hb' => exact .beta _ (hb _ hb') (hc _ hc')
  | beta _ hb' hc' => exact hcontracted hb' hc'
  | unfold _ _ hwait _ => cases hwait

theorem resolve (hroles : table.Unambiguous) {cases fields : List Nameless} {i : Nat}
    (hs : Develops table s s₁) (hform : ConstructorForm table s i fields)
    (hi : cases[i]? = some c) (hc : Develops table c c₁) :
    ∃ w, Develops table (.elim s m cases) w := by
  obtain ⟨fields₁, hform₁, -⟩ := hs.self.constructorForm hroles hform
  refine ⟨c₁.apps fields₁, fun v h => ?_⟩
  cases h with
  | @elim _ s' _ m' _ cases' hs' hm' hlen hcases' =>
    obtain ⟨fields', hform', -⟩ := hs'.constructorForm hroles hform
    obtain ⟨hlt, rfl⟩ := List.getElem?_eq_some_iff.1 hi
    have hi' : cases'[i]? = some cases'[i] := List.getElem?_eq_getElem _
    have hzip : (cases.zip cases')[i]? = some (cases[i], cases'[i]) :=
      List.getElem?_zip_eq_some.2 ⟨hi, hi'⟩
    exact .resolve _ (hs _ hs') hform' hform₁ hi' (hc _ (hcases' (List.mem_of_getElem? hzip)))
  | resolve _ hs' hform' hform'' hi' hcc =>
    obtain ⟨rfl, rfl⟩ := hform.unique hform'
    obtain rfl := Option.some.inj (hi.symm.trans hi')
    obtain ⟨fields'', hform''', hfields⟩ := (hs _ hs').constructorForm hroles hform''
    obtain ⟨-, rfl⟩ := hform₁.unique hform'''
    exact (hc _ hcc).apps hfields

theorem unfold (hbodies : table.BodiesClosed) (hroles : table.Unambiguous) (hcalm : Calm table f)
    {fields : List Nameless} {i : Nat} (hf : Develops table f f₁) (ha : Develops table a a₁)
    (hwait : Awaits table f 0) (hform : ConstructorForm table a i fields) :
    Develops table (.app f a) (.app f₁.unfoldHead a₁) := by
  intro v h
  cases h with
  | app hf' ha' =>
    obtain ⟨fields', hform', -⟩ := ha'.constructorForm hroles hform
    have hwait' := (hf'.steps_and_awaits hroles hcalm).2 0 hwait
    exact .unfold (hf _ hf') (ha _ ha') hwait' hform'
  | unfold hf' ha' _ _ =>
    have hwait' := (hf'.steps_and_awaits hroles hcalm).2 0 hwait
    exact .app ((hf _ hf').unfoldHead hbodies hwait') (ha _ ha')
  | beta => cases hwait
  | arithmetic => cases hwait with | app h => cases h

theorem arithmetic (hroles : table.Unambiguous) {operation : String} {x y z : Int64}
    (h : (table.postulate? operation).isSome) (hz : Arithmetic.evaluate? operation x y = some z) :
    Develops table (.app (.app (.global operation) (.lit (.int x))) (.lit (.int y)))
      (.lit (.int z)) := by
  intro v hv
  cases hv with
  | app hf ha =>
    cases ha
    cases hf with
    | app hg hb =>
      cases hb
      cases hg with
      | global => exact .arithmetic h hz
      | definition hd =>
        rw [hroles.of_postulate? h] at hd
        cases hd
    | unfold _ _ hwait _ => cases hwait
  | unfold _ _ hwait _ => cases hwait with | app h => cases h
  | arithmetic _ hz' =>
    obtain rfl := Option.some.inj (hz.symm.trans hz')
    exact .lit _

end Develops

/-- Terms one by one have developments if all of them do. -/
theorem exists_forall₂_develops {us : List Nameless} (h : ∀ u ∈ us, ∃ w, Develops table u w) :
    ∃ ws, List.Forall₂ (Develops table) us ws := by
  induction us with
  | nil => exact ⟨[], .nil⟩
  | cons u us ih =>
    rw [List.forall_mem_cons] at h
    obtain ⟨⟨w, hw⟩, h⟩ := h
    obtain ⟨ws, hws⟩ := ih h
    exact ⟨w :: ws, .cons hw hws⟩

/-- **Every term has a development** where no structural position moves. -/
theorem Calm.exists_develops (hbodies : table.BodiesClosed) (hroles : table.Unambiguous)
    (hcalm : Calm table u) : ∃ w, Develops table u w := by
  induction u with
  | sort u => exact ⟨.sort u, fun v h => by cases h; exact .sort u⟩
  | atom a => exact ⟨.atom a, fun v h => by cases h; exact .atom a⟩
  | lit l => exact ⟨.lit l, fun v h => by cases h; exact .lit l⟩
  | hole => exact ⟨.hole, fun v h => by cases h; exact .hole⟩
  | global name =>
    cases hd : table.definition? name with
    | none =>
      refine ⟨.global name, fun v h => ?_⟩
      cases h with
      | global => exact .global name
      | definition hd' =>
        rw [hd] at hd'
        cases hd'
    | some d =>
      refine ⟨d.body.nameless, fun v h => ?_⟩
      cases h with
      | global => exact .definition hd
      | definition hd' =>
        obtain rfl := Option.some.inj (hd.symm.trans hd')
        exact .refl _
  | pi a b iha ihb =>
    obtain ⟨a₁, ha⟩ := iha (hcalm.part (.frame (.piType _)))
    obtain ⟨b₁, hb⟩ := ihb (hcalm.part (.frame (.piBody _)))
    exact ⟨_, ha.pi hb⟩
  | lam a b iha ihb =>
    obtain ⟨a₁, ha⟩ := iha (hcalm.part (.frame (.lamType _)))
    obtain ⟨b₁, hb⟩ := ihb (hcalm.part (.frame (.lamBody _)))
    exact ⟨_, ha.lam hb⟩
  | fix b ihb =>
    obtain ⟨b₁, hb⟩ := ihb (hcalm.part (.frame .fixBody))
    exact ⟨_, hb.fix⟩
  | elim s m cases ihs ihm ihc =>
    obtain ⟨s₁, hs⟩ := ihs (hcalm.part (.frame (.scrutinee _ _)))
    obtain ⟨m₁, hm⟩ := ihm (hcalm.part (.motive _ _))
    by_cases hredex : ∃ i fields c, ConstructorForm table s i fields ∧ cases[i]? = some c
    · obtain ⟨i, fields, c, hform, hi⟩ := hredex
      have hmem := List.mem_of_getElem? hi
      obtain ⟨c₁, hc⟩ := ihc c hmem (hcalm.case hmem)
      exact hs.resolve hroles hform hi hc
    · obtain ⟨cases₁, hcases⟩ := exists_forall₂_develops fun c hc => ihc c hc (hcalm.case hc)
      refine ⟨_, hs.elim hm hcases fun i fields hform => ?_⟩
      exact Option.eq_none_iff_forall_ne_some.2 fun c hc => hredex ⟨i, fields, c, hform, hc⟩
  | app f a ihf iha =>
    obtain ⟨f₁, hf⟩ := ihf (hcalm.part (.frame (.fn _)))
    obtain ⟨a₁, ha⟩ := iha (hcalm.part (.frame (.arg _)))
    by_cases hlam : ∃ d b, f = .lam d b
    · obtain ⟨d, b, rfl⟩ := hlam
      obtain ⟨b₁, hb⟩ := hf.of_lam
      exact ⟨_, .beta hbodies hroles hcalm hb ha⟩
    by_cases hredex : ∃ i fields, Awaits table f 0 ∧ ConstructorForm table a i fields
    · obtain ⟨i, fields, hwait, hform⟩ := hredex
      exact ⟨_, hf.unfold hbodies hroles (hcalm.part (.frame (.fn _))) ha hwait hform⟩
    by_cases hlit : ∃ z, Par table (.app f a) (.lit z)
    · obtain ⟨z, hlit⟩ := hlit
      generalize hz : Nameless.lit z = v at hlit
      cases hlit with
      | arithmetic h hz' => exact ⟨_, .arithmetic hroles h hz'⟩
      | beta => exact absurd ⟨_, _, rfl⟩ hlam
      | app | unfold => cases hz
    exact ⟨_, hf.app ha (fun d b h => hlam ⟨d, b, h⟩)
      (fun i fields hwait hform => hredex ⟨i, fields, hwait, hform⟩) fun z hz => hlit ⟨z, hz⟩⟩

/-! ## Confluence -/

/-- **Reduction is confluent** where no structural position moves. -/
theorem Calm.confluent (hbodies : table.BodiesClosed) (hroles : table.Unambiguous)
    (hcalm : Calm table u) (hv : Steps table u v) (hw : Steps table u w) :
    ∃ x, Steps table v x ∧ Steps table w x := by
  let r : Nameless → Nameless → Prop := fun a b => Calm table a ∧ Par table a b
  have hsteps : ∀ {a b}, Relation.ReflTransGen r a b → Steps table a b := by
    intro a b h
    induction h with
    | refl => exact .refl _
    | tail _ hr ih => exact ih.trans (hr.2.steps_and_awaits hroles hr.1).1
  have hr : ∀ {b}, Steps table u b → Relation.ReflTransGen r u b := by
    intro b h
    induction h with
    | refl => exact .refl
    | tail h hstep ih => exact ih.tail ⟨hcalm.steps h, hstep.par⟩
  have hdiamond : ∀ a b c, r a b → r a c →
      ∃ d, Relation.ReflGen r b d ∧ Relation.ReflTransGen r c d := by
    rintro a b c ⟨ha, hb⟩ ⟨-, hc⟩
    obtain ⟨d, hd⟩ := ha.exists_develops hbodies hroles
    have hb' := ha.steps (hb.steps_and_awaits hroles ha).1
    have hc' := ha.steps (hc.steps_and_awaits hroles ha).1
    exact ⟨d, .single ⟨hb', hd b hb⟩, .single ⟨hc', hd c hc⟩⟩
  obtain ⟨x, hvx, hwx⟩ := Relation.church_rosser hdiamond (hr hv) (hr hw)
  exact ⟨x, hsteps hvx, hsteps hwx⟩

end Nameless
end ProofKernel
