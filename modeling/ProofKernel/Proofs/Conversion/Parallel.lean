import ProofKernel.Proofs.Conversion.Places
import ProofKernel.Proofs.Nameless.Interpretation
import ProofKernel.Proofs.Session.Roles

/-!
# Parallel contraction

Any number of the redexes of a term are contracted at once.

* `Nameless.Par` is parallel contraction; `Nameless.Step.par` is one redex, and
  `Nameless.Par.steps` one redex after the other.
* `Nameless.Par.subst`: it goes through substitutions that move no structural position.
* `Nameless.Par.constructorForm` and `Nameless.Par.awaits`: constructors, and fixpoints that wait
  for arguments, are contracted in their arguments only.
-/

set_option autoImplicit false
namespace ProofKernel
namespace Nameless

/-- Any number of the redexes of a term are contracted at once. -/
inductive Par (table : SymbolTable) : Nameless → Nameless → Prop
  | sort (u : Universe) : Par table (sort u) (sort u)
  | atom (a : Atom) : Par table (atom a) (atom a)
  | global (name : String) : Par table (global name) (global name)
  | lit (l : Literal) : Par table (lit l) (lit l)
  | hole : Par table hole hole
  | pi {a a' b b' : Nameless} (ha : Par table a a') (hb : Par table b b') :
      Par table (pi a b) (pi a' b')
  | lam {a a' b b' : Nameless} (ha : Par table a a') (hb : Par table b b') :
      Par table (lam a b) (lam a' b')
  | app {f f' a a' : Nameless} (hf : Par table f f') (ha : Par table a a') :
      Par table (app f a) (app f' a')
  | fix {b b' : Nameless} (hb : Par table b b') : Par table (fix b) (fix b')
  | elim {s s' m m' : Nameless} {cases cases' : List Nameless} (hs : Par table s s')
      (hm : Par table m m') (hlen : cases.length = cases'.length)
      (hcases : ∀ {c c'}, (c, c') ∈ cases.zip cases' → Par table c c') :
      Par table (elim s m cases) (elim s' m' cases')
  | beta (a : Nameless) {b b' c c' : Nameless} (hb : Par table b b') (hc : Par table c c') :
      Par table (app (lam a b) c) (b'.instantiate c')
  | definition {name : String} {d : Definition} (h : table.definition? name = some d) :
      Par table (global name) d.body.nameless
  | resolve {s s' c c' : Nameless} (m : Nameless) {cases fields fields' : List Nameless}
      {index : Nat} (hs : Par table s s') (hform : ConstructorForm table s index fields)
      (hform' : ConstructorForm table s' index fields') (hc : cases[index]? = some c)
      (hcc : Par table c c') : Par table (elim s m cases) (c'.apps fields')
  | unfold {f f' a a' : Nameless} {fields : List Nameless} {index : Nat} (hf : Par table f f')
      (ha : Par table a a') (hwait : Awaits table f 0)
      (hform : ConstructorForm table a index fields) :
      Par table (app f a) (app f'.unfoldHead a')
  | arithmetic {operation : String} {x y z : Int64} (h : (table.postulate? operation).isSome)
      (hz : Arithmetic.evaluate? operation x y = some z) :
      Par table (app (app (global operation) (lit (.int x))) (lit (.int y))) (lit (.int z))

namespace Par

variable {table : SymbolTable} {u u' v v' : Nameless}

/-! ## Node by node -/

theorem elim_forall₂ {us us' : List Nameless} (hu : Par table u u') (hv : Par table v v')
    (h : List.Forall₂ (Par table) us us') : Par table (.elim u v us) (.elim u' v' us') :=
  have h := List.forall₂_iff_zip.1 h
  .elim hu hv h.1 fun hmem => h.2 hmem

theorem refl (u : Nameless) : Par table u u := by
  induction u with
  | sort u => exact .sort u
  | atom a => exact .atom a
  | global name => exact .global name
  | lit l => exact .lit l
  | hole => exact .hole
  | pi a b iha ihb => exact .pi iha ihb
  | lam a b iha ihb => exact .lam iha ihb
  | app f a ihf iha => exact .app ihf iha
  | fix b ihb => exact .fix ihb
  | elim s m cases ihs ihm ihc => exact .elim_forall₂ ihs ihm (List.forall₂_same.2 ihc)

theorem apps {us us' : List Nameless} (hu : Par table u u') (h : List.Forall₂ (Par table) us us') :
    Par table (u.apps us) (u'.apps us') := by
  induction h generalizing u u' with
  | nil => exact hu
  | cons ha _ ih => exact ih (.app hu ha)

end Par

variable {table : SymbolTable} {u u' v v' : Nameless}

/-! ## One redex -/

theorem Contraction.par (h : Contraction table u v) : Par table u v := by
  cases h with
  | beta a b c => exact .beta a (.refl b) (.refl c)
  | definition h => exact .definition h
  | elim hs hc => exact .resolve _ (.refl _) hs hs hc (.refl _)
  | arithmetic h hz => exact .arithmetic h hz
  | @fix b arg args fields index constructor hb harg hform =>
    -- the arguments after the structural one stay where they are
    obtain ⟨hindex, rfl⟩ := List.getElem?_eq_some_iff.1 harg
    have hsplit : args = args.take index ++ [args[index]] ++ args.drop (index + 1) := by
      rw [List.append_assoc, List.singleton_append, ← List.drop_eq_getElem_cons hindex,
        List.take_append_drop]
    have hwait : Awaits table ((Nameless.fix b).apps (args.take index)) 0 := by
      refine .apps (.fix ?_)
      rwa [Nat.add_zero, List.length_take_of_le (Nat.le_of_lt hindex)]
    have hunfold := Par.unfold (.refl _) (.refl _) hwait hform
    rw [unfoldHead_apps] at hunfold
    rw [hsplit, apps_append _ (_ ++ _), apps_append _ (_ ++ _), apps_concat, apps_concat]
    exact .apps hunfold (List.forall₂_same.2 fun a _ => .refl a)

/-- One contraction is a parallel one. -/
theorem Step.par (h : Step table u v) : Par table u v := by
  induction h with
  | contract h => exact h.par
  | fill slot _ ih =>
    cases slot with
    | motive s cases => exact .elim_forall₂ (.refl s) ih (List.forall₂_same.2 fun c _ => .refl c)
    | case s m front back =>
      refine .elim_forall₂ (.refl s) (.refl m) ?_
      exact List.rel_append (List.forall₂_same.2 fun c _ => .refl c)
        (.cons ih (List.forall₂_same.2 fun c _ => .refl c))
    | frame frame =>
      cases frame with
      | piType b => exact .pi ih (.refl b)
      | piBody a => exact .pi (.refl a) ih
      | lamType b => exact .lam ih (.refl b)
      | lamBody a => exact .lam (.refl a) ih
      | fn a => exact .app ih (.refl a)
      | arg f => exact .app (.refl f) ih
      | fixBody => exact .fix ih
      | scrutinee m cases =>
        exact .elim_forall₂ ih (.refl m) (List.forall₂_same.2 fun c _ => .refl c)

/-! ## Constructors -/

/-- A term headed by a constant that neither has a body nor is an operation is contracted in its
arguments only. -/
theorem Par.spine (h : Par table u v) {name : String} (hhead : u.head = Nameless.global name)
    (hdefinition : table.definition? name = none) (hpostulate : table.postulate? name = none) :
    v.head = Nameless.global name ∧ List.Forall₂ (Par table) u.args v.args := by
  induction u generalizing v with
  | global other =>
    obtain rfl : other = name := Nameless.global.inj hhead
    cases h with
    | global => exact ⟨rfl, .nil⟩
    | definition hd =>
      rw [hdefinition] at hd
      cases hd
  | app f a ihf _ =>
    cases h with
    | app hf ha =>
      obtain ⟨hhead', hargs⟩ := ihf hf hhead
      exact ⟨hhead', List.rel_append hargs (.cons ha .nil)⟩
    | beta => cases hhead
    | unfold _ _ hwait _ =>
      obtain ⟨b, hfix⟩ := hwait.head
      rw [head, hfix] at hhead
      cases hhead
    | arithmetic hop _ =>
      obtain rfl : _ = name := Nameless.global.inj hhead
      rw [hpostulate] at hop
      cases hop
  | _ => cases hhead

/-- **A constructor stays one**, and its arguments are contracted. -/
theorem Par.constructorForm (hroles : table.Unambiguous) (h : Par table u v) {i : Nat}
    {fields : List Nameless} (hu : ConstructorForm table u i fields) :
    ∃ fields', ConstructorForm table v i fields' ∧ List.Forall₂ (Par table) fields fields' := by
  obtain ⟨name, args, c, family, hu, hc, hfamily, hindex, rfl⟩ := hu
  obtain ⟨hhead, rfl⟩ := eq_apps_global_iff.1 hu
  obtain ⟨hdefinition, hpostulate⟩ := hroles.of_constructor? hc
  obtain ⟨hhead', hargs⟩ := h.spine hhead hdefinition hpostulate
  exact ⟨_, ⟨name, _, c, family, eq_apps_global_iff.2 ⟨hhead', rfl⟩, hc, hfamily, hindex, rfl⟩,
    List.forall₂_drop _ hargs⟩

/-! ## Substitution -/

/-- A fixpoint that waits for arguments is contracted in its body and in its arguments only. -/
theorem Par.app_of_awaits {f a : Nameless} {i : Nat} (hf : Awaits table f (i + 1))
    (h : Par table (Nameless.app f a) v) :
    ∃ f' a', v = Nameless.app f' a' ∧ Par table f f' ∧ Par table a a' := by
  cases h with
  | app hf ha => exact ⟨_, _, rfl, hf, ha⟩
  | beta => cases hf
  | unfold _ _ hwait _ => cases hf.unique hwait
  | arithmetic => cases hf with | app hf => cases hf

theorem Par.head_of_awaits {i : Nat} (hu : Awaits table u i) (h : Par table u v) :
    ∃ b, v.head = Nameless.fix b := by
  induction hu generalizing v with
  | fix _ =>
    cases h with
    | fix _ => exact ⟨_, rfl⟩
  | app hf ih =>
    obtain ⟨f', a', rfl, hf', -⟩ := h.app_of_awaits hf
    obtain ⟨b, hb⟩ := ih hf'
    exact ⟨b, hb⟩

/-- Parallel contraction goes through a pair of substitutions of a kind, if it leads from the terms
of the one to those of the other, inside binders as well. -/
theorem Par.subst_of (hbodies : table.BodiesClosed)
    {P : (Atom → Nameless) → (Atom → Nameless) → Prop}
    (hpar : ∀ {τ τ'}, P τ τ' → ∀ a, Par table (τ a) (τ' a))
    (hlift : ∀ {τ τ'}, P τ τ' → P (lift τ) (lift τ')) {τ τ' : Atom → Nameless} (hτ : P τ τ')
    (hkeep : KeepsPlaces table τ u) (h : Par table u v) : Par table (u.subst τ) (v.subst τ') := by
  induction h generalizing τ τ' with
  | sort u => exact .sort u
  | atom a => exact hpar hτ a
  | global name => exact .global name
  | lit l => exact .lit l
  | hole => exact .hole
  | pi _ _ iha ihb =>
    exact .pi (iha hτ (hkeep.part (.frame (.piType _))))
      (ihb (hlift hτ) (hkeep.part (.frame (.piBody _))))
  | lam _ _ iha ihb =>
    exact .lam (iha hτ (hkeep.part (.frame (.lamType _))))
      (ihb (hlift hτ) (hkeep.part (.frame (.lamBody _))))
  | app _ _ ihf iha =>
    exact .app (ihf hτ (hkeep.part (.frame (.fn _))))
      (iha hτ (hkeep.part (.frame (.arg _))))
  | fix _ ihb => exact .fix (ihb (hlift hτ) (hkeep.part (.frame .fixBody)))
  | elim _ _ hlen _ ihs ihm ihc =>
    rw [subst, subst, substAll_eq_map, substAll_eq_map]
    refine .elim_forall₂ (ihs hτ (hkeep.part (.frame (.scrutinee _ _))))
      (ihm hτ (hkeep.part (.motive _ _))) ?_
    rw [List.forall₂_map_left_iff, List.forall₂_map_right_iff, List.forall₂_iff_zip]
    exact ⟨hlen, fun hc => ihc hc hτ (hkeep.case (List.of_mem_zip hc).1)⟩
  | beta a _ _ ihb ihc =>
    rw [subst_instantiate]
    have hb := (hkeep.part (.frame (.fn _))).part (.frame (.lamBody _))
    exact .beta _ (ihb (hlift hτ) hb) (ihc hτ (hkeep.part (.frame (.arg _))))
  | @definition name d hd =>
    rw [Term.nameless_subst (hbodies name d hd)]
    exact .definition hd
  | resolve m _ hform hform' hc _ ihs ihc =>
    rw [subst_apps]
    refine .resolve _ (ihs hτ (hkeep.part (.frame (.scrutinee _ _)))) (hform.subst τ)
      (hform'.subst τ') ?_ (ihc hτ (hkeep.case (List.mem_of_getElem? hc)))
    rw [substAll_eq_map, List.getElem?_map, hc, Option.map_some]
  | unfold hf _ hwait hform ihf iha =>
    obtain ⟨b, hb⟩ := hf.head_of_awaits hwait
    have hkeep' := hkeep.part (.frame (.fn _))
    rw [subst, subst, ← unfoldHead_subst hb]
    exact .unfold (ihf hτ hkeep') (iha hτ (hkeep.part (.frame (.arg _)))) (hwait.subst hkeep')
      (hform.subst τ)
  | arithmetic h hz => exact .arithmetic h hz

theorem Par.shift (hbodies : table.BodiesClosed) (h : Par table u v) :
    Par table u.shift v.shift := by
  rw [Nameless.shift, Nameless.shift, rename_eq_subst, rename_eq_subst]
  refine .subst_of hbodies (P := fun τ τ' => ∃ f, τ = Nameless.atom ∘ f ∧ τ' = Nameless.atom ∘ f)
    ?_ ?_ ⟨Atom.succ, rfl, rfl⟩ (.atom_comp _ u) h
  · rintro _ _ ⟨f, rfl, rfl⟩ a
    exact .atom (f a)
  · rintro _ _ ⟨f, rfl, rfl⟩
    exact ⟨Atom.lift f, lift_atom_comp f, lift_atom_comp f⟩

/-- **Parallel contraction goes through substitution** where no structural position moves. -/
theorem Par.subst (hbodies : table.BodiesClosed) {τ τ' : Atom → Nameless}
    (hτ : ∀ a, Par table (τ a) (τ' a)) (h : Par table u v) (hkeep : KeepsPlaces table τ u) :
    Par table (u.subst τ) (v.subst τ') := by
  refine .subst_of hbodies (P := fun τ τ' => ∀ a, Par table (τ a) (τ' a)) (fun h => h) ?_ hτ hkeep h
  intro τ τ' hτ a
  match a with
  | .bound 0 => exact .atom _
  | .bound (i + 1) => exact (hτ (.bound i)).shift hbodies
  | .free x => exact (hτ (.free x)).shift hbodies

theorem Par.instantiate (hbodies : table.BodiesClosed) (h : Par table u v) (h' : Par table u' v')
    (hkeep : KeepsPlaces table (point u') u) : Par table (u.instantiate u') (v.instantiate v') := by
  refine h.subst hbodies (fun a => ?_) hkeep
  match a with
  | .bound 0 => exact h'
  | .bound (i + 1) => exact .atom _
  | .free x => exact .atom _

/-- A fixpoint that waits for arguments may be unfolded before it is contracted, or after. -/
theorem Par.unfoldHead (hbodies : table.BodiesClosed) {i : Nat} (hu : Awaits table u i)
    (h : Par table u v) : Par table u.unfoldHead v.unfoldHead := by
  induction hu generalizing v with
  | @fix b i _ =>
    cases h with
    | fix hb => exact hb.instantiate hbodies (.fix hb) (.point_fix b b)
  | app hf ih =>
    obtain ⟨f', a', rfl, hf', ha⟩ := h.app_of_awaits hf
    exact .app (ih hf') ha

/-! ## One redex after the other -/

/-- Where no structural position moves, parallel contraction is a sequence of contractions, and a
fixpoint that waits for arguments stays one. -/
theorem Par.steps_and_awaits (hroles : table.Unambiguous) (h : Par table u v)
    (hcalm : Calm table u) :
    Steps table u v ∧ ∀ i, Awaits table u i → Awaits table v i := by
  induction h with
  | sort u => exact ⟨.refl _, fun _ h => h⟩
  | atom a => exact ⟨.refl _, fun _ h => h⟩
  | global name => exact ⟨.refl _, fun _ h => h⟩
  | lit l => exact ⟨.refl _, fun _ h => h⟩
  | hole => exact ⟨.refl _, fun _ h => h⟩
  | pi _ _ iha ihb =>
    exact ⟨.pi (iha (hcalm.part (.frame (.piType _)))).1 (ihb (hcalm.part (.frame (.piBody _)))).1,
      nofun⟩
  | lam _ _ iha ihb =>
    exact ⟨.lam (iha (hcalm.part (.frame (.lamType _)))).1
      (ihb (hcalm.part (.frame (.lamBody _)))).1, nofun⟩
  | app _ _ ihf iha =>
    obtain ⟨hf, hwait⟩ := ihf (hcalm.part (.frame (.fn _)))
    refine ⟨.app hf (iha (hcalm.part (.frame (.arg _)))).1, ?_⟩
    rintro i (_ | h)
    exact .app (hwait _ h)
  | fix _ ihb =>
    have hb := (ihb (hcalm.part (.frame .fixBody))).1
    refine ⟨.fix hb, ?_⟩
    rintro i (h | _)
    exact .fix (hcalm.structuralArgument h hb)
  | elim _ _ hlen _ ihs ihm ihc =>
    refine ⟨.elim (ihs (hcalm.part (.frame (.scrutinee _ _)))).1 (ihm (hcalm.part (.motive _ _))).1
      ?_, nofun⟩
    exact List.forall₂_iff_zip.2
      ⟨hlen, fun hc => (ihc hc (hcalm.case (List.of_mem_zip hc).1)).1⟩
  | beta a _ _ ihb ihc =>
    have hb := (hcalm.part (.frame (.fn _))).part (.frame (.lamBody _))
    refine ⟨.trans (.app (.lam (.refl a) (ihb hb).1) (ihc (hcalm.part (.frame (.arg _)))).1)
      (.single (.contract (.beta _ _ _))), ?_⟩
    rintro i (_ | h)
    cases h
  | @definition name d hd => exact ⟨.single (.contract (.definition hd)), nofun⟩
  | @resolve s s' c c' m cases fields fields' index _ hform hform' hc _ ihs ihc =>
    refine ⟨?_, nofun⟩
    have hs := (ihs (hcalm.part (.frame (.scrutinee _ _)))).1
    have hcc := (ihc (hcalm.case (List.mem_of_getElem? hc))).1
    have hscrutinee : Steps table (Nameless.elim s m cases) (Nameless.elim s' m cases) :=
      hs.fill (.frame (.scrutinee m cases))
    exact (hscrutinee.trans (.single (.contract (.elim hform' hc)))).trans
      (hcc.apps (List.forall₂_same.2 fun a _ => .refl a))
  | unfold hf ha hwait hform ihf iha =>
    obtain ⟨hf', hwait'⟩ := ihf (hcalm.part (.frame (.fn _)))
    obtain ⟨fields', hform', -⟩ := ha.constructorForm hroles hform
    refine ⟨(hf'.app (iha (hcalm.part (.frame (.arg _)))).1).trans
      (.single (.contract ((hwait' 0 hwait).contraction hform'))), ?_⟩
    rintro i (_ | h)
    cases h.unique hwait
  | arithmetic h hz =>
    refine ⟨.single (.contract (.arithmetic h hz)), ?_⟩
    rintro i (_ | _ | h)
    cases h

end Nameless
end ProofKernel
