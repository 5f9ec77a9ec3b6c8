import ProofKernel.Proofs.Typing.Alike

/-!
# Inference does not depend on the names of binders

Two hygienic terms that differ in the names of their bound variables are both rejected, or have
types that differ in such names only.

* `Variants` are the terms of two runs: hygienic, and of the same meaning in contexts that are
  twins.
* `Renamable` says of a term that inference, checking and the type of a fixpoint agree on all its
  variants.  There is one lemma for each node, which asks this of the parts; `renamable` puts them
  together.
-/

set_option autoImplicit false
namespace ProofKernel

open Term (interpret shape)

variable {options : Options} {table : SymbolTable} {σ σ' : Naming} {Γ Γ' : Context}
  {used used' : List String}

/-! ## Two runs -/

/-- The terms of two runs: hygienic, and of the same meaning in contexts that are twins. -/
structure Variants (table : SymbolTable) (σ σ' : Naming) (Γ Γ' : Context) (used used' : List String)
    (t t' : Term) : Prop where
  twins : Twins table σ σ' Γ Γ' used used'
  hygienic : t.hygienic used = true
  hygienic' : t'.hygienic used' = true
  same : t.interpret σ = t'.interpret σ'

/-- Inference agrees on a term and its variants. -/
def InfersAlike (options : Options) (table : SymbolTable) (t : Term) : Prop :=
  ∀ {σ σ' : Naming} {Γ Γ' : Context} {used used' : List String} {t' : Term},
    Variants table σ σ' Γ Γ' used used' t t' →
    Verdict.Matches (Alike σ σ' Γ Γ') (infer options Γ t) (infer options Γ' t')

/-- Checking agrees on a term and its variants. -/
def ChecksAlike (options : Options) (table : SymbolTable) (t : Term) : Prop :=
  ∀ {σ σ' : Naming} {Γ Γ' : Context} {used used' : List String} {t' e e' : Term},
    Variants table σ σ' Γ Γ' used used' t t' → Alike σ σ' Γ Γ' e e' →
    Verdict.Matches (fun _ _ => True) (check options Γ t e) (check options Γ' t' e')

/-- The type of a fixpoint agrees on a body and its variants.  What the type is read off has to be
in scope, which only its use says. -/
def FixesAlike (options : Options) (table : SymbolTable) (t : Term) : Prop :=
  ∀ {σ σ' : Naming} {Γ Γ' : Context} {used used' : List String} {t' : Term},
    Variants table σ σ' Γ Γ' used used' t t' → (∀ z ∈ t.matchVars, z ∈ Γ.names) →
    Verdict.Matches (Alike σ σ' Γ Γ') (fixType options Γ t) (fixType options Γ' t')

variable {t t' : Term}

/-- Inference is compared by the rule for the outermost node. -/
theorem infer_matches {R : Term → Term → Prop}
    (h : Verdict.Matches R (synthesize options Γ t) (synthesize options Γ' t')) :
    Verdict.Matches R (infer options Γ t) (infer options Γ' t') := by
  unfold Verdict.Matches at h ⊢
  rw [infer_outcome, infer_outcome]
  exact h

/-- A term that is not in scope is rejected, and so are its variants. -/
theorem Variants.matches_of_not_scoped {R : Term → Term → Prop}
    (hv : Variants table σ σ' Γ Γ' used used' t t') (hs : ¬ ∀ z ∈ t.freeVars, z ∈ Γ.names) :
    Verdict.Matches R (infer options Γ t) (infer options Γ' t') := by
  cases h : (infer options Γ t).outcome with
  | ok type => exact absurd (infer_scoped h) hs
  | error e =>
    cases h' : (infer options Γ' t').outcome with
    | ok type => exact absurd ((hv.twins.scoped_iff hv.same).2 (infer_scoped h')) hs
    | error e' => exact .of_error h h'

theorem InfersAlike.inferSort_matches (h : InfersAlike options table t)
    (hbodies : table.BodiesClosed) (hv : Variants table σ σ' Γ Γ' used used' t t') :
    Verdict.Matches (fun u u' => u = u') (inferSort options Γ t) (inferSort options Γ' t') := by
  rw [inferSort, inferSort]
  refine (h hv).bind fun T T' _ _ hT => Verdict.Matches.lift_bind ?_
  rw [hv.twins.overTable, hv.twins.overTable', hv.twins.asSort_value_eq hbodies hT.same]
  cases (asSort options table T').value with
  | none => exact .reject _ _
  | some u => exact .pure rfl

/-! ## Inference -/

theorem infersAlike_sort (u : Universe) : InfersAlike options table (.sort u) := by
  intro σ σ' Γ Γ' used used' t' hv
  cases shape hv.twins.faithful hv.twins.faithful' hv.same with
  | sort =>
    refine infer_matches ?_
    rw [synthesize, synthesize]
    exact .pure (.sort _)

theorem infersAlike_var (x : String) : InfersAlike options table (.var x) := by
  intro σ σ' Γ Γ' used used' t' hv
  cases shape hv.twins.faithful hv.twins.faithful' hv.same with
  | var hx =>
    refine infer_matches ?_
    rw [synthesize, synthesize]
    rcases hv.twins.get?_cases hx with ⟨hget, hget'⟩ | ⟨a, a', hget, hget', ha⟩
    · rw [hget, hget']
      exact .reject _ _
    · rw [hget, hget']
      exact .pure ha

theorem infersAlike_global (hclosed : table.Closed) (x : String) :
    InfersAlike options table (.global x) := by
  intro σ σ' Γ Γ' used used' t' hv
  cases shape hv.twins.faithful hv.twins.faithful' hv.same with
  | global =>
    refine infer_matches ?_
    rw [synthesize, synthesize, hv.twins.overTable, hv.twins.overTable']
    cases htype : table.type? x with
    | none => exact .reject _ _
    | some type => exact .pure (.of_closed (hclosed.type x type htype))

theorem infersAlike_lit (l : Literal) : InfersAlike options table (.lit l) := by
  intro σ σ' Γ Γ' used used' t' hv
  cases shape hv.twins.faithful hv.twins.faithful' hv.same with
  | lit =>
    refine infer_matches ?_
    rw [synthesize, synthesize]
    exact .pure (.of_closed rfl)

theorem infersAlike_hole : InfersAlike options table .hole := by
  intro σ σ' Γ Γ' used used' t' hv
  cases shape hv.twins.faithful hv.twins.faithful' hv.same with
  | hole =>
    refine infer_matches ?_
    rw [synthesize, synthesize]
    exact .reject _ _

theorem infersAlike_pi {x : String} {a b : Term} (hbodies : table.BodiesClosed)
    (iha : InfersAlike options table a) (ihb : InfersAlike options table b) :
    InfersAlike options table (.pi x a b) := by
  intro σ σ' Γ Γ' used used' t' hv
  cases shape hv.twins.faithful hv.twins.faithful' hv.same with
  | pi ha hb =>
    obtain ⟨hya, hx, hyb⟩ := Term.hygienic_pi.1 hv.hygienic
    obtain ⟨hya', hx', hyb'⟩ := Term.hygienic_pi.1 hv.hygienic'
    refine infer_matches ?_
    rw [synthesize, synthesize]
    refine (iha.inferSort_matches hbodies ⟨hv.twins, hya, hya', ha⟩).bind fun u u' hu _ huu => ?_
    have hdomain := hv.twins.alike ha (inferSort_scoped hu)
    refine (ihb.inferSort_matches hbodies ⟨hv.twins.extend hx hx' hdomain, hyb, hyb', hb⟩).bind
      fun v v' _ _ hvv => ?_
    rw [huu, hvv]
    exact .pure (.sort _)

theorem infersAlike_lam {x : String} {a b : Term} (hbodies : table.BodiesClosed)
    (iha : InfersAlike options table a) (ihb : InfersAlike options table b) :
    InfersAlike options table (.lam x a b) := by
  intro σ σ' Γ Γ' used used' t' hv
  cases shape hv.twins.faithful hv.twins.faithful' hv.same with
  | lam ha hb =>
    obtain ⟨hya, hx, hyb⟩ := Term.hygienic_lam.1 hv.hygienic
    obtain ⟨hya', hx', hyb'⟩ := Term.hygienic_lam.1 hv.hygienic'
    refine infer_matches ?_
    rw [synthesize, synthesize]
    refine (iha.inferSort_matches hbodies ⟨hv.twins, hya, hya', ha⟩).bind fun u u' hu _ _ => ?_
    have hdomain := hv.twins.alike ha (inferSort_scoped hu)
    exact (ihb ⟨hv.twins.extend hx hx' hdomain, hyb, hyb', hb⟩).bind
      fun T T' _ _ hT => .pure (hdomain.pi hT)

theorem infersAlike_app {f a : Term} (hbodies : table.BodiesClosed)
    (ihf : InfersAlike options table f) (iha : ChecksAlike options table a) :
    InfersAlike options table (.app f a) := by
  intro σ σ' Γ Γ' used used' t' hv
  cases shape hv.twins.faithful hv.twins.faithful' hv.same with
  | app hf ha =>
    obtain ⟨hyf, hya⟩ := Term.hygienic_app.1 hv.hygienic
    obtain ⟨hyf', hya'⟩ := Term.hygienic_app.1 hv.hygienic'
    refine infer_matches ?_
    rw [synthesize, synthesize]
    refine (ihf ⟨hv.twins, hyf, hyf', hf⟩).bind fun T T' _ _ hT => Verdict.Matches.lift_bind ?_
    rw [hv.twins.overTable, hv.twins.overTable']
    rcases hv.twins.asPi_cases hbodies hT with ⟨hpi, hpi'⟩ | ⟨y, d, c, y', d', c', hpi, hpi', hpiT⟩
    · rw [hpi, hpi']
      exact .reject _ _
    · rw [hpi, hpi']
      refine (iha ⟨hv.twins, hya, hya', ha⟩ (hpiT.domain hv.twins)).bind fun _ _ hcheck _ _ => ?_
      exact .pure (hpiT.codomain hv.twins (hv.twins.alike ha (check_scoped hcheck)))

/-! ## Matches -/

theorem checkCases_matches {m m' : Term} {params params' cases cases' : List Term}
    {names : List String} (hclosed : table.Closed) (h : Twins table σ σ' Γ Γ' used used')
    (hm : Alike σ σ' Γ Γ' m m') (hp : params.map (interpret σ) = params'.map (interpret σ'))
    (hs : ∀ z ∈ Term.freeVarsAll params, z ∈ Γ.names)
    (ih : ∀ c ∈ cases, ChecksAlike options table c) (hy : ∀ c ∈ cases, c.hygienic used = true)
    (hy' : ∀ c ∈ cases', c.hygienic used' = true)
    (hc : cases.map (interpret σ) = cases'.map (interpret σ')) :
    Verdict.Matches (fun _ _ => True) (checkCases options Γ m params names cases)
      (checkCases options Γ' m' params' names cases') := by
  induction cases generalizing cases' names with
  | nil =>
    obtain rfl : cases' = [] := List.map_eq_nil_iff.1 hc.symm
    rw [checkCases.eq_def, checkCases.eq_def options Γ']
    cases names <;> exact .pure trivial
  | cons c rest ihrest =>
    obtain ⟨c', rest', rfl, hcc, hrest⟩ := List.map_eq_cons_iff.1 hc.symm
    cases names with
    | nil =>
      rw [checkCases.eq_def, checkCases.eq_def options Γ']
      exact .pure trivial
    | cons name names =>
      rw [List.forall_mem_cons] at ih hy hy'
      rw [checkCases, checkCases, h.overTable, h.overTable']
      cases hconstructor : table.constructor? name with
      | none => exact .reject _ _
      | some constructor =>
        have htype := Alike.caseType name h (hclosed.constructor name _ hconstructor) hm hp hs
        refine Verdict.Matches.note_bind ?_
        refine (ih.1 ⟨h, hy.1, hy'.1, hcc.symm⟩ htype).bind fun _ _ _ _ _ => ?_
        exact ihrest ih.2 hy.2 hy'.2 hrest.symm

theorem infersAlike_elim {s m : Term} {cases : List Term} (hclosed : table.Closed)
    (ihs : InfersAlike options table s) (ihm : InfersAlike options table m)
    (ihc : ∀ c ∈ cases, ChecksAlike options table c) :
    InfersAlike options table (.elim s m cases) := by
  intro σ σ' Γ Γ' used used' t' hv
  cases shape hv.twins.faithful hv.twins.faithful' hv.same with
  | @elim _ s' _ m' _ cases' hs hm hc =>
    obtain ⟨hys, hym, hyc⟩ := Term.hygienic_elim.1 hv.hygienic
    obtain ⟨hys', hym', hyc'⟩ := Term.hygienic_elim.1 hv.hygienic'
    have hlen : cases.length = cases'.length := by
      simpa using congrArg List.length hc
    refine infer_matches ?_
    rw [synthesize, synthesize, hv.twins.overTable, hv.twins.overTable']
    refine (ihs ⟨hv.twins, hys, hys', hs⟩).bind fun S S' hS _ hSS => Verdict.Matches.lift_bind ?_
    rw [SymbolTable.value_normalize, SymbolTable.value_normalize]
    have htype := hv.twins.reduce_alike hclosed.body options.fuel hSS
    refine (hv.twins.familyOf_matches htype).bind ?_
    rintro ⟨family, params⟩ ⟨family', params'⟩ _ _ ⟨rfl, rfl, rfl⟩
    refine (ihm ⟨hv.twins, hym, hym', hm⟩).bind fun M M' hM _ hMM => Verdict.Matches.lift_bind ?_
    rw [SymbolTable.value_normalize, SymbolTable.value_normalize]
    have hmotive := hv.twins.alike hm (infer_scoped hM)
    have hkind := (hv.twins.reduce_alike hclosed.body options.fuel hMM).same
    refine (hv.twins.motive_matches hmotive htype hkind).bind fun N N' _ _ hN => ?_
    dsimp only
    rw [← hlen]
    split
    · exact .of_error rfl rfl
    · have hparams : ∀ z ∈ Term.freeVarsAll (table.reduce options.fuel S).args, z ∈ Γ.names :=
        fun z hz => htype.inScope z (Term.freeVarsAll_args hz)
      refine (checkCases_matches hclosed hv.twins hN
        (Term.args_congr hv.twins.faithful hv.twins.faithful' htype.same) hparams ihc hyc hyc'
        hc).bind fun _ _ _ _ _ => ?_
      exact .pure (.betaReduce hv.twins (hN.app (hv.twins.alike hs (infer_scoped hS))))

/-! ## Fixpoints -/

theorem infersAlike_fix {x : String} {b : Term} (ihcheck : ChecksAlike options table b)
    (ihtype : FixesAlike options table b) : InfersAlike options table (.fix x b) := by
  intro σ σ' Γ Γ' used used' t' hv
  -- the type is read off the body before the body is checked, so scope is looked at first
  by_cases hs : ∀ z ∈ (Term.fix x b).freeVars, z ∈ Γ.names
  case neg => exact hv.matches_of_not_scoped hs
  cases shape hv.twins.faithful hv.twins.faithful' hv.same with
  | @fix _ x' _ b' hb =>
    obtain ⟨hx, hself, hyb⟩ := Term.hygienic_fix.1 hv.hygienic
    obtain ⟨hx', _, hyb'⟩ := Term.hygienic_fix.1 hv.hygienic'
    have hunder := hv.twins.under hx hx'
    have hmatch : ∀ z ∈ b.matchVars, z ∈ Γ.names := by
      intro z hz
      have hne : z ≠ x := by
        rintro rfl
        exact hself hz
      exact hs z (Term.mem_filter_ne.2 ⟨Term.mem_freeVars_of_mem_matchVars hz, hne⟩)
    refine infer_matches ?_
    rw [synthesize, synthesize, hv.twins.overTable, hv.twins.overTable']
    refine (checkTermination_matches hv.twins.faithful hv.twins.faithful' hb hyb hyb'
      hunder.placeholder hunder.placeholder').bind fun _ _ _ _ _ => ?_
    refine (ihtype ⟨hunder, hyb, hyb', hb⟩ hmatch).bind fun T T' _ _ hT => ?_
    have htype : Alike σ σ' Γ Γ' T T' := hv.twins.alike_of_under hx hx' hT
    refine Verdict.Matches.note_bind ?_
    refine (ihcheck ⟨hv.twins.extend hx hx' htype, hyb, hyb', hb⟩
      (hv.twins.alike_extend hx hx' htype)).bind fun _ _ _ _ _ => ?_
    exact .pure htype

/-! ## The type of a fixpoint -/

theorem fixesAlike_lam {x : String} {a b : Term} (hbodies : table.BodiesClosed)
    (iha : InfersAlike options table a) (ihb : FixesAlike options table b) :
    FixesAlike options table (.lam x a b) := by
  intro σ σ' Γ Γ' used used' t' hv hmatch
  cases shape hv.twins.faithful hv.twins.faithful' hv.same with
  | lam ha hb =>
    obtain ⟨hya, hx, hyb⟩ := Term.hygienic_lam.1 hv.hygienic
    obtain ⟨hya', hx', hyb'⟩ := Term.hygienic_lam.1 hv.hygienic'
    rw [fixType, fixType]
    refine (iha.inferSort_matches hbodies ⟨hv.twins, hya, hya', ha⟩).bind fun u u' hu _ _ => ?_
    have hdomain := hv.twins.alike ha (inferSort_scoped hu)
    have hinner : ∀ z ∈ b.matchVars, z ∈ (Γ.extend x a).names := by
      intro z hz
      by_cases hzx : z = x
      · exact hzx ▸ List.mem_cons_self
      · exact List.mem_cons_of_mem _ (hmatch z (Term.mem_filter_ne.2 ⟨hz, hzx⟩))
    exact (ihb ⟨hv.twins.extend hx hx' hdomain, hyb, hyb', hb⟩ hinner).bind
      fun T T' _ _ hT => .pure (hdomain.pi hT)

theorem fixesAlike_elim {s m : Term} {cases : List Term} (hbodies : table.BodiesClosed)
    (ihm : InfersAlike options table m) : FixesAlike options table (.elim s m cases) := by
  intro σ σ' Γ Γ' used used' t' hv hmatch
  cases shape hv.twins.faithful hv.twins.faithful' hv.same with
  | @elim _ s' _ m' _ cases' hs hm hc =>
    obtain ⟨_, hym, _⟩ := Term.hygienic_elim.1 hv.hygienic
    obtain ⟨_, hym', _⟩ := Term.hygienic_elim.1 hv.hygienic'
    have hscrutinee := hv.twins.alike hs fun z hz => hmatch z (List.mem_append_left _ hz)
    have hmotive := hv.twins.alike hm fun z hz => hmatch z (List.mem_append_right _ hz)
    rw [fixType.eq_def, fixType.eq_def options Γ']
    dsimp only
    cases shape hv.twins.faithful hv.twins.faithful' hm with
    | lam ha hb =>
      -- a motive that is a function is not checked, which is why scope is asked for
      have hbody : ∀ z ∈ (Term.lam _ _ _).freeVars, z ∈ Γ.names := hmotive.inScope
      exact .pure (.substitute hv.twins hb
        (fun z hz => hbody z (List.mem_append_right _ hz)) hscrutinee)
    | _ =>
      refine (ihm ⟨hv.twins, hym, hym', hm⟩).bind fun T T' _ _ hT => Verdict.Matches.lift_bind ?_
      rw [hv.twins.overTable, hv.twins.overTable', hv.twins.asSort_value_eq hbodies hT.same]
      cases (asSort options table T').value with
      | none => exact .pure (.betaReduce hv.twins (hmotive.app hscrutinee))
      | some u => exact .pure hmotive

/-- The type of any other body is inferred. -/
theorem fixesAlike_of_infersAlike (ih : InfersAlike options table t)
    (hlam : ∀ x a b, t ≠ .lam x a b) (helim : ∀ s m cases, t ≠ .elim s m cases) :
    FixesAlike options table t := by
  intro σ σ' Γ Γ' used used' t' hv _
  rw [fixType.eq_def, fixType.eq_def options Γ']
  cases shape hv.twins.faithful hv.twins.faithful' hv.same with
  | lam => exact absurd rfl (hlam _ _ _)
  | elim => exact absurd rfl (helim _ _ _)
  | _ => exact ih hv

/-! ## Checking -/

/-- A function without binder type is opened in the same way in both runs. -/
theorem checksAlike_open {x : String} {a b : Term} (hbodies : table.BodiesClosed)
    (ihb : ChecksAlike options table b) {t' e e' : Term}
    (hv : Variants table σ σ' Γ Γ' used used' (.lam x a b) t') (he : Alike σ σ' Γ Γ' e e')
    (ha : a.isPlaceholder = true) (hexpected : e ≠ .hole) (hexpected' : e' ≠ .hole) :
    Verdict.Matches (fun _ _ => True) (check options Γ (.lam x a b) e)
      (check options Γ' t' e') := by
  cases shape hv.twins.faithful hv.twins.faithful' hv.same with
  | lam haa hb =>
    obtain ⟨_, hx, hyb⟩ := Term.hygienic_lam.1 hv.hygienic
    obtain ⟨_, hx', hyb'⟩ := Term.hygienic_lam.1 hv.hygienic'
    have ha' := (Term.isPlaceholder_congr hv.twins.faithful hv.twins.faithful' haa).symm.trans ha
    rw [check_open hexpected ha, check_open hexpected' ha', hv.twins.overTable,
      hv.twins.overTable']
    refine Verdict.Matches.note_bind (Verdict.Matches.lift_bind ?_)
    rcases hv.twins.asPi_cases hbodies he with ⟨hpi, hpi'⟩ | ⟨y, d, c, y', d', c', hpi, hpi', hpie⟩
    · rw [hpi, hpi']
      exact .reject _ _
    · rw [hpi, hpi']
      dsimp only
      rw [openLambda_eq (hv.twins.eq_or_not_mem hx hpie.inScope),
        openLambda_eq (hv.twins.symm.eq_or_not_mem hx' hpie.inScope')]
      have hdomain := hpie.domain hv.twins
      exact ihb ⟨hv.twins.extend hx hx' hdomain, hyb, hyb', hb⟩
        (hpie.codomain_rename hv.twins hx hx')

/-- Checking is by inference but for holes and for functions without binder type. -/
theorem checksAlike_of (hbodies : table.BodiesClosed) (ih : InfersAlike options table t)
    (hlam : ∀ x a b, t = .lam x a b → ChecksAlike options table b) :
    ChecksAlike options table t := by
  intro σ σ' Γ Γ' used used' t' e e' hv he
  have hhole : ∀ {u u' : Term}, u.interpret σ = u'.interpret σ' → (u = .hole ↔ u' = .hole) := by
    intro u u' hu
    cases shape hv.twins.faithful hv.twins.faithful' hu with
    | hole => exact Iff.rfl
    | _ => exact iff_of_false nofun nofun
  by_cases hexpected : e = .hole
  · rw [hexpected, (hhole he.same).1 hexpected, check_expected_hole, check_expected_hole]
    exact .note_bind ((ih hv).bind fun _ _ _ _ _ => .pure trivial)
  have hexpected' : e' ≠ .hole := fun h => hexpected ((hhole he.same).2 h)
  by_cases ht : t = .hole
  · rw [ht, (hhole hv.same).1 ht, check_hole hexpected, check_hole hexpected', hv.twins.overTable,
      hv.twins.overTable']
    refine Verdict.Matches.note_bind (Verdict.Matches.lift_bind ?_)
    rw [hv.twins.asSort_value_eq hbodies he.same]
    cases (asSort options table e').value with
    | none => exact .reject _ _
    | some u => exact .pure trivial
  have ht' : t' ≠ .hole := fun h => ht ((hhole hv.same).2 h)
  by_cases hopen : ∃ x a b, t = .lam x a b ∧ a.isPlaceholder = true
  · obtain ⟨x, a, b, rfl, ha⟩ := hopen
    exact checksAlike_open hbodies (hlam x a b rfl) hv he ha hexpected hexpected'
  · have hclosed : ∀ x a b, t = .lam x a b → a.isPlaceholder = false := fun x a b h =>
      Bool.eq_false_iff.2 fun ha => hopen ⟨x, a, b, h, ha⟩
    have hclosed' : ∀ x a b, t' = .lam x a b → a.isPlaceholder = false := by
      rintro x' a' b' rfl
      cases shape hv.twins.faithful hv.twins.faithful' hv.same with
      | lam ha hb =>
        rw [← Term.isPlaceholder_congr hv.twins.faithful hv.twins.faithful' ha]
        exact hclosed _ _ _ rfl
    rw [check_other hexpected ht hclosed, check_other hexpected' ht' hclosed']
    refine Verdict.Matches.note_bind ((ih hv).bind fun T T' _ _ hT => ?_)
    exact hv.twins.compare_matches hbodies he.same hT.same

/-! ## Any term -/

/-- Inference, checking and the type of a fixpoint agree on a term and its variants. -/
structure Renamable (options : Options) (table : SymbolTable) (t : Term) : Prop where
  infers : InfersAlike options table t
  checks : ChecksAlike options table t
  fixes : FixesAlike options table t

/-- For a term that is neither a function nor a match, all three follow from the first. -/
theorem Renamable.of_infersAlike (hbodies : table.BodiesClosed) (ih : InfersAlike options table t)
    (hlam : ∀ x a b, t ≠ .lam x a b) (helim : ∀ s m cases, t ≠ .elim s m cases) :
    Renamable options table t :=
  ⟨ih, checksAlike_of hbodies ih fun x a b h => absurd h (hlam x a b),
    fixesAlike_of_infersAlike ih hlam helim⟩

/-- **The kernel does not distinguish a hygienic term from its variants.** -/
theorem renamable (hclosed : table.Closed) (t : Term) : Renamable options table t := by
  have hbodies := hclosed.body
  induction t with
  | sort u => exact .of_infersAlike hbodies (infersAlike_sort u) nofun nofun
  | var x => exact .of_infersAlike hbodies (infersAlike_var x) nofun nofun
  | global x => exact .of_infersAlike hbodies (infersAlike_global hclosed x) nofun nofun
  | lit l => exact .of_infersAlike hbodies (infersAlike_lit l) nofun nofun
  | hole => exact .of_infersAlike hbodies infersAlike_hole nofun nofun
  | pi x a b iha ihb =>
    exact .of_infersAlike hbodies (infersAlike_pi hbodies iha.infers ihb.infers) nofun nofun
  | app f a ihf iha =>
    exact .of_infersAlike hbodies (infersAlike_app hbodies ihf.infers iha.checks) nofun nofun
  | fix x b ihb =>
    exact .of_infersAlike hbodies (infersAlike_fix ihb.checks ihb.fixes) nofun nofun
  | lam x a b iha ihb =>
    have hinfers : InfersAlike options table (.lam x a b) :=
      infersAlike_lam hbodies iha.infers ihb.infers
    refine ⟨hinfers, checksAlike_of hbodies hinfers ?_,
      fixesAlike_lam hbodies iha.infers ihb.fixes⟩
    rintro x a b ⟨⟩
    exact ihb.checks
  | elim s m cases ihs ihm ihc =>
    have hinfers : InfersAlike options table (.elim s m cases) :=
      infersAlike_elim hclosed ihs.infers ihm.infers fun c hc => (ihc c hc).checks
    exact ⟨hinfers, checksAlike_of hbodies hinfers nofun, fixesAlike_elim hbodies ihm.infers⟩

/-! ## Without local variables -/

theorem Twins.ofTable (table : SymbolTable) :
    Twins table .free .free (.ofTable table) (.ofTable table) [Term.placeholder]
      [Term.placeholder] where
  faithful := Naming.faithful_free
  faithful' := Naming.faithful_free
  overTable := rfl
  overTable' := rfl
  locals := rfl
  inScope := nofun
  inScope' := nofun
  names := nofun
  names' := nofun
  placeholder := List.mem_cons_self
  placeholder' := List.mem_cons_self

/-- **Hygienic terms that are equal up to the names of bound variables have types that are**, and
these are closed; or they are both rejected. -/
theorem infer_matches_of_nameless_eq (hclosed : table.Closed)
    (hy : t.hygienic [Term.placeholder] = true) (hy' : t'.hygienic [Term.placeholder] = true)
    (h : t.nameless = t'.nameless) :
    Verdict.Matches (fun T T' => T.nameless = T'.nameless ∧ T.freeVars = [] ∧ T'.freeVars = [])
      (infer options (.ofTable table) t) (infer options (.ofTable table) t') := by
  refine ((renamable hclosed t).infers ⟨.ofTable table, hy, hy', h⟩).mono fun T T' hT => ?_
  exact ⟨hT.same, freeVars_eq_nil_of_scoped hT.inScope, freeVars_eq_nil_of_scoped hT.inScope'⟩

end ProofKernel
