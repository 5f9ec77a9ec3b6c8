import ProofKernel.Proofs.Nameless.Order
import ProofKernel.Proofs.Support.Reduction
import ProofKernel.Proofs.Typing.Scope

/-!
# Filling what a term leaves out

A hole is accepted wherever a type is expected, and it agrees with every type.  It stands for one
type only as long as it stays out of the types that are compared: each comparison takes it for a
type of its own.

* `Term.Fills` replaces everything that a term leaves out.
* `Term.Idle` says that what a term leaves out are arguments on which no type depends.  All of them
  may then be filled by one proposition (`keptByFilling`).
* `Term.through` passes a value through the identity function at a type.  Where the type is a hole,
  the value is accepted at every type (`check_through_hole`); where it is written, only if it is
  accepted there by itself (`check_of_check_through`).
-/

set_option autoImplicit false
namespace ProofKernel

variable {options : Options} {table : SymbolTable} {Γ : Context}

/-! ## Terms that leave nothing out -/

namespace SymbolTable

/-- A leaf that is no placeholder, and whose definition does not unfold to one. -/
def Settled (table : SymbolTable) (l : Leaf) : Prop :=
  ∃ S : Leaf → Prop, S l ∧ table.Unfolds S ∧ ∀ l, S l → l.Given

theorem Settled.given {l : Leaf} (h : table.Settled l) : l.Given := by
  obtain ⟨S, hl, _, hgiven⟩ := h
  exact hgiven l hl

theorem unfolds_settled (table : SymbolTable) : table.Unfolds table.Settled := by
  rintro name d ⟨S, hname, hunfolds, hgiven⟩ hd
  exact (hunfolds name d hname hd).mono fun l hl => ⟨S, hl, hunfolds, hgiven⟩

theorem settled_of_definition?_eq_none {name : String} (hname : name ≠ Term.placeholder)
    (h : table.definition? name = none) : table.Settled (.global name) := by
  refine ⟨(· = .global name), rfl, ?_, ?_⟩
  · rintro _ d ⟨⟩ hd
    rw [h] at hd
    cases hd
  · rintro _ rfl
    exact ⟨nofun, fun hglobal => hname (Leaf.global.inj hglobal)⟩

end SymbolTable

namespace Term

/-! ## Fillings -/

/-- The second term is the first one with each placeholder replaced by a term of a kind. -/
inductive Fills (R : Term → Prop) : Term → Term → Prop
  | placeholder {t r : Term} (ht : t.isPlaceholder = true) (hr : R r) : Fills R t r
  | sort (u : Universe) : Fills R (sort u) (sort u)
  | var (x : String) : Fills R (var x) (var x)
  | global {x : String} (hx : x ≠ Term.placeholder) : Fills R (global x) (global x)
  | pi {x : String} {a a' b b' : Term} (ha : Fills R a a') (hb : Fills R b b') :
      Fills R (pi x a b) (pi x a' b')
  | lam {x : String} {a a' b b' : Term} (ha : Fills R a a') (hb : Fills R b b') :
      Fills R (lam x a b) (lam x a' b')
  | app {f f' a a' : Term} (hf : Fills R f f') (ha : Fills R a a') :
      Fills R (app f a) (app f' a')
  | elim {s s' m m' : Term} {cases cases' : List Term} (hs : Fills R s s') (hm : Fills R m m')
      (hc : List.Forall₂ (Fills R) cases cases') : Fills R (elim s m cases) (elim s' m' cases')
  | fix {x : String} {b b' : Term} (hb : Fills R b b') : Fills R (fix x b) (fix x b')
  | lit (l : Literal) : Fills R (lit l) (lit l)

variable {R : Term → Prop} {t t' : Term}

theorem Fills.eq_of_forall₂ {ts ts' : List Term} (h : ∀ t ∈ ts, ∀ t', Fills R t t' → t' = t)
    (hfills : List.Forall₂ (Fills R) ts ts') : ts' = ts := by
  induction hfills with
  | nil => rfl
  | cons hd _ ih =>
    rw [List.forall_mem_cons] at h
    rw [h.1 _ hd, ih h.2]

/-- A term that leaves nothing out is filled by itself only. -/
theorem Fills.eq_of_over (h : Fills R t t') (ht : t.Over Leaf.Given) : t' = t := by
  induction t generalizing t' with
  | sort | var | lit =>
    cases h with
    | placeholder h => cases h
    | _ => rfl
  | global | hole =>
    have hplace := ht.isPlaceholder
    cases h with
    | placeholder h => rw [hplace] at h; cases h
    | _ => rfl
  | pi x a b iha ihb =>
    cases h with
    | placeholder h => cases h
    | pi ha hb => rw [iha ha (over_pi.1 ht).1, ihb hb (over_pi.1 ht).2]
  | lam x a b iha ihb =>
    cases h with
    | placeholder h => cases h
    | lam ha hb => rw [iha ha (over_lam.1 ht).1, ihb hb (over_lam.1 ht).2]
  | app f a ihf iha =>
    cases h with
    | placeholder h => cases h
    | app hf ha => rw [ihf hf (over_app.1 ht).1, iha ha (over_app.1 ht).2]
  | fix x b ihb =>
    cases h with
    | placeholder h => cases h
    | fix hb => rw [ihb hb (over_fix.1 ht)]
  | elim s m cases ihs ihm ihc =>
    obtain ⟨hs, hm, hc⟩ := over_elim.1 ht
    cases h with
    | placeholder h => cases h
    | elim hs' hm' hc' =>
      have hcases := Fills.eq_of_forall₂ (fun c hmem _ h => ihc c hmem h (hc c hmem)) hc'
      rw [ihs hs' hs, ihm hm' hm, hcases]

mutual

/-- A term with each placeholder replaced by one and the same term. -/
def fill : Term → Term → Term
  | hole, r => r
  | global x, r => if x = Term.placeholder then r else global x
  | sort u, _ => sort u
  | var x, _ => var x
  | lit l, _ => lit l
  | pi x a b, r => pi x (a.fill r) (b.fill r)
  | lam x a b, r => lam x (a.fill r) (b.fill r)
  | app f a, r => app (f.fill r) (a.fill r)
  | elim s m cases, r => elim (s.fill r) (m.fill r) (fillAll cases r)
  | fix x b, r => fix x (b.fill r)

/-- A list of terms with each placeholder replaced by one and the same term. -/
def fillAll : List Term → Term → List Term
  | [], _ => []
  | t :: rest, r => t.fill r :: fillAll rest r

end

theorem fillAll_eq_map (ts : List Term) (r : Term) : fillAll ts r = ts.map (·.fill r) := by
  induction ts with
  | nil => rfl
  | cons t ts ih => rw [fillAll, ih, List.map_cons]

theorem fills_fill {r : Term} (hr : R r) (t : Term) : Fills R t (t.fill r) := by
  induction t with
  | sort u => exact .sort u
  | var x => exact .var x
  | lit l => exact .lit l
  | hole => exact .placeholder rfl hr
  | global x =>
    rw [fill]
    split
    · next hx => exact .placeholder (beq_iff_eq.2 hx) hr
    · next hx => exact .global hx
  | pi x a b iha ihb => exact .pi iha ihb
  | lam x a b iha ihb => exact .lam iha ihb
  | app f a ihf iha => exact .app ihf iha
  | fix x b ihb => exact .fix ihb
  | elim s m cases ihs ihm ihc =>
    rw [fill, fillAll_eq_map]
    refine .elim ihs ihm (List.forall₂_map_right_iff.2 (List.forall₂_same.2 ihc))

theorem fill_of_over (ht : t.Over Leaf.Given) (r : Term) : t.fill r = t :=
  (fills_fill (R := fun _ => True) trivial t).eq_of_over ht

/-! ## Arguments on which no type depends -/

mutual

/-- What a term leaves out are arguments that do not occur in the type of what they are given to.
Binder types, motives, what is matched on and the bodies of fixpoints are written in full. -/
def Idle (options : Options) : Term → Context → Prop
  | sort _, _ | var _, _ | lit _, _ | hole, _ => True
  | global x, _ => x ≠ Term.placeholder
  | pi x a b, Γ | lam x a b, Γ => a.Over Leaf.Given ∧ b.Idle options (Γ.extend x a)
  | app f a, Γ =>
    f.Idle options Γ ∧ a.Idle options Γ ∧ (a.Over Leaf.Given ∨
      ∀ F x domain codomain, (infer options Γ f).outcome = .ok F →
        (asPi options Γ.table F).value = some (x, domain, codomain) → x ∉ codomain.freeVars)
  | elim s m cases, Γ => s.Over Leaf.Given ∧ m.Over Leaf.Given ∧ IdleAll options cases Γ
  | fix _ b, _ => b.Over Leaf.Given

/-- What the terms of a list leave out are arguments on which no type depends. -/
def IdleAll (options : Options) : List Term → Context → Prop
  | [], _ => True
  | t :: rest, Γ => t.Idle options Γ ∧ IdleAll options rest Γ

end

theorem idleAll_iff {ts : List Term} :
    IdleAll options ts Γ ↔ ∀ t ∈ ts, t.Idle options Γ := by
  induction ts with
  | nil => simp [IdleAll]
  | cons t ts ih => simp [IdleAll, ih]

end Term

/-- A term that is accepted stays so, at the same types, when a proposition is put for what it
leaves out. -/
structure KeptByFilling (options : Options) (name : String) (t : Term) : Prop where
  infer : ∀ {Γ : Context} {type : Term}, Γ.table.type? name = some (.sort .prop) →
    t.Idle options Γ → (infer options Γ t).outcome = .ok type →
    (infer options Γ (t.fill (.global name))).outcome = .ok type
  check : ∀ {Γ : Context} {expected : Term}, Γ.table.type? name = some (.sort .prop) →
    t.Idle options Γ → (check options Γ t expected).outcome = .ok () →
    (check options Γ (t.fill (.global name)) expected).outcome = .ok ()

variable {name : String} {t : Term}

/-- If its type is kept, a term is accepted at the same types: it has no binder type left open. -/
theorem KeptByFilling.of_infer
    (h : ∀ {Γ : Context} {type : Term}, Γ.table.type? name = some (.sort .prop) →
      t.Idle options Γ → (ProofKernel.infer options Γ t).outcome = .ok type →
      (ProofKernel.infer options Γ (t.fill (.global name))).outcome = .ok type) :
    KeptByFilling options name t := by
  refine ⟨h, fun {Γ expected} hname ht hcheck => ?_⟩
  by_cases hhole : t = .hole
  · -- a hole is accepted at universes only, and a proposition at all of them
    subst hhole
    obtain ⟨u, hu⟩ := check_hole_eq_ok_iff.1 hcheck
    refine check_of_infer nofun (infer_global hname) ?_
    rw [hu, reduce_sort]
    simp [Term.le, Universe.le]
  have hopen : ∀ x a b, t = .lam x a b → a.isPlaceholder = false := by
    rintro x a b rfl
    exact Term.Over.isPlaceholder ht.1
  obtain ⟨type, htype, hle⟩ := (check_iff_infer hhole hopen).1 hcheck
  refine check_of_infer ?_ (h hname ht htype) hle
  intro x a b hlam
  cases t with
  | lam y c d =>
    rw [Term.fill, Term.fill_of_over ht.1] at hlam
    cases hlam
    exact Term.Over.isPlaceholder ht.1
  | global z =>
    rw [Term.fill, if_neg ht] at hlam
    cases hlam
  | hole => exact absurd rfl hhole
  | _ => cases hlam

theorem checkCases_fill {motive : Term} {params : List Term} {constructors : List String}
    {cases : List Term} (hkept : ∀ c ∈ cases, KeptByFilling options name c)
    (hname : Γ.table.type? name = some (.sort .prop)) (hidle : ∀ c ∈ cases, c.Idle options Γ)
    (h : (checkCases options Γ motive params constructors cases).outcome = .ok ()) :
    (checkCases options Γ motive params constructors
      (cases.map (·.fill (.global name)))).outcome = .ok () := by
  induction cases generalizing constructors with
  | nil => exact h
  | cons c rest ih =>
    rw [List.forall_mem_cons] at hkept hidle
    cases constructors with
    | nil => rw [checkCases] <;> simp
    | cons constructor constructors =>
      rw [checkCases] at h
      rw [List.map_cons, checkCases]
      split at h
      · cases h
      · next hconstructor =>
        simp only [Verdict.bind_eq_ok_iff] at h ⊢
        obtain ⟨_, hnote, _, hc, hrest⟩ := h
        exact ⟨(), hnote, (), hkept.1.check hname hidle.1 hc, ih hkept.2 hidle.2 hrest⟩

/-- **What no type depends on may be filled by a proposition.** -/
theorem keptByFilling (name : String) (t : Term) : KeptByFilling options name t := by
  induction t with
  | sort | var | lit => exact .of_infer fun _ _ h => h
  | global x =>
    refine .of_infer fun _ hx h => ?_
    rw [Term.fill, if_neg hx]
    exact h
  | hole =>
    refine .of_infer fun _ _ h => ?_
    rw [infer_hole] at h
    cases h
  | fix x b ihb =>
    refine .of_infer fun _ hb h => ?_
    rw [Term.fill_of_over (Term.over_fix.2 hb)]
    exact h
  | pi x a b iha ihb =>
    refine .of_infer fun hname ht h => ?_
    obtain ⟨u, v, ha, hb, rfl⟩ := infer_pi_eq_ok_iff.1 h
    obtain ⟨k, hk, hsort⟩ := inferSort_eq_ok_iff.1 hb
    rw [Term.fill, Term.fill_of_over ht.1]
    exact infer_pi ha (inferSort_eq_ok_iff.2 ⟨k, ihb.infer hname ht.2 hk, hsort⟩)
  | lam x a b iha ihb =>
    refine .of_infer fun hname ht h => ?_
    obtain ⟨u, inner, ha, hb, rfl⟩ := infer_lam_eq_ok_iff.1 h
    rw [Term.fill, Term.fill_of_over ht.1]
    exact infer_lam ha (ihb.infer hname ht.2 hb)
  | app f a ihf iha =>
    refine .of_infer fun hname ⟨hf, ha, hdepends⟩ h => ?_
    obtain ⟨F, x, domain, codomain, hF, hpi, hcheck, rfl⟩ := infer_app_eq_ok_iff.1 h
    refine infer_app_eq_ok_iff.2 ⟨F, x, domain, codomain, ihf.infer hname hf hF, hpi,
      iha.check hname ha hcheck, ?_⟩
    rcases hdepends with hgiven | hfree
    · rw [Term.fill_of_over hgiven]
    · have hfree := hfree F x domain codomain hF hpi
      rw [Term.substitute_of_not_mem _ hfree, Term.substitute_of_not_mem _ hfree]
  | elim s m cases ihs ihm ihc =>
    refine .of_infer fun hname ⟨hs, hm, hc⟩ h => ?_
    obtain ⟨S, M, family, params, motive, hS, hfamily, hM, hmotive, hlen, hcases, rfl⟩ :=
      infer_elim_eq_ok_iff.1 h
    rw [Term.fill, Term.fill_of_over hs, Term.fill_of_over hm, Term.fillAll_eq_map]
    refine infer_elim_eq_ok_iff.2 ⟨S, M, family, params, motive, hS, hfamily, hM, hmotive, ?_,
      checkCases_fill ihc hname (Term.idleAll_iff.1 hc) hcases, rfl⟩
    rw [List.length_map, hlen]

/-! ## The identity function at a type -/

namespace Term

/-- The identity function of the types of a universe. -/
def identity (u : Universe) : Term :=
  lam "A" (sort u) (lam "x" (var "A") (var "x"))

/-- A value passed through the identity function at a type. -/
def through (u : Universe) (b a : Term) : Term :=
  app (app (identity u) b) a

theorem fill_through {a : Term} (ha : a.Over Leaf.Given) (u : Universe) (r : Term) :
    (through u hole a).fill r = through u r a := by
  have hidentity : (identity u).Over Leaf.Given := by simp [identity]
  rw [through, fill, fill, fill_of_over hidentity, fill_of_over ha]
  rfl

theorem Fills.of_through {R : Term → Prop} {u : Universe} {a t' : Term}
    (h : Fills R (through u hole a) t') (ha : a.Over Leaf.Given) :
    ∃ b, R b ∧ t' = through u b a := by
  cases h with
  | placeholder h => cases h
  | app hfn harg =>
    obtain rfl := harg.eq_of_over ha
    cases hfn with
    | placeholder h => cases h
    | app hidentity hhole =>
      obtain rfl := hidentity.eq_of_over (by simp [identity])
      cases hhole with
      | placeholder _ hr => exact ⟨_, hr, rfl⟩

end Term

theorem infer_identity (u : Universe) :
    (infer options Γ (.identity u)).outcome =
      .ok (.pi "A" (.sort u) (.pi "x" (.var "A") (.var "A"))) := by
  refine infer_lam (inferSort_sort u) (infer_lam (u := u) ?_ ?_)
  · refine inferSort_eq_ok_iff.2 ⟨.sort u, ?_, reduce_sort _ u⟩
    rw [infer_outcome, synthesize]
    rfl
  · rw [infer_outcome, synthesize]
    rfl

/-- A value that is passed through a type has this type, be it written or left out. -/
theorem infer_through {u : Universe} {b a type : Term} (hb : b.freeVars = []) :
    (infer options Γ (.through u b a)).outcome = .ok type ↔
      (check options Γ b (.sort u)).outcome = .ok () ∧ (check options Γ a b).outcome = .ok () ∧
        type = b := by
  have hhead (h : (check options Γ b (.sort u)).outcome = .ok ()) :
      (infer options Γ (.app (.identity u) b)).outcome = .ok (.pi "x" b b) := by
    rw [infer_app (infer_identity u) h, Term.substitute_pi, Term.substituteBody]
    simp [hb, Term.substitute_var]
  constructor
  · intro h
    obtain ⟨F, _, _, _, hF, _⟩ := infer_app_eq_ok_iff.1 h
    have hsort := ((infer_app_iff (infer_identity u)).1 hF).1
    obtain ⟨ha, rfl⟩ := (infer_app_iff (hhead hsort)).1 h
    exact ⟨hsort, ha, Term.substitute_of_closed hb _ _⟩
  · rintro ⟨hsort, ha, rfl⟩
    rw [Term.through, infer_app (hhead hsort) ha, Term.substitute_of_closed hb]

theorem check_through_iff {u : Universe} {b a expected : Term} (hb : b.freeVars = []) :
    (check options Γ (.through u b a) expected).outcome = .ok () ↔
      (check options Γ b (.sort u)).outcome = .ok () ∧ (check options Γ a b).outcome = .ok () ∧
        (Γ.table.reduce options.fuel b).le (Γ.table.reduce options.fuel expected) = true := by
  rw [check_iff_infer (t := .through u b a) nofun nofun]
  simp only [infer_through hb]
  constructor
  · rintro ⟨_, ⟨hsort, ha, rfl⟩, hle⟩
    exact ⟨hsort, ha, hle⟩
  · rintro ⟨hsort, ha, hle⟩
    exact ⟨b, ⟨hsort, ha, rfl⟩, hle⟩

/-- **A value that is passed through a hole is accepted at every type.**  The hole is compared with
the type of the value, and then with the type that is expected. -/
theorem check_through_hole {u : Universe} {a A expected : Term}
    (ha : (infer options Γ a).outcome = .ok A) :
    (check options Γ (.through u .hole a) expected).outcome = .ok () := by
  have hhole : Γ.table.reduce options.fuel .hole = .hole :=
    SymbolTable.reduce_of_step?_eq_none rfl _
  refine (check_through_iff rfl).2 ⟨check_hole_eq_ok_iff.2 ⟨u, reduce_sort _ u⟩, ?_, ?_⟩
  · simp [check_expected_hole, ha]
  · rw [hhole]
    exact Term.le_of_isPlaceholder (.inl rfl)

/-- **A value that is passed through a type that leaves nothing out is accepted by itself** wherever
it is accepted so. -/
theorem check_of_check_through {u : Universe} {b a expected : Term} (ha : a.Over Leaf.Given)
    (hb : b.Over table.Settled)
    (h : (check options (.ofTable table) (.through u b a) expected).outcome = .ok ()) :
    (check options (.ofTable table) a expected).outcome = .ok () := by
  have hclosed : (Term.through u b a).freeVars = [] := closed_of_check h
  simp only [Term.through, Term.freeVars, List.append_eq_nil_iff] at hclosed
  obtain ⟨_, hcheck, hle⟩ := (check_through_iff hclosed.1.2).1 h
  have hopen : ∀ x c d, a = .lam x c d → c.isPlaceholder = false := by
    rintro x c d rfl
    exact (Term.over_lam.1 ha).1.isPlaceholder
  have hhole : a ≠ .hole := by
    rintro rfl
    cases ha.isPlaceholder
  obtain ⟨A, hA, hle'⟩ := (check_iff_infer hhole hopen).1 hcheck
  have hgiven : (table.reduce options.fuel b).Over Leaf.Given :=
    (hb.reduce table.unfolds_settled options.fuel).mono fun _ hl => hl.given
  exact check_of_infer hopen hA (Term.le_trans hgiven hle' hle)

/-! ## Fillings that are accepted -/

/-- There is a way to fill what a term leaves out, by terms that leave nothing out, in which it is
accepted at a type. -/
def Fillable (options : Options) (table : SymbolTable) (t type : Term) : Prop :=
  ∃ t', t.Fills (·.Over table.Settled) t' ∧
    (check options (.ofTable table) t' type).outcome = .ok ()

/-- **A value that is passed through a hole can be filled at a type iff it has the type.** -/
theorem fillable_through_iff {u : Universe} {a type : Term} (ha : a.Over Leaf.Given)
    (htype : type.Over table.Settled)
    (hsort : (inferSort options (.ofTable table) type).outcome = .ok u)
    (hself : (isSubtype options table type type).value = true) :
    Fillable options table (.through u .hole a) type ↔
      (check options (.ofTable table) a type).outcome = .ok () := by
  constructor
  · rintro ⟨_, hfills, hcheck⟩
    obtain ⟨b, hb, rfl⟩ := hfills.of_through ha
    exact check_of_check_through ha hb hcheck
  · intro h
    refine ⟨_, Term.fills_fill htype _, ?_⟩
    rw [isSubtype_value] at hself
    rw [Term.fill_through ha, check_through_iff (closed_of_inferSort hsort)]
    exact ⟨check_sort_of_inferSort hsort, h, hself⟩

end ProofKernel
