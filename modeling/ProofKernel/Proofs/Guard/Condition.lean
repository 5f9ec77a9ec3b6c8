import ProofKernel.Proofs.Guard.References
import ProofKernel.Proofs.Guard.Visit
import ProofKernel.Proofs.Nameless.Guard

/-!
# The guard condition

The guard follows names along every path into the body of a fixpoint, where each binder may hide
any of them.  It decides a condition that has no names in it.

* `Guard.Known` relates what the guard knows of names to the binders that they mean.
* `Guard.Known.accepts_iff` is the visit of a term, `Guard.Known.acceptsBody_iff` that of a body.
* `checkTermination_iff_condition` is the whole: the guard accepts a fixpoint iff its nameless form
  meets the condition.
-/

set_option autoImplicit false
namespace ProofKernel

open Term (interpret)

namespace Guard

/-! ## What the guard knows -/

/-- What a variable inside binders means, if it is bound by one of them. -/
def roleOf (binders : List Binder) : Nameless → Option Binder
  | .atom (.bound k) => binders[k]?
  | _ => none

theorem roleOf_shift (role : Binder) (binders : List Binder) (u : Nameless) :
    roleOf (role :: binders) u.shift = roleOf binders u := by
  cases u with
  | atom a => cases a <;> rfl
  | _ => rfl

/-- The guard knows the variables, other than the placeholder, by what they mean. -/
structure Known (g : Target) (s : Scope) (σ : Naming) (binders : List Binder) : Prop where
  faithful : σ.Faithful
  refers : ∀ x, x ≠ Term.placeholder →
    ((s.active && x == g.self) = true ↔ roleOf binders (σ x) = some .fixpoint)
  smaller : ∀ x, x ≠ Term.placeholder →
    (x ∈ s.smaller ↔ ∃ family, roleOf binders (σ x) = some (.field family))
  matchers : ∀ x, x ≠ Term.placeholder →
    s.matchers.get? x = (roleOf binders (σ x)).bind Binder.family?

namespace Known

variable {g : Target} {s : Scope} {σ : Naming} {binders : List Binder}

/-- Inside a binder the role of its own variable is that of the binder, and others keep theirs. -/
theorem roleOf_under (role : Binder) (n x : String) :
    roleOf (role :: binders) (σ.under n x) = if x = n then some role else roleOf binders (σ x) := by
  by_cases hx : x = n
  · rw [if_pos hx, hx, Naming.under_self]
    rfl
  · rw [if_neg hx, Naming.under_of_ne hx, roleOf_shift]

theorem bind (h : Known g s σ binders) (n : String) :
    Known g (s.bind g.self n) (σ.under n) (.other :: binders) := by
  refine ⟨h.faithful.under n, fun x hx => ?_, fun x hx => ?_, fun x hx => ?_⟩
  all_goals rw [roleOf_under]
  · by_cases hxn : x = n
    · rw [if_pos hxn, hxn, Scope.refers_bind_self]
      simp
    · rw [if_neg hxn, Scope.refers_bind_of_ne hxn, h.refers x hx]
  · rw [Scope.bind, NameSet.mem_erase, h.smaller x hx]
    by_cases hxn : x = n
    · rw [if_pos hxn]
      exact iff_of_false (fun h => h.2 hxn) (by simp)
    · rw [if_neg hxn]
      exact and_iff_left hxn
  · rw [Scope.bind, NameMap.get?_erase, h.matchers x hx]
    split <;> rfl

/-- Inside the binder of the structural parameter, matching on it gives smaller variables. -/
theorem decreasing (h : Known g s σ binders) (n family : String) :
    Known g ((s.bind g.self n).decreasing n family) (σ.under n) (.parameter family :: binders) := by
  have hbind := h.bind n
  refine ⟨hbind.faithful, fun x hx => ?_, fun x hx => ?_, fun x hx => ?_⟩
  · refine (hbind.refers x hx).trans ?_
    rw [roleOf_under, roleOf_under]
    split <;> simp
  · refine (hbind.smaller x hx).trans ?_
    rw [roleOf_under, roleOf_under]
    split <;> simp
  · rw [Scope.decreasing, NameMap.get?_put, hbind.matchers x hx, roleOf_under, roleOf_under]
    by_cases hxn : x = n
    · rw [if_pos hxn.symm, if_pos hxn]
      rfl
    · rw [if_neg (Ne.symm hxn), if_neg hxn, if_neg hxn]

/-- Inside the binder of a field, its variable is smaller. -/
theorem field (h : Known g s σ binders) (n : String) (family : Option String) :
    Known g (if n = Term.placeholder then s.bind g.self n
      else (s.bind g.self n).withSmaller n family) (σ.under n) (.field family :: binders) := by
  have hbind := h.bind n
  by_cases hn : n = Term.placeholder
  · -- the variable of the binder is the placeholder, of which nothing has to be known
    have hrole : ∀ x, x ≠ Term.placeholder → roleOf (.field family :: binders) (σ.under n x) =
        roleOf (.other :: binders) (σ.under n x) := by
      intro x hx
      rw [roleOf_under, roleOf_under, if_neg (hn ▸ hx), if_neg (hn ▸ hx)]
    rw [if_pos hn]
    exact ⟨hbind.faithful, fun x hx => hrole x hx ▸ hbind.refers x hx,
      fun x hx => hrole x hx ▸ hbind.smaller x hx, fun x hx => hrole x hx ▸ hbind.matchers x hx⟩
  · rw [if_neg hn]
    refine ⟨hbind.faithful, fun x hx => ?_, fun x hx => ?_, fun x hx => ?_⟩
    · refine (hbind.refers x hx).trans ?_
      rw [roleOf_under, roleOf_under]
      split <;> simp
    · refine NameSet.mem_insert.trans ?_
      rw [hbind.smaller x hx, roleOf_under, roleOf_under]
      split <;> simp_all
    · rw [roleOf_under]
      cases family with
      | none =>
        refine (hbind.matchers x hx).trans ?_
        rw [roleOf_under]
        split <;> rfl
      | some f =>
        refine (NameMap.get?_put ..).trans ?_
        rw [hbind.matchers x hx, roleOf_under]
        by_cases hxn : x = n
        · rw [if_pos hxn.symm, if_pos hxn]
          rfl
        · rw [if_neg (Ne.symm hxn), if_neg hxn, if_neg hxn]

/-! ## Calls -/

/-- The argument in structural position is a smaller variable iff it means a field. -/
theorem smaller_arg_iff (h : Known g s σ binders) {args : List Term}
    (hargs : Term.placeholder ∉ Term.varRefsAll args) (i : Nat) :
    (∃ x, args[i]? = some (.var x) ∧ x ∈ s.smaller) ↔
      ∃ k family, (args.map (interpret σ))[i]? = some (.atom (.bound k)) ∧
        binders[k]? = some (.field family) := by
  have hne : ∀ {x}, args[i]? = some (.var x) → x ≠ Term.placeholder := by
    rintro x hx rfl
    exact hargs (Term.mem_varRefsAll.2 ⟨_, List.mem_of_getElem? hx, List.mem_singleton_self _⟩)
  simp only [List.getElem?_map, Option.map_eq_some_iff]
  constructor
  · rintro ⟨x, hx, hsmaller⟩
    obtain ⟨family, hrole⟩ := (h.smaller x (hne hx)).1 hsmaller
    unfold roleOf at hrole
    split at hrole
    · next k hk => exact ⟨k, family, ⟨_, hx, hk⟩, hrole⟩
    · cases hrole
  · rintro ⟨k, family, ⟨arg, harg, hk⟩, hrole⟩
    obtain ⟨x, rfl⟩ := Term.eq_var_of_interpret hk
    refine ⟨x, harg, (h.smaller x (hne harg)).2 ⟨family, ?_⟩⟩
    rw [show σ x = .atom (.bound k) from hk]
    exact hrole

/-- A variable is guarded as the head of an application iff all references in its meaning are. -/
theorem guards_var_iff (h : Known g s σ binders) {x : String} (hx : x ≠ Term.placeholder)
    {args : List Term} (hargs : Term.placeholder ∉ Term.varRefsAll args) {place : Place}
    (hplace : place.args = args.map (interpret σ)) :
    g.Guards s (.var x) args ↔ ∀ r ∈ references g.table g.table.isNamedFamily binders place (σ x),
      r.Guarded g.index := by
  have hrefers : s.active = true ∧ x = g.self ↔ roleOf binders (σ x) = some .fixpoint := by
    rw [← h.refers x hx, Bool.and_eq_true, beq_iff_eq]
  rw [Target.Guards, ← and_imp, Term.var.injEq, hrefers, h.smaller_arg_iff hargs]
  obtain ⟨a, ha⟩ := h.faithful.atomic x
  rw [ha]
  cases a with
  | bound k => simp [references, Reference.Guarded, roleOf, hplace]
  | free y => simp [references, roleOf]

end Known

/-! ## The visit -/

theorem fieldsOf_eq (g : Target) (constructor : String) :
    fieldsOf g.table g.table.isNamedFamily constructor = g.fieldFamilies constructor := by
  unfold fieldsOf Target.fieldFamilies
  cases g.table.constructor? constructor with
  | none => rfl
  | some c =>
    cases hfamily : g.table.family? c.family with
    | none => simp [hfamily]
    | some family =>
      have hheads := Term.domains_interpret Naming.faithful_free c.type
      simp only [hfamily]
      calc (c.type.nameless.domains.drop family.params).map
            (fun type => type.headGlobal?.filter g.table.isNamedFamily)
          = ((c.type.nameless.domains.map Nameless.headGlobal?).drop family.params).map
              (Option.filter g.table.isNamedFamily) := by rw [← List.map_drop, List.map_map]; rfl
        _ = _ := by
          rw [Term.nameless, hheads, ← List.map_drop, List.map_map]
          rfl

theorem forall_mem_referencesAll {table : SymbolTable} {matchable : String → Bool}
    {binders : List Binder} {constructors : List String} {cases : List Nameless}
    {P : Reference → Prop} :
    (∀ r ∈ referencesAll table matchable binders constructors cases, P r) ↔
      ∀ (i : Nat) c, cases[i]? = some c →
        ∀ r ∈ references table matchable binders
          (casePlace table matchable constructors[i]?) c, P r := by
  induction cases generalizing constructors with
  | nil => exact iff_of_true nofun nofun
  | cons c rest ih =>
    rw [referencesAll, List.forall_mem_append, ih]
    refine Iff.trans ?_ Nat.and_forall_add_one
    simp [List.getElem?_tail, List.head?_eq_getElem?]

/-- The sites of the visit and the places of the condition, with the arguments of the application
whose head is visited. -/
inductive Site.At (σ : Naming) : Site → List Term → Place → Prop
  | operand : At σ .operand [] .operand
  | head (args : List Term) : At σ .head args (.applied (args.map (interpret σ)))
  | branch (fields : List (Option String)) : At σ (.branch fields) [] (.fields fields)

theorem Site.operand_ne_head : Site.operand ≠ head :=
  nofun

/-- Away from the head of an application there is no condition on the application itself. -/
theorem Site.and_iff_of_ne_head {site : Site} (h : site ≠ head) {P Q : Prop} :
    (site = head → P) ∧ Q ↔ Q :=
  and_iff_right fun heq => absurd heq h

/-- A term that is no variable is no call. -/
theorem Target.guards_of_ne_var {g : Target} {s : Scope} {t : Term} (h : ∀ x, t ≠ .var x)
    (args : List Term) : g.Guards s t args :=
  fun _ hself => absurd hself (h g.self)

namespace Known

variable {g : Target} {s : Scope} {site : Site} {σ : Naming} {binders : List Binder}
  {place : Place} {args : List Term}

theorem place_args (h : site.At σ args place) : place.args = args.map (interpret σ) := by
  cases h <;> rfl

/-- Entering a function keeps what is known in step with the binders. -/
theorem enter (h : Known g s σ binders) (hat : site.At σ args place) (n : String)
    (type : Nameless) :
    Known g (g.inside s n site) (σ.under n) (place.binder type :: binders) ∧
      site.inner.At (σ.under n) [] place.body := by
  cases hat with
  | operand | head => exact ⟨h.bind n, .operand⟩
  | branch fields =>
    cases fields with
    | nil => exact ⟨h.bind n, .operand⟩
    | cons family rest => exact ⟨h.field n family, .branch rest⟩

theorem constructorsOf_eq (h : Known g s σ binders) {scrutinee : Term}
    (hvars : Term.placeholder ∉ scrutinee.varRefs) :
    g.constructorsOf s scrutinee = constructorsAt g.table binders (scrutinee.interpret σ) := by
  cases scrutinee with
  | var x =>
    have hx : x ≠ Term.placeholder := fun hx => hvars (List.mem_singleton.2 hx.symm)
    obtain ⟨a, ha⟩ := h.faithful.atomic x
    rw [Target.constructorsOf, h.matchers x hx, interpret, ha]
    cases a <;> rfl
  | _ => rfl

theorem caseSite_at (g : Target) (σ : Naming) (constructor : Option String) :
    (g.caseSite constructor).At σ []
      (casePlace g.table g.table.isNamedFamily constructor) := by
  cases constructor with
  | none => exact .operand
  | some constructor =>
    rw [casePlace, fieldsOf_eq]
    exact .branch _

/-- **The visit of a term meets no violation iff the references in its meaning are guarded.**  At
the head of an application the condition on the application itself comes on top. -/
theorem accepts_iff {t : Term} (h : Known g s σ binders) (hat : site.At σ args place)
    (hvars : Term.placeholder ∉ t.varRefs) (hargs : Term.placeholder ∉ Term.varRefsAll args) :
    ((site = .head → g.Guards s t.head (t.args ++ args)) ∧ g.Accepts s site t) ↔
      ∀ r ∈ references g.table g.table.isNamedFamily binders place (t.interpret σ),
        r.Guarded g.index := by
  induction t generalizing s site σ binders place args with
  | sort | global | lit | hole =>
    exact iff_of_true ⟨fun _ => Target.guards_of_ne_var (by simp [Term.head]) _, rfl⟩
      (List.forall_mem_nil _)
  | var x =>
    have hx : x ≠ Term.placeholder := fun hx => hvars (List.mem_singleton.2 hx.symm)
    refine Iff.trans ?_ (h.guards_var_iff hx hargs (place_args hat))
    rw [Target.accepts_var]
    cases hat with
    | head args => simp [Term.head, Term.args]
    | operand | branch => simp [Target.Guards]
  | pi x a b iha ihb =>
    rw [Term.varRefs, List.mem_append, not_or] at hvars
    have ha := (Site.and_iff_of_ne_head Site.operand_ne_head).symm.trans
      (iha h .operand hvars.1 List.not_mem_nil)
    have hb := (Site.and_iff_of_ne_head Site.operand_ne_head).symm.trans
      (ihb (h.bind x) .operand hvars.2 List.not_mem_nil)
    rw [interpret, references, List.forall_mem_append, ← ha, ← hb]
    exact (and_iff_right fun _ => Target.guards_of_ne_var (by simp [Term.head]) _).trans
      Target.accepts_pi
  | lam x a b iha ihb =>
    rw [Term.varRefs, List.mem_append, not_or] at hvars
    obtain ⟨hscope, hsite⟩ := h.enter hat x (a.interpret σ)
    have ha := (Site.and_iff_of_ne_head Site.operand_ne_head).symm.trans
      (iha h .operand hvars.1 List.not_mem_nil)
    have hb := (Site.and_iff_of_ne_head site.inner_ne_head).symm.trans
      (ihb hscope hsite hvars.2 List.not_mem_nil)
    rw [interpret, references, List.forall_mem_append, ← ha, ← hb]
    exact (and_iff_right fun _ => Target.guards_of_ne_var (by simp [Term.head]) _).trans
      Target.accepts_lam
  | fix x b ihb =>
    have hb := (Site.and_iff_of_ne_head Site.operand_ne_head).symm.trans
      (ihb (h.bind x) .operand hvars List.not_mem_nil)
    rw [interpret, references, ← hb]
    exact (and_iff_right fun _ => Target.guards_of_ne_var (by simp [Term.head]) _).trans
      Target.accepts_fix
  | app f a ihf iha =>
    rw [Term.varRefs, List.mem_append, not_or] at hvars
    have hargs' : Term.placeholder ∉ Term.varRefsAll (a :: args) := by
      rw [Term.varRefsAll, List.mem_append, not_or]
      exact ⟨hvars.2, hargs⟩
    have ha := (Site.and_iff_of_ne_head Site.operand_ne_head).symm.trans
      (iha h .operand hvars.2 List.not_mem_nil)
    have hf := (and_congr_left' (forall_prop_of_true rfl)).symm.trans
      (ihf h (.head (a :: args)) hvars.1 hargs')
    rw [interpret, references, List.forall_mem_append, ← ha, place_args hat, ← List.map_cons, ← hf,
      and_assoc]
    cases hat with
    | head args =>
      rw [Target.accepts_head_app, Term.head, Term.args, List.append_assoc]
      exact and_congr_left' (forall_prop_of_true rfl)
    | operand | branch =>
      exact (Site.and_iff_of_ne_head (by simp)).trans (Target.accepts_app (by simp))
  | elim scrutinee m cases ihs ihm ihc =>
    rw [Term.varRefs, List.mem_append, List.mem_append, not_or, not_or] at hvars
    obtain ⟨⟨hvs, hvm⟩, hvc⟩ := hvars
    have hs := (Site.and_iff_of_ne_head Site.operand_ne_head).symm.trans
      (ihs h .operand hvs List.not_mem_nil)
    have hm := (Site.and_iff_of_ne_head Site.operand_ne_head).symm.trans
      (ihm h .operand hvm List.not_mem_nil)
    rw [interpret, references, List.forall_mem_append, List.forall_mem_append, ← hs, ← hm,
      forall_mem_referencesAll, Term.interpretAll_eq_map, ← h.constructorsOf_eq hvs, and_assoc]
    refine (and_iff_right fun _ => Target.guards_of_ne_var (by simp [Term.head]) _).trans
      (Target.accepts_elim.trans ?_)
    simp only [List.getElem?_map, Option.map_eq_some_iff, forall_exists_index, and_imp,
      forall_apply_eq_imp_iff₂]
    refine and_congr_right' (and_congr_right' (forall_congr' fun i => forall₂_congr fun c hc => ?_))
    have hmem := List.mem_of_getElem? hc
    refine (and_iff_right fun heq => ?_).symm.trans (ihc c hmem h (caseSite_at g σ _)
      (fun hp => hvc (Term.mem_varRefsAll.2 ⟨c, hmem, hp⟩)) List.not_mem_nil)
    generalize (g.constructorsOf s scrutinee)[i]? = constructor at heq
    cases constructor <;> cases heq

/-! ## Bodies -/

/-- The place of a body, given that of the structural parameter if it is still to come. -/
def bodyPlace : Option Nat → Place
  | some n => .parameters n
  | none => .operand

/-- The visit of a body meets no violation iff the references in its meaning are guarded. -/
theorem acceptsBody_iff {t : Term} {param : Option Nat} (h : Known g s σ binders)
    (hvars : Term.placeholder ∉ t.varRefs)
    (hparam : ∀ n, param = some n → Nameless.StructuralArgument g.table (t.interpret σ) n) :
    g.AcceptsBody s param t ↔
      ∀ r ∈ references g.table g.table.isNamedFamily binders (bodyPlace param) (t.interpret σ),
        r.Guarded g.index := by
  induction t generalizing s σ binders param with
  | lam x a b _ ihb =>
    rw [Term.varRefs, List.mem_append, not_or] at hvars
    have ha := (Site.and_iff_of_ne_head Site.operand_ne_head).symm.trans
      (h.accepts_iff .operand hvars.1 List.not_mem_nil)
    rw [Target.acceptsBody_lam, interpret, references, List.forall_mem_append, ha]
    refine and_congr_right' ?_
    cases param with
    | none => exact ihb (h.bind x) hvars.2 fun n hn => by cases hn
    | some n =>
      have hplace := hparam n rfl
      cases n with
      | zero =>
        cases hplace with
        | here hfamily =>
          rw [SymbolTable.headedByFamily_iff h.faithful] at hfamily
          cases hhead : a.headGlobal? with
          | none => simp [hhead] at hfamily
          | some family =>
            rw [bodyPlace, Place.binder, Term.headGlobal?_interpret h.faithful, hhead]
            simp only [Target.enterParam, Target.nextPlace, if_true, hhead]
            exact ihb (h.decreasing x family) hvars.2 fun n hn => by cases hn
      | succ n =>
        cases hplace with
        | there _ hb =>
          have hnext := @ihb _ _ _ (some n) (h.bind x) hvars.2 fun m hm => Option.some.inj hm ▸ hb
          simpa [Target.enterParam, Target.nextPlace, bodyPlace, Place.binder, Place.body]
            using hnext
  | _ =>
    cases param with
    | none =>
      rw [Target.acceptsBody_of_not_lam (by simp)]
      exact (Site.and_iff_of_ne_head Site.operand_ne_head).symm.trans
        (h.accepts_iff .operand hvars List.not_mem_nil)
    | some n =>
      have hindex := (SymbolTable.structuralArgument_iff h.faithful).1 (hparam n rfl)
      simp [SymbolTable.structuralIndex?, SymbolTable.structuralIndexOf, Term.lambdaChain]
        at hindex

theorem initial (options : Options) (table : SymbolTable) (self : String) (index : Nat) :
    Known ⟨options, table, self, index⟩ .initial (Naming.free.under self) [.fixpoint] := by
  refine ⟨Naming.faithful_free.under self, fun x _ => ?_, fun x _ => ?_, fun x _ => ?_⟩
  all_goals rw [roleOf_under]
  · by_cases hx : x = self <;> simp [hx, Scope.initial, roleOf, Naming.free]
  · refine iff_of_false List.not_mem_nil ?_
    split <;> simp [roleOf, Naming.free]
  · split <;> rfl

end Known
end Guard

open Guard in
/-- A fixpoint that refers to no variable with the name of the placeholder is accepted iff its
nameless form meets the guard condition. -/
theorem checkTermination_eq_ok_iff_condition {options : Options} {table : SymbolTable}
    {self : String} {body : Term} (hvars : Term.placeholder ∉ body.varRefs) :
    (checkTermination options table self body).outcome = .ok () ↔
      Condition table table.isNamedFamily (body.interpret (Naming.free.under self)) := by
  have hfaithful := Naming.faithful_free.under self
  rw [checkTermination_eq_ok_iff, Condition]
  refine exists_congr fun index => ?_
  rw [← SymbolTable.structuralArgument_iff hfaithful]
  refine and_congr_right fun hindex => ?_
  have hknown := Known.initial options table self index
  exact hknown.acceptsBody_iff hvars fun n hn => Option.some.inj hn ▸ hindex

open Guard in
/-- **The guard decides the guard condition.**  A fixpoint that refers to no variable with the name
of the placeholder is accepted iff it has a structural parameter, and each reference to it is the
head of an application whose argument in the position of that parameter is a variable bound to a
field, by a case of a match on the structural parameter or on such a variable of an inductive type
with a name that is not empty.  Renaming bound variables does not change the verdict. -/
theorem checkTermination_iff_condition (options : Options) (table : SymbolTable) :
    (∀ self body, Term.placeholder ∉ body.varRefs →
      ((checkTermination options table self body).outcome = .ok () ↔
        Condition table table.isNamedFamily (body.interpret (Naming.free.under self)))) ∧
    ∀ self self' body body', Term.placeholder ∉ body.varRefs → Term.placeholder ∉ body'.varRefs →
      (Term.fix self body).nameless = (Term.fix self' body').nameless →
      ((checkTermination options table self body).outcome = .ok () ↔
        (checkTermination options table self' body').outcome = .ok ()) := by
  refine ⟨fun self body => checkTermination_eq_ok_iff_condition, ?_⟩
  intro self self' body body' hvars hvars' hsame
  rw [checkTermination_eq_ok_iff_condition hvars, checkTermination_eq_ok_iff_condition hvars',
    Nameless.fix.inj hsame]

/-! ### Calls on the second predecessor -/

/-- Natural numbers, in an inductive type of the given name. -/
def naturals (nat : String) : SymbolTable :=
  ⟨{ Layer.empty with
      families := [(nat, ⟨.sort (.type 0), 0, ["Zero", "Succ"]⟩)]
      constructors := [("Zero", ⟨nat, .global nat⟩),
        ("Succ", ⟨nat, .arrow (.global nat) (.global nat)⟩)]
      order := [nat, "Zero", "Succ"] }, []⟩

/-- The body of a fixpoint that goes down in steps of two. -/
def everySecond (nat self : String) : Term :=
  let motive := Term.lam "_" (.global nat) (.global nat)
  .lam "n" (.global nat) (.elim (.var "n") motive [.global "Zero",
    .lam "k" (.global nat) (.elim (.var "k") motive [.global "Zero",
      .lam "j" (.global nat) (.app (.var self) (.var "j"))])])

/-- The guard accepts the fixpoint, under any name. -/
theorem checkTermination_iff_condition_everySecond :
    let table := naturals "Nat"
    let options : Options := ⟨10, false, false, false⟩
    Term.placeholder ∉ (everySecond "Nat" "f").varRefs ∧
      (checkTermination options table "f" (everySecond "Nat" "f")).outcome = .ok () ∧
      (checkTermination options table "g" (everySecond "Nat" "g")).outcome = .ok () ∧
      Guard.Condition table table.isNamedFamily
        ((everySecond "Nat" "f").interpret (Naming.free.under "f")) := by
  intro table options
  have hvars : Term.placeholder ∉ (everySecond "Nat" "f").varRefs := by decide
  have hvars' : Term.placeholder ∉ (everySecond "Nat" "g").varRefs := by decide
  have haccepts :
      (checkTermination options table "f" (everySecond "Nat" "f")).outcome = .ok () := by decide
  obtain ⟨hiff, hrename⟩ := checkTermination_iff_condition options table
  have hrenamed := hrename "f" "g" _ _ hvars hvars' rfl
  exact ⟨hvars, haccepts, hrenamed.1 haccepts, (hiff "f" _ hvars).1 haccepts⟩

/-- In an inductive type with the empty name, a field is not matched further: the fixpoint meets the
condition that has no exception for the empty name, and is rejected. -/
theorem not_checkTermination_everySecond_of_unnamed :
    let table := naturals ""
    let options : Options := ⟨10, false, false, false⟩
    Term.placeholder ∉ (everySecond "" "f").varRefs ∧
      Guard.Condition table table.isFamily
        ((everySecond "" "f").interpret (Naming.free.under "f")) ∧
      (checkTermination options table "f" (everySecond "" "f")).outcome ≠ .ok () := by
  intro table options
  have hhead : Nameless.HeadedByFamily table (.global "") := ⟨"", [], rfl, by decide⟩
  refine ⟨by decide, ⟨0, .here hhead, by decide⟩, by decide⟩

end ProofKernel
