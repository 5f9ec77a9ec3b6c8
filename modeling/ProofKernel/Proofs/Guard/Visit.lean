import ProofKernel.Guard
import ProofKernel.Proofs.Verdict

/-!
# The visit of a fixpoint, node by node

The guard visits the body of a fixpoint and stops at the first violation.  Here is what it means
that there is none, one node at a time, so that no other proof opens the visit.

* `Guard.Target.Accepts` is a visit of a term without violations, `Guard.Target.AcceptsBody` one of
  a body under its leading functions.
* `Guard.Target.Guards` is the condition on one application: if it is a call of the fixpoint, then
  its structural argument is a smaller variable.
* `checkTermination_eq_ok_iff` is the whole check.
-/

set_option autoImplicit false
namespace ProofKernel
namespace Guard

/-- The site of the body of a function. -/
def Site.inner : Site → Site
  | branch (_ :: rest) => branch rest
  | operand | head | branch [] => operand

theorem Site.inner_ne_head (site : Site) : site.inner ≠ head := by
  unfold inner
  split <;> exact nofun

namespace Target

variable {g : Target} {s : Scope} {site : Site}

/-! ## Calls -/

/-- A head applied to arguments passes a smaller variable in structural position, if it is the
fixpoint. -/
def Guards (g : Target) (s : Scope) (head : Term) (args : List Term) : Prop :=
  s.active = true → head = .var g.self → ∃ x, args[g.index]? = some (.var x) ∧ x ∈ s.smaller

theorem checkCall_eq_ok_iff {t : Term} :
    (g.checkCall s t).outcome = .ok () ↔ g.Guards s t.head t.args := by
  have hcall : (s.active && t.head == .var g.self) = true ↔
      s.active = true ∧ t.head = .var g.self := by
    rw [Bool.and_eq_true, beq_iff_eq]
  unfold checkCall Guards
  split
  · next h =>
    obtain ⟨hactive, hself⟩ := hcall.1 h
    simp only [hactive, hself, forall_const]
    cases t.args[g.index]? with
    | none => simp [violation, Verdict.reject]
    | some arg =>
      cases arg with
      | var x => by_cases hx : x ∈ s.smaller <;> simp [hx, violation, Verdict.reject, Verdict.note]
      | _ => simp [violation, Verdict.reject]
  · next h =>
    exact iff_of_true rfl fun hactive hself => absurd (hcall.2 ⟨hactive, hself⟩) h

/-! ## Terms -/

/-- The visit of a term meets no violation. -/
def Accepts (g : Target) (s : Scope) (site : Site) (t : Term) : Prop :=
  (g.walk s site t).outcome = .ok ()

/-- The scope inside a function. -/
def inside (g : Target) (s : Scope) (name : String) (site : Site) : Scope :=
  (g.enter s name site).1

/-- The site of a case, given the constructor it belongs to if the match is on a decreasing
variable. -/
def caseSite (g : Target) : Option String → Site
  | none => .operand
  | some constructor => .branch (g.fieldFamilies constructor)

@[simp] theorem accepts_sort (u : Universe) : g.Accepts s site (.sort u) := rfl

@[simp] theorem accepts_global (x : String) : g.Accepts s site (.global x) := rfl

@[simp] theorem accepts_lit (l : Literal) : g.Accepts s site (.lit l) := rfl

@[simp] theorem accepts_hole : g.Accepts s site .hole := rfl

theorem accepts_var {x : String} :
    g.Accepts s site (.var x) ↔ site = .head ∨ ¬(s.active = true ∧ x = g.self) := by
  have hrefers : (s.active && x == g.self) = true ↔ s.active = true ∧ x = g.self := by
    rw [Bool.and_eq_true, beq_iff_eq]
  have hother : (if s.active && x == g.self then
        (g.violation (g.self ++ " is used without being applied to its structural argument") :
          Verdict Unit)
      else return ()).outcome = .ok () ↔ ¬(s.active = true ∧ x = g.self) := by
    rw [← hrefers]
    split
    · next h => exact iff_of_false nofun fun hn => hn h
    · next h => exact iff_of_true rfl h
  cases site with
  | head => exact iff_of_true rfl (.inl rfl)
  | operand | branch => simpa [Accepts, walk] using hother

theorem accepts_pi {x : String} {a b : Term} :
    g.Accepts s site (.pi x a b) ↔
      g.Accepts s .operand a ∧ g.Accepts (g.inside s x .operand) .operand b := by
  rw [Accepts, walk, Verdict.seq_eq_ok_iff]
  rfl

theorem accepts_lam {x : String} {a b : Term} :
    g.Accepts s site (.lam x a b) ↔
      g.Accepts s .operand a ∧ g.Accepts (g.inside s x site) site.inner b := by
  have hinner : (g.enter s x site).2 = site.inner := by
    cases site with
    | operand | head => rfl
    | branch fields => cases fields <;> rfl
  rw [Accepts, walk, Verdict.seq_eq_ok_iff, ← hinner]
  rfl

theorem accepts_fix {x : String} {b : Term} :
    g.Accepts s site (.fix x b) ↔ g.Accepts (g.inside s x .operand) .operand b := Iff.rfl

theorem accepts_head_app {f a : Term} :
    g.Accepts s .head (.app f a) ↔ g.Accepts s .head f ∧ g.Accepts s .operand a := by
  have hwalk : g.walk s .head (.app f a) =
      (g.walk s .head f >>= fun _ => g.walk s .operand a) := rfl
  rw [Accepts, hwalk, Verdict.seq_eq_ok_iff]
  rfl

theorem accepts_app (hsite : site ≠ .head) {f a : Term} :
    g.Accepts s site (.app f a) ↔
      g.Guards s f.head (f.args ++ [a]) ∧ g.Accepts s .head f ∧ g.Accepts s .operand a := by
  have hwalk : g.walk s site (.app f a) = (g.checkCall s (.app f a) >>= fun _ =>
      g.walk s .head f >>= fun _ => g.walk s .operand a) := by
    cases site with
    | head => exact absurd rfl hsite
    | operand | branch => rfl
  rw [Accepts, hwalk, Verdict.seq_eq_ok_iff, Verdict.seq_eq_ok_iff, checkCall_eq_ok_iff]
  rfl

theorem walkCases_eq_ok_iff {constructors : List String} {cases : List Term} :
    (g.walkCases s constructors cases).outcome = .ok () ↔
      ∀ (i : Nat) c, cases[i]? = some c → g.Accepts s (g.caseSite constructors[i]?) c := by
  induction cases generalizing constructors with
  | nil => exact iff_of_true rfl nofun
  | cons c rest ih =>
    have hcons : (g.walkCases s constructors (c :: rest)).outcome = .ok () ↔
        g.Accepts s (g.caseSite constructors[0]?) c ∧
          (g.walkCases s constructors.tail rest).outcome = .ok () := by
      cases constructors <;> rw [walkCases, Verdict.seq_eq_ok_iff] <;> rfl
    rw [hcons, ih]
    refine Iff.trans ?_ Nat.and_forall_add_one
    simp [List.getElem?_tail]

theorem accepts_elim {scrutinee motive : Term} {cases : List Term} :
    g.Accepts s site (.elim scrutinee motive cases) ↔
      g.Accepts s .operand scrutinee ∧ g.Accepts s .operand motive ∧
        ∀ (i : Nat) c, cases[i]? = some c →
          g.Accepts s (g.caseSite (g.constructorsOf s scrutinee)[i]?) c := by
  rw [Accepts, walk, Verdict.seq_eq_ok_iff, Verdict.seq_eq_ok_iff, walkCases_eq_ok_iff]
  rfl

/-! ## Bodies -/

/-- The visit of a body under its leading functions meets no violation.  The function at `place`
zero takes the structural parameter. -/
def AcceptsBody (g : Target) (s : Scope) (place : Option Nat) (t : Term) : Prop :=
  (g.enterParams s place t.lambdaChain.1 >>= fun s =>
    g.walk s .operand t.lambdaChain.2).outcome = .ok ()

/-- The scope inside a leading function. -/
def enterParam (g : Target) (s : Scope) (place : Option Nat) (x : String) (type : Term) : Scope :=
  if place = some 0 then (s.bind g.self x).decreasing x (type.headGlobal?.getD "")
  else s.bind g.self x

/-- The place of the body of a leading function. -/
def nextPlace (place : Option Nat) : Option Nat :=
  if place = some 0 then none else place.map (· - 1)

theorem acceptsBody_lam {place : Option Nat} {x : String} {a b : Term} :
    g.AcceptsBody s place (.lam x a b) ↔
      g.Accepts s .operand a ∧ g.AcceptsBody (g.enterParam s place x a) (nextPlace place) b := by
  have hparams : ∀ s', (g.enterParams s place ((x, a) :: b.lambdaChain.1)).outcome = .ok s' ↔
      g.Accepts s .operand a ∧
        (g.enterParams (g.enterParam s place x a) (nextPlace place) b.lambdaChain.1).outcome =
          .ok s' := by
    intro s'
    rw [enterParams, Verdict.seq_eq_ok_iff, enterParam, nextPlace]
    refine and_congr_right fun _ => ?_
    by_cases hplace : place = some 0
    · rw [if_pos hplace, if_pos hplace, if_pos hplace, Verdict.seq_eq_ok_iff]
      exact and_iff_right rfl
    · rw [if_neg hplace, if_neg hplace, if_neg hplace]
  simp only [AcceptsBody, Term.lambdaChain, Verdict.bind_eq_ok_iff, hparams, and_assoc,
    exists_and_left]

theorem acceptsBody_of_not_lam {place : Option Nat} {t : Term} (h : ∀ x a b, t ≠ .lam x a b) :
    g.AcceptsBody s place t ↔ g.Accepts s .operand t := by
  cases t with
  | lam x a b => exact absurd rfl (h x a b)
  | _ => exact Iff.rfl

end Target
end Guard

open Guard in
/-- A fixpoint is accepted when there is a structural parameter and the visit of the body meets no
violation. -/
theorem checkTermination_eq_ok_iff {options : Options} {table : SymbolTable} {self : String}
    {body : Term} :
    (checkTermination options table self body).outcome = .ok () ↔
      ∃ index, table.structuralIndex? body = some index ∧
        Target.AcceptsBody ⟨options, table, self, index⟩ .initial (some index) body := by
  unfold checkTermination
  cases table.structuralIndex? body with
  | none => simp [Verdict.reject]
  | some index => simp [Target.AcceptsBody]

end ProofKernel
