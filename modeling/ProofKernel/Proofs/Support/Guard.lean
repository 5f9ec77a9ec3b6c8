import ProofKernel.Proofs.Nameless.Guard
import ProofKernel.Proofs.Support.Reduction

/-!
# The guard over tables that agree

A fixpoint is visited in the same way over two tables that agree on a set, if its body rests on the
set.

* `Guard.Scope.Over` says that what is known along the path mentions inductive types of the set
  only, so that the constructors that a match is on are the same.
* `SymbolTable.Shared.walk` is the visit of a term, `SymbolTable.Shared.checkTermination` that of a
  fixpoint.
-/

set_option autoImplicit false
namespace ProofKernel

open Guard

variable {S : Leaf → Prop} {table table' : SymbolTable} {t : Term}

/-! ## What is known along the path -/

namespace Guard

/-- The inductive types that variables are matched at belong to the set. -/
def Scope.Over (S : Leaf → Prop) (s : Scope) : Prop :=
  ∀ x family, s.matchers.get? x = some family → S (.global family)

/-- The inductive types of fields belong to the set. -/
def FieldsOver (S : Leaf → Prop) (fields : List (Option String)) : Prop :=
  ∀ family, some family ∈ fields → S (.global family)

/-- The inductive types of the fields that are bound next belong to the set. -/
def Site.Over (S : Leaf → Prop) : Site → Prop
  | .operand | .head => True
  | .branch fields => FieldsOver S fields

theorem Site.Over.operand : Site.operand.Over S := trivial

theorem Site.Over.head : Site.head.Over S := trivial

namespace Scope.Over

variable {s : Scope}

theorem initial : Scope.initial.Over S := nofun

theorem bind (h : s.Over S) (self name : String) : (s.bind self name).Over S := by
  intro x family hx
  rw [Scope.bind, NameMap.get?_erase] at hx
  split at hx
  · cases hx
  · exact h x family hx

theorem decreasing (h : s.Over S) (name : String) {family : String} (hf : S (.global family)) :
    (s.decreasing name family).Over S := by
  intro x other hx
  rw [Scope.decreasing, NameMap.get?_put] at hx
  split at hx
  · cases hx
    exact hf
  · exact h x other hx

theorem withSmaller (h : s.Over S) (name : String) {family : Option String}
    (hf : ∀ f, family = some f → S (.global f)) : (s.withSmaller name family).Over S := by
  cases family with
  | none => exact h
  | some f => exact h.decreasing name (hf f rfl)

theorem enter {g : Target} {site : Site} (h : s.Over S) (hsite : site.Over S) (name : String) :
    (g.enter s name site).1.Over S ∧ (g.enter s name site).2.Over S := by
  have hbind := h.bind g.self name
  cases site with
  | operand | head => exact ⟨hbind, trivial⟩
  | branch fields =>
    cases fields with
    | nil => exact ⟨hbind, trivial⟩
    | cons family rest =>
      rw [Target.enter]
      refine ⟨?_, fun f hf => hsite f (List.mem_cons_of_mem _ hf)⟩
      dsimp only
      split
      · exact hbind
      · refine hbind.withSmaller name ?_
        rintro f rfl
        exact hsite f List.mem_cons_self

end Scope.Over
end Guard

namespace SymbolTable.Shared

variable {options : Options} {self : String} {index : Nat} {s : Scope} {site : Site}

/-! ## Constructors and their fields -/

theorem fieldFamilies (h : Shared S table table') (options : Options) (self : String) (index : Nat)
    {name : String} (hname : S (.global name)) :
    Target.fieldFamilies ⟨options, table, self, index⟩ name =
        Target.fieldFamilies ⟨options, table', self, index⟩ name ∧
      FieldsOver S (Target.fieldFamilies ⟨options, table, self, index⟩ name) := by
  unfold Target.fieldFamilies
  dsimp only
  rw [← h.constructor? hname]
  cases hc : table.constructor? name with
  | none => exact ⟨rfl, nofun⟩
  | some c =>
    obtain ⟨htype, hfamily⟩ := (h.entries name hname).constructor c hc
    have hfields : ∀ p ∈ c.type.piChain.1, ∀ x, p.2.headGlobal? = some x → S (.global x) :=
      fun p hp x hx => (htype.piChain.1 p hp).headGlobal? hx
    dsimp only
    rw [← h.family? hfamily]
    cases table.family? c.family with
    | none => exact ⟨rfl, nofun⟩
    | some f =>
      constructor
      · refine List.map_congr_left fun p hp => ?_
        cases hx : p.2.headGlobal? with
        | none => rfl
        | some x =>
          have hS := hfields p (List.mem_of_mem_drop hp) x hx
          simp only [Option.filter_some, h.isFamily hS]
      · intro family hmem
        obtain ⟨p, hp, hx⟩ := List.mem_map.1 hmem
        exact hfields p (List.mem_of_mem_drop hp) family (Option.mem_filter_iff.1 hx).1

theorem constructorsOf (h : Shared S table table') (options : Options) (self : String)
    (index : Nat) (hs : s.Over S) (scrutinee : Term) :
    Target.constructorsOf ⟨options, table, self, index⟩ s scrutinee =
        Target.constructorsOf ⟨options, table', self, index⟩ s scrutinee ∧
      ∀ c ∈ Target.constructorsOf ⟨options, table, self, index⟩ s scrutinee, S (.global c) := by
  unfold Target.constructorsOf
  split
  · next x =>
    cases hx : s.matchers.get? x with
    | none => exact ⟨rfl, nofun⟩
    | some family =>
      have hS := hs x family hx
      dsimp only
      rw [← h.family? hS]
      refine ⟨rfl, ?_⟩
      cases hf : table.family? family with
      | none => exact nofun
      | some f => exact ((h.entries family hS).family f hf).2
  · exact ⟨rfl, nofun⟩

/-! ## The visit -/

theorem walkCases (h : Shared S table table') {cases : List Term} {constructors : List String}
    (hconstructors : ∀ c ∈ constructors, S (.global c))
    (ih : ∀ c ∈ cases, ∀ site : Site, site.Over S →
      Target.walk ⟨options, table, self, index⟩ s site c =
        Target.walk ⟨options, table', self, index⟩ s site c) :
    Target.walkCases ⟨options, table, self, index⟩ s constructors cases =
      Target.walkCases ⟨options, table', self, index⟩ s constructors cases := by
  induction cases generalizing constructors with
  | nil => rfl
  | cons c rest ihrest =>
    rw [List.forall_mem_cons] at ih
    cases constructors with
    | nil =>
      rw [Target.walkCases, Target.walkCases, ih.1 .operand .operand]
      simp only [List.tail_nil, ihrest hconstructors ih.2]
    | cons name names =>
      rw [List.forall_mem_cons] at hconstructors
      obtain ⟨heq, hfields⟩ := h.fieldFamilies options self index hconstructors.1
      rw [Target.walkCases, Target.walkCases, ← heq, ih.1 (.branch _) hfields]
      simp only [List.tail_cons, ihrest hconstructors.2 ih.2]

/-- **Both tables visit a term in the same way.** -/
theorem walk (h : Shared S table table') (hs : s.Over S) (hsite : site.Over S) (ht : t.Over S) :
    Target.walk ⟨options, table, self, index⟩ s site t =
      Target.walk ⟨options, table', self, index⟩ s site t := by
  induction t generalizing s site with
  | sort | global | lit | hole | var => rfl
  | pi x a b iha ihb =>
    obtain ⟨ha, hb⟩ := Term.over_pi.1 ht
    rw [Target.walk, Target.walk, iha hs .operand ha, ihb (hs.bind self x) .operand hb]
  | lam x a b iha ihb =>
    obtain ⟨ha, hb⟩ := Term.over_lam.1 ht
    obtain ⟨hs', hsite'⟩ := hs.enter (g := ⟨options, table, self, index⟩) hsite x
    rw [Target.walk, Target.walk, iha hs .operand ha]
    refine congrArg _ (funext fun _ => ?_)
    exact ihb hs' hsite' hb
  | fix x b ihb =>
    rw [Target.walk, Target.walk]
    exact ihb (hs.bind self x) .operand (Term.over_fix.1 ht)
  | app f a ihf iha =>
    obtain ⟨hf, ha⟩ := Term.over_app.1 ht
    have hparts : (do
        Target.walk ⟨options, table, self, index⟩ s .head f
        Target.walk ⟨options, table, self, index⟩ s .operand a) = (do
        Target.walk ⟨options, table', self, index⟩ s .head f
        Target.walk ⟨options, table', self, index⟩ s .operand a) := by
      rw [ihf hs .head hf, iha hs .operand ha]
    cases site with
    | head => exact hparts
    | _ =>
      refine congrArg (Target.checkCall ⟨options, table, self, index⟩ s (.app f a) >>= ·) ?_
      exact funext fun _ => hparts
  | elim scrutinee m cases ihs ihm ihc =>
    obtain ⟨hscrutinee, hm, hc⟩ := Term.over_elim.1 ht
    obtain ⟨heq, hconstructors⟩ := h.constructorsOf options self index hs scrutinee
    rw [Target.walk, Target.walk, ihs hs .operand hscrutinee, ihm hs .operand hm, ← heq,
      h.walkCases hconstructors fun c hmem _ hsite => ihc c hmem hs hsite (hc c hmem)]

/-! ## Whole fixpoints -/

/-- The parameters of a fixpoint are entered in the same way.  The structural one is headed by an
inductive type, which belongs to the set. -/
theorem enterParams (h : Shared S table table') {binders : Telescope} {place : Option Nat}
    (hs : s.Over S) (hbinders : ∀ p ∈ binders, p.2.Over S)
    (hplace : place = none ∨ place = table.structuralIndexOf binders) :
    Verdict.Same (Scope.Over S) (Target.enterParams ⟨options, table, self, index⟩ s place binders)
      (Target.enterParams ⟨options, table', self, index⟩ s place binders) := by
  induction binders generalizing s place with
  | nil => exact .pure hs
  | cons p rest ih =>
    obtain ⟨x, type⟩ := p
    rw [List.forall_mem_cons] at hbinders
    rw [Target.enterParams, Target.enterParams, h.walk hs .operand hbinders.1]
    refine (Verdict.Same.refl _).bind fun _ _ => ?_
    dsimp only
    -- the position is that of a binder of this list or of the rest of it
    have hindex : table.structuralIndexOf ((x, type) :: rest) =
        if (type.headGlobal?.map table.isFamily).getD false = true then some 0
        else (table.structuralIndexOf rest).map (· + 1) := by
      rw [SymbolTable.structuralIndexOf, SymbolTable.structuralIndexOf, List.findIdx?_cons]
    by_cases hzero : place = some 0
    · rw [if_pos hzero, if_pos hzero]
      refine Verdict.Same.note_bind (ih ((hs.bind self x).decreasing x ?_) hbinders.2 (.inl rfl))
      rw [hzero, hindex, or_iff_right (by simp)] at hplace
      cases hhead : type.headGlobal? with
      | none => cases hrest : table.structuralIndexOf rest <;> simp [hhead, hrest] at hplace
      | some family => exact hbinders.1.headGlobal? hhead
    · rw [if_neg hzero, if_neg hzero]
      refine ih (hs.bind self x) hbinders.2 ?_
      rcases hplace with rfl | rfl
      · exact .inl rfl
      · right
        rw [hindex] at hzero ⊢
        split at hzero
        · exact absurd rfl hzero
        · next hhead =>
          rw [if_neg hhead, Option.map_map]
          simp [Function.comp_def]

/-- **Both tables accept the same fixpoints.** -/
theorem checkTermination (h : Shared S table table') (ht : t.Over S) :
    ProofKernel.checkTermination options table self t =
      ProofKernel.checkTermination options table' self t := by
  unfold ProofKernel.checkTermination
  rw [← h.structuralIndex? ht]
  cases hindex : table.structuralIndex? t with
  | none => rfl
  | some index =>
    obtain ⟨hbinders, hrest⟩ := ht.lambdaChain
    refine ((h.enterParams Scope.Over.initial hbinders (.inr hindex.symm)).bind
      (Q := fun _ => True) fun s hs => ?_).eq
    rw [h.walk hs .operand hrest]
    exact .refl _

end SymbolTable.Shared
end ProofKernel
