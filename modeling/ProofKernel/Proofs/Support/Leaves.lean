import ProofKernel.Typing
import ProofKernel.Declaration.Staging
import ProofKernel.Proofs.Substitution

/-!
# What a term rests on

The globals of a term and its holes are the places where its meaning comes from outside.  Nothing
that the kernel does to terms brings in others than those of the terms it works on.

* `Term.leaves` lists them, and `Term.Over` says that all of them belong to a set.
* `Term.Over.substitute`, `Term.Over.betaReduce`, `Term.Over.caseType` and their siblings follow the
  operations on terms one by one.
-/

set_option autoImplicit false
namespace ProofKernel

/-- A place of a term whose meaning comes from outside. -/
inductive Leaf where
  | global (name : String)
  | hole
deriving DecidableEq

namespace Term

mutual

/-- The globals and the holes of a term, each as often as it occurs. -/
def leaves : Term → List Leaf
  | sort _ | var _ | lit _ => []
  | global x => [.global x]
  | hole => [.hole]
  | pi _ a b | lam _ a b | app a b => a.leaves ++ b.leaves
  | elim s m cases => s.leaves ++ m.leaves ++ leavesAll cases
  | fix _ b => b.leaves

/-- The globals and the holes of a list of terms. -/
def leavesAll : List Term → List Leaf
  | [] => []
  | t :: rest => t.leaves ++ leavesAll rest

end

/-- All globals and holes of a term belong to a set. -/
def Over (S : Leaf → Prop) (t : Term) : Prop :=
  ∀ l ∈ t.leaves, S l

variable {S S' : Leaf → Prop} {t u : Term}

theorem Over.mono (h : t.Over S) (hS : ∀ l, S l → S' l) : t.Over S' :=
  fun l hl => hS l (h l hl)

/-! ## Node by node -/

section

attribute [local simp] leaves leavesAll

theorem mem_leavesAll {l : Leaf} {ts : List Term} : l ∈ leavesAll ts ↔ ∃ t ∈ ts, l ∈ t.leaves := by
  induction ts with
  | nil => simp
  | cons t ts ih => simp [ih]

@[simp] theorem over_sort (u : Universe) : (sort u).Over S := nofun

@[simp] theorem over_var (x : String) : (var x).Over S := nofun

@[simp] theorem over_lit (v : Literal) : (lit v).Over S := nofun

@[simp] theorem over_global {x : String} : (global x).Over S ↔ S (.global x) := by
  simp [Over]

@[simp] theorem over_hole : hole.Over S ↔ S .hole := by
  simp [Over]

end

@[simp] theorem over_pi {x : String} {a b : Term} : (pi x a b).Over S ↔ a.Over S ∧ b.Over S :=
  List.forall_mem_append

@[simp] theorem over_lam {x : String} {a b : Term} : (lam x a b).Over S ↔ a.Over S ∧ b.Over S :=
  List.forall_mem_append

@[simp] theorem over_app {f a : Term} : (app f a).Over S ↔ f.Over S ∧ a.Over S :=
  List.forall_mem_append

@[simp] theorem over_fix {x : String} {b : Term} : (fix x b).Over S ↔ b.Over S := Iff.rfl

@[simp] theorem over_elim {s m : Term} {cases : List Term} :
    (elim s m cases).Over S ↔ s.Over S ∧ m.Over S ∧ ∀ c ∈ cases, c.Over S := by
  have hcases : (∀ l ∈ leavesAll cases, S l) ↔ ∀ c ∈ cases, c.Over S := by
    constructor
    · intro h c hc l hl
      exact h l (mem_leavesAll.2 ⟨c, hc, hl⟩)
    · intro h l hl
      obtain ⟨c, hc, hl⟩ := mem_leavesAll.1 hl
      exact h c hc l hl
  unfold Over at hcases ⊢
  rw [leaves, List.forall_mem_append, List.forall_mem_append, hcases, and_assoc]

theorem mem_globalRefsAll {x : String} {ts : List Term} :
    x ∈ globalRefsAll ts ↔ ∃ t ∈ ts, x ∈ t.globalRefs := by
  induction ts with
  | nil => simp [globalRefsAll]
  | cons t ts ih => simp [globalRefsAll, ih]

/-- The globals among the leaves of a term are those it refers to. -/
theorem global_mem_leaves {x : String} : .global x ∈ t.leaves ↔ x ∈ t.globalRefs := by
  induction t with
  | sort | var | lit | hole => simp [leaves, globalRefs]
  | global y => simp [leaves, globalRefs]
  | pi y a b iha ihb | lam y a b iha ihb | app a b iha ihb =>
    rw [leaves, globalRefs, List.mem_append, List.mem_append, iha, ihb]
  | fix y b ihb => exact ihb
  | elim s m cases ihs ihm ihc =>
    rw [leaves, globalRefs, List.mem_append, List.mem_append, List.mem_append, List.mem_append,
      ihs, ihm, mem_leavesAll, mem_globalRefsAll]
    exact or_congr_right (exists_congr fun c => and_congr_right fun hc => ihc c hc)

/-! ## Taking apart and putting together -/

theorem over_apps {args : List Term} :
    (t.apps args).Over S ↔ t.Over S ∧ ∀ a ∈ args, a.Over S := by
  induction args generalizing t with
  | nil => simp [apps]
  | cons a rest ih =>
    have hrest : ((app t a).apps rest).Over S ↔ _ := ih
    rw [List.forall_mem_cons, ← and_assoc, ← over_app]
    exact hrest

theorem Over.spine (h : t.Over S) : t.head.Over S ∧ ∀ a ∈ t.args, a.Over S := by
  rw [← over_apps, apps_spine]
  exact h

/-- A global at the head of a term is one of its leaves. -/
theorem Over.headGlobal? {x : String} (h : t.Over S) (hx : t.headGlobal? = some x) :
    S (.global x) := by
  unfold Term.headGlobal? at hx
  split at hx
  · next y hy =>
    cases hx
    have := h.spine.1
    rwa [hy, over_global] at this
  · cases hx

theorem over_pis {binders : List (String × Term)} :
    (pis binders t).Over S ↔ (∀ p ∈ binders, p.2.Over S) ∧ t.Over S := by
  induction binders with
  | nil => simp [pis]
  | cons p rest ih =>
    rw [List.forall_mem_cons, and_assoc, ← ih]
    exact over_pi

theorem mem_leaves_pis {binders : List (String × Term)} {l : Leaf} :
    l ∈ (pis binders t).leaves ↔ (∃ p ∈ binders, l ∈ p.2.leaves) ∨ l ∈ t.leaves := by
  have h := @over_pis (· ≠ l) t binders
  unfold Over at h
  grind

theorem Over.piChain (h : t.Over S) : (∀ p ∈ t.piChain.1, p.2.Over S) ∧ t.piChain.2.Over S := by
  rw [← over_pis, pis_piChain]
  exact h

theorem Over.lambdaChain (h : t.Over S) :
    (∀ p ∈ t.lambdaChain.1, p.2.Over S) ∧ t.lambdaChain.2.Over S := by
  induction t with
  | lam x a b _ ihb =>
    obtain ⟨ha, hb⟩ := over_lam.1 h
    exact ⟨List.forall_mem_cons.2 ⟨ha, (ihb hb).1⟩, (ihb hb).2⟩
  | _ => exact ⟨nofun, h⟩

/-! ## Substitution -/

/-- The body of a binder stays over a set, if both terms are over it. -/
theorem Over.substituteBody {y x : String} {b r : Term}
    (ih : ∀ (t : Term) (x : String) (r : Term), t.size = b.size → t.Over S → r.Over S →
      (t.substitute x r).Over S) (hb : b.Over S) (hr : r.Over S) :
    (Term.substituteBody y b x r).2.Over S := by
  unfold Term.substituteBody
  split
  · exact hb
  split
  · refine ih _ x r ?_ (ih b y _ rfl hb (over_var _)) hr
    exact size_substituteWithin_var ..
  · exact ih b x r rfl hb hr

/-- **Substitution brings no new leaves** but those of the replacement. -/
theorem Over.substitute (ht : t.Over S) (x : String) {r : Term} (hr : r.Over S) :
    (t.substitute x r).Over S := by
  induction hn : t.size using Nat.strongRecOn generalizing t x r with
  | ind n ih =>
    subst hn
    have hbody : ∀ (y : String) (b : Term), b.size < t.size → b.Over S →
        (Term.substituteBody y b x r).2.Over S := by
      intro y b hlt hb
      exact Over.substituteBody (fun u z v hu ho hv => ih u.size (by omega) ho z hv rfl) hb hr
    cases t with
    | sort | global | lit | hole => exact ht
    | var y =>
      rw [substitute_var]
      split
      · exact hr
      · exact ht
    | pi y a b =>
      obtain ⟨ha, hb⟩ := over_pi.1 ht
      rw [substitute_pi, over_pi]
      exact ⟨ih a.size (by simp only [size]; omega) ha x hr rfl,
        hbody y b (by simp only [size]; omega) hb⟩
    | lam y a b =>
      obtain ⟨ha, hb⟩ := over_lam.1 ht
      rw [substitute_lam, over_lam]
      exact ⟨ih a.size (by simp only [size]; omega) ha x hr rfl,
        hbody y b (by simp only [size]; omega) hb⟩
    | fix y b =>
      rw [substitute_fix, over_fix]
      exact hbody y b (by simp only [size]; omega) ht
    | app f a =>
      obtain ⟨hf, ha⟩ := over_app.1 ht
      rw [substitute_app, over_app]
      exact ⟨ih f.size (by simp only [size]; omega) hf x hr rfl,
        ih a.size (by simp only [size]; omega) ha x hr rfl⟩
    | elim s m cases =>
      obtain ⟨hs, hm, hc⟩ := over_elim.1 ht
      rw [substitute_elim, over_elim, List.forall_mem_map]
      refine ⟨ih s.size (by simp only [size]; omega) hs x hr rfl,
        ih m.size (by simp only [size]; omega) hm x hr rfl, fun c hmem => ?_⟩
      have := size_le_sizes hmem
      exact ih c.size (by simp only [size]; omega) (hc c hmem) x hr rfl

theorem Over.rename (h : t.Over S) (x y : String) : (t.rename x y).Over S := by
  unfold Term.rename
  split
  · exact h
  · exact h.substitute x (over_var y)

theorem Over.applyAll {args : List Term} (h : t.Over S) (ha : ∀ a ∈ args, a.Over S) :
    (t.applyAll args).Over S := by
  fun_induction Term.applyAll t args with
  | case1 x d b a rest ih =>
    rw [List.forall_mem_cons] at ha
    exact ih ((over_lam.1 h).2.substitute x ha.1) ha.2
  | case2 t args => exact over_apps.2 ⟨h, ha⟩

theorem Over.betaReduce (h : t.Over S) : t.betaReduce.Over S :=
  h.spine.1.applyAll h.spine.2

/-! ## Cases -/

theorem Over.instantiate {args : List Term} (h : t.Over S) (ha : ∀ a ∈ args, a.Over S) :
    (t.instantiate args).Over S := by
  fun_induction Term.instantiate t args with
  | case1 x d b a rest ih =>
    rw [List.forall_mem_cons] at ha
    exact ih ((over_pi.1 h).2.substitute x ha.1) ha.2
  | case2 t args => exact h

theorem Over.openFields {n count : Nat} {taken : List String} (h : t.Over S) :
    ∀ p ∈ t.openFields n count taken, p.2.Over S := by
  fun_induction Term.openFields n t count taken with
  | case1 n x a b count taken name ih =>
    obtain ⟨ha, hb⟩ := over_pi.1 h
    exact List.forall_mem_cons.2 ⟨ha, ih (hb.substitute x (over_var name))⟩
  | case2 => exact nofun

/-- The type of a case is over what its motive, its constructor and its parameters are over. -/
theorem Over.caseType {motive : Term} {name : String} {constructor : Constructor}
    {params : List Term} (hm : motive.Over S) (hname : S (.global name))
    (hc : constructor.type.Over S) (hp : ∀ p ∈ params, p.Over S) :
    (ProofKernel.caseType motive name constructor params).Over S := by
  unfold ProofKernel.caseType
  dsimp only
  refine over_pis.2 ⟨(hc.instantiate hp).openFields, Over.betaReduce (over_app.2 ⟨hm, ?_⟩)⟩
  refine over_apps.2 ⟨over_apps.2 ⟨over_global.2 hname, hp⟩, fun a ha => ?_⟩
  obtain ⟨p, _, rfl⟩ := List.mem_map.1 ha
  exact over_var p.1

/-! ## Parameters of inductive types -/

theorem bindParamsAll_eq_map (params : List String) (ts : List Term) :
    bindParamsAll params ts = ts.map (bindParams params) := by
  induction ts with
  | nil => rfl
  | cons t ts ih => rw [bindParamsAll, ih, List.map_cons]

/-- Reading globals as parameters leaves the other leaves. -/
theorem mem_leaves_bindParams {params : List String} {l : Leaf} :
    l ∈ (t.bindParams params).leaves ↔ l ∈ t.leaves ∧ ∀ x ∈ params, l ≠ .global x := by
  induction t with
  | sort | var | lit => simp [bindParams, leaves]
  | hole => simp +contextual [bindParams, leaves]
  | global x =>
    rw [bindParams]
    split <;> simp only [leaves, List.not_mem_nil, List.mem_singleton] <;> grind
  | pi y a b iha ihb | lam y a b iha ihb | app a b iha ihb =>
    rw [bindParams, leaves, leaves, List.mem_append, List.mem_append, iha, ihb, or_and_right]
  | fix y b ihb => exact ihb
  | elim s m cases ihs ihm ihc =>
    rw [bindParams, leaves, leaves, List.mem_append, List.mem_append, List.mem_append,
      List.mem_append, ihs, ihm, or_and_right, or_and_right, bindParamsAll_eq_map, mem_leavesAll,
      mem_leavesAll]
    refine or_congr_right ?_
    constructor
    · rintro ⟨_, hmap, hl⟩
      obtain ⟨c, hc, rfl⟩ := List.mem_map.1 hmap
      exact ⟨⟨c, hc, ((ihc c hc).1 hl).1⟩, ((ihc c hc).1 hl).2⟩
    · rintro ⟨⟨c, hc, hl⟩, hparams⟩
      exact ⟨_, List.mem_map_of_mem hc, (ihc c hc).2 ⟨hl, hparams⟩⟩

end Term
end ProofKernel
