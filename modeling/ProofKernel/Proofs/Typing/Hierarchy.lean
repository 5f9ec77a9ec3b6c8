import ProofKernel.Proofs.Nameless.Subtyping
import ProofKernel.Proofs.Script.RoundTrip
import ProofKernel.Proofs.Script.Scoping

/-!
# The hierarchy of universes

A sort lives in the next universe.  Levels are 64-bit words, so behind the greatest one comes the
least: the universe of `Type9223372036854775807` is below it.

* `Universe.Written` are the universes of the sorts that can be written: `Prop`, and those with a
  level that is not negative (`Universe.written_iff`).
* `Universe.Arises` are the universes that come up when types are inferred for sorts and products.
  A call of inference raises the level by one at most, as long as there is a next one
  (`Universe.Arises.level_le`), and each call on a sort does (`Universe.Arises.climb`).
* `Universe.ascends_iff`: the universe that is inferred for a sort is strictly above it, unless the
  level of the sort is the greatest.
* `hierarchy_strict_iff`: so the hierarchy is strict for as many calls as there are levels left.
-/

set_option autoImplicit false
namespace ProofKernel

/-! ## Sorts in a term -/

namespace Term

mutual

/-- The universes of the sorts in a term, each as often as it occurs. -/
def universes : Term → List Universe
  | sort u => [u]
  | var _ | global _ | lit _ | hole => []
  | pi _ a b | lam _ a b | app a b => a.universes ++ b.universes
  | elim s m cases => s.universes ++ m.universes ++ universesAll cases
  | fix _ b => b.universes

/-- The universes of the sorts in a list of terms. -/
def universesAll : List Term → List Universe
  | [] => []
  | t :: rest => t.universes ++ universesAll rest

end

theorem mem_universesAll {u : Universe} {ts : List Term} :
    u ∈ universesAll ts ↔ ∃ t ∈ ts, u ∈ t.universes := by
  induction ts with
  | nil => simp [universesAll]
  | cons t ts ih => simp [universesAll, ih]

/-- No sort in a term has a negative level. -/
def LegibleSorts (t : Term) : Prop :=
  ∀ u ∈ t.universes, u.legible = true

namespace LegibleSorts

open Grammar (Quantifier)

variable {t a b s m : Term} {cases : List Term}

theorem append (ha : a.LegibleSorts) (hb : b.LegibleSorts) :
    ∀ u ∈ a.universes ++ b.universes, u.legible = true :=
  List.forall_mem_append.2 ⟨ha, hb⟩

theorem elim (hs : s.LegibleSorts) (hm : m.LegibleSorts) (hcases : ∀ c ∈ cases, c.LegibleSorts) :
    (Term.elim s m cases).LegibleSorts := by
  refine List.forall_mem_append.2 ⟨hs.append hm, fun u hu => ?_⟩
  obtain ⟨c, hc, hu⟩ := mem_universesAll.1 hu
  exact hcases c hc u hu

theorem close {q : Quantifier} {binders : Telescope} (hbinders : ∀ p ∈ binders, p.2.LegibleSorts)
    (ht : t.LegibleSorts) : (q.close binders t).LegibleSorts := by
  induction binders with
  | nil => cases q <;> exact ht
  | cons p rest ih =>
    obtain ⟨hp, hrest⟩ := List.forall_mem_cons.1 hbinders
    cases q <;> exact hp.append (ih hrest)

end LegibleSorts
end Term

/-! ## Sorts that can be written -/

namespace Grammar

theorem legibleSorts_level {level : Int64} (h : 0 ≤ level) :
    (Term.sort (.type level)).LegibleSorts :=
  List.forall_mem_singleton.2 (decide_eq_true h)

theorem legibleSorts_constant {w : Word} {t : Term} (h : constant? w = some t) :
    t.LegibleSorts := by
  obtain ⟨_, rfl⟩ | rfl | rfl | ⟨_, hlevel, rfl⟩ := constant?_cases h
  · exact nofun
  · exact nofun
  · exact List.forall_mem_singleton.2 rfl
  · exact legibleSorts_level hlevel

/-- What is built from a phrase has no sort with a negative level. -/
theorem inherited_legibleSorts :
    Inherited (fun _ t => t.LegibleSorts) (fun _ binders => ∀ p ∈ binders, p.2.LegibleSorts) where
  constant := legibleSorts_constant
  leveled h := legibleSorts_level (le_of_level? h)
  name scope x := by split <;> exact nofun
  app := .append
  arrow := .append
  close := .close
  fix h := h
  elim := .elim
  nil _ := nofun
  group _ ha hrest := List.forall_mem_append.2 ⟨List.forall_mem_map.2 fun _ _ => ha, hrest⟩
  fields _ _ := List.forall_mem_map.2 fun _ _ => nofun

end Grammar

/-- A term is read from a text: alone, in a command, or in a command of a script. -/
inductive Term.ReadFrom (text : Text) : Term → Prop
  | term {t : Term} (h : parseTerm text = .ok t) : ReadFrom text t
  | command {c : Command} {t : Term} (h : parseCommand text = .ok c)
      (ht : t ∈ c.statement.closed) : ReadFrom text t
  | script {path : String} {script : Script} {c : Command} {t : Term}
      (h : parseScript path text = .ok script) (hc : c ∈ script.commands)
      (ht : t ∈ c.statement.closed) : ReadFrom text t

/-- What is read is built from a phrase. -/
theorem Term.ReadFrom.exists_phrase {text : Text} {t : Term} (h : ReadFrom text t) :
    ∃ p : Grammar.Phrase, p.elaborate [] = t := by
  have hclosed : ∀ {c : Command} {s : Grammar.Sentence}, s.statement = c.statement →
      t ∈ c.statement.closed → ∃ p : Grammar.Phrase, p.elaborate [] = t := by
    intro c s hs ht
    rw [← hs, s.closed_statement] at ht
    obtain ⟨p, -, hp⟩ := List.mem_map.1 ht
    exact ⟨p, hp⟩
  cases h with
  | term h =>
    obtain ⟨p, -, hp⟩ := Grammar.Phrase.exists_spells h
    exact ⟨p, hp⟩
  | command h ht =>
    obtain ⟨s, -, hs⟩ := Grammar.Sentence.exists_spells h
    exact hclosed hs ht
  | script h hc ht =>
    obtain ⟨s, -, hs⟩ := Grammar.Sentence.exists_of_parseScript h _ hc
    exact hclosed hs ht

namespace Universe

variable {options : Options} {Γ : Context} {u v w : Universe} {n k : Nat}

/-- A universe is that of a sort in a term that is read. -/
def Written (u : Universe) : Prop :=
  ∃ text t, Term.ReadFrom text t ∧ u ∈ t.universes

/-- **The sorts that can be written** are those with a level that is not negative. -/
theorem written_iff : u.Written ↔ u.legible = true := by
  constructor
  · rintro ⟨text, t, ht, hu⟩
    obtain ⟨p, rfl⟩ := ht.exists_phrase
    exact p.inherits Grammar.inherited_legibleSorts [] u hu
  · intro h
    have hread := Parser.parseTerm_render (t := .sort u) ⟨nofun, h⟩
    exact ⟨_, _, .term hread, List.mem_singleton_self u⟩

/-! ## Levels -/

/-- The universe of the greatest level. -/
def last : Universe :=
  type Int64.maxValue

/-- The level of a universe.  Propositions come before the types of level zero. -/
def level : Universe → Int
  | prop => -1
  | type level => level.toInt

theorem level_lt (h : u ≠ last) : u.level < last.level := by
  cases u with
  | prop => decide
  | type i =>
    refine Int.lt_iff_le_and_ne.2 ⟨i.toInt_le, fun hlevel => h ?_⟩
    exact congrArg type (Int64.toInt_inj.1 hlevel)

/-- The next universe has the next level, if there is one. -/
theorem level_succ (h : u.level < last.level) : u.succ.level = u.level + 1 := by
  cases u with
  | prop => rfl
  | type i =>
    have hmin := i.le_toInt
    have hmax : i.toInt < 2 ^ 63 - 1 := h
    show (i + 1).toInt = i.toInt + 1
    rw [Int64.toInt_add, Int64.toInt_one, Int.bmod_eq_of_le (by omega) (by omega)]

theorem max_eq (u v : Universe) : u.max v = u ∨ u.max v = v := by
  cases u with
  | prop => exact .inr rfl
  | type i =>
    cases v with
    | prop => exact .inl rfl
    | type j =>
      rw [max]
      split
      · exact .inr rfl
      · exact .inl rfl

/-- **The greater of two universes is their least upper bound.** -/
theorem max_le_iff : (u.max v).le w = true ↔ u.le w = true ∧ v.le w = true := by
  constructor
  · exact fun h => ⟨le_trans (le_max_left u v) h, le_trans (le_max_right u v) h⟩
  · rintro ⟨hu, hv⟩
    rcases max_eq u v with h | h <;> rw [h]
    · exact hu
    · exact hv

/-- **The next universe is strictly above, unless the level is the greatest.** -/
theorem lt_succ_iff : u.le u.succ = true ∧ u.succ.le u = false ↔ u ≠ last := by
  by_cases h : u = last
  · subst h
    exact iff_of_false (by decide) (not_not_intro rfl)
  · refine iff_of_true ?_ h
    cases u with
    | prop => exact ⟨rfl, rfl⟩
    | type i =>
      have hlevel : (i + 1).toInt = i.toInt + 1 := level_succ (level_lt h)
      refine ⟨decide_eq_true (Int64.le_iff_toInt_le.2 ?_),
        decide_eq_false (mt Int64.le_iff_toInt_le.1 ?_)⟩ <;> omega

/-- Behind the greatest level is the least. -/
theorem succ_last_le_iff : last.succ.le v = true ↔ v ≠ prop := by
  cases v with
  | prop => exact iff_of_false Bool.noConfusion (not_not_intro rfl)
  | type j => exact iff_of_true (decide_eq_true (Int64.minValue_le j)) Universe.noConfusion

/-- The next universe is below one that is not above iff the level is the greatest, and then it is
below all but `Prop`. -/
theorem succ_le_and_le_iff : u.succ.le v = true ∧ v.le u = true ↔ u = last ∧ v ≠ prop := by
  constructor
  · rintro ⟨hsucc, hle⟩
    have hlast : u = last := by
      by_contra hne
      have hnot := (lt_succ_iff.2 hne).2
      rw [le_trans hsucc hle] at hnot
      cases hnot
    subst hlast
    exact ⟨rfl, succ_last_le_iff.1 hsucc⟩
  · rintro ⟨rfl, hv⟩
    refine ⟨succ_last_le_iff.2 hv, ?_⟩
    cases v with
    | prop => rfl
    | type j => exact decide_eq_true (Int64.le_iff_toInt_le.2 j.toInt_le)

/-! ## Universes that come up -/

/-- `Arises options n k u`: with `k` calls of inference, on sorts and on products, the universe `u`
comes up from sorts that can be written with a level up to `n`.  What a product is over comes up
before it. -/
inductive Arises (options : Options) (n : Nat) : Nat → Universe → Prop
  | written {u : Universe} (hu : u.Written) (hn : u.level ≤ n) : Arises options n 0 u
  | sort {Γ : Context} {k : Nat} {u v : Universe} (hu : Arises options n k u)
      (h : (infer options Γ (.sort u)).outcome = .ok (.sort v)) : Arises options n (k + 1) v
  | pi {Γ : Context} {j k : Nat} {x : String} {a b : Term} {u v w : Universe}
      (hu : Arises options n j u) (hv : Arises options n k v)
      (ha : (inferSort options Γ a).outcome = .ok u)
      (hb : (inferSort options (Γ.extend x a) b).outcome = .ok v)
      (h : (infer options Γ (.pi x a b)).outcome = .ok (.sort w)) : Arises options n (j + k + 1) w

/-- **A call raises the level by one at most**, up to the greatest. -/
theorem Arises.level_le (h : Arises options n k u) (hlast : (n + k : Int) ≤ last.level) :
    u.level ≤ n + k := by
  induction h with
  | written _ hn => simpa using hn
  | @sort Γ k u v _ hinfer ih =>
    obtain rfl : u.succ = v := Term.sort.inj (Except.ok.inj ((infer_sort u).symm.trans hinfer))
    have hu := ih (by omega)
    rw [level_succ (by omega)]
    omega
  | @pi Γ j k x a b u v w _ _ ha hb hinfer ihu ihv =>
    obtain rfl : u.max v = w :=
      Term.sort.inj (Except.ok.inj ((infer_pi ha hb).symm.trans hinfer))
    have hu := ihu (by omega)
    have hv := ihv (by omega)
    rcases max_eq u v with hmax | hmax <;> rw [hmax] <;> omega

/-- From a type, calls on sorts alone go up level by level, and around. -/
theorem Arises.climb {i : Int64} (h : Arises options n k (type i)) (j : Nat) :
    Arises options n (k + j) (type (i + .ofNat j)) := by
  induction j with
  | zero =>
    have hzero : i + Int64.ofNat 0 = i := Int64.add_zero i
    rwa [hzero]
  | succ j ih =>
    have hnext : i + Int64.ofNat (j + 1) = i + Int64.ofNat j + 1 := by
      rw [Int64.ofNat_add, Int64.add_assoc]
      rfl
    rw [hnext]
    exact ih.sort (infer_sort (Γ := .ofTable .empty) _)

theorem arises_ofNat {m : Nat} (hlast : m ≤ last.level) (hn : m ≤ n) :
    Arises options n 0 (type (.ofNat m)) := by
  have hm : m < 2 ^ 63 := by
    have hlevel : last.level = 2 ^ 63 - 1 := rfl
    omega
  refine .written (written_iff.2 (decide_eq_true (Int64.zero_le_ofNat_of_lt hm))) ?_
  rw [level, Int64.toInt_ofNat_of_lt hm]
  omega

/-- **Every universe comes up**, from `Prop` and the types of level zero. -/
theorem exists_arises (options : Options) (u : Universe) : ∃ k, Arises options 0 k u := by
  cases u with
  | prop => exact ⟨0, .written (written_iff.2 rfl) (by decide)⟩
  | type i =>
    have hzero : Arises options 0 0 (type 0) := arises_ofNat (by decide) (Nat.le_refl 0)
    have hi : 0 + Int64.ofNat i.toBitVec.toNat = i := by
      rw [Int64.zero_add, Int64.ofNat_bitVecToNat]
      rfl
    exact ⟨_, hi ▸ hzero.climb i.toBitVec.toNat⟩

/-- **When the greatest level comes up**: when there are as many calls as levels left. -/
theorem exists_arises_last_iff : (∃ j ≤ k, Arises options n j last) ↔ last.level ≤ n + k := by
  constructor
  · rintro ⟨j, hj, h⟩
    by_contra hlt
    have hle := h.level_le (by omega)
    omega
  · intro hk
    obtain ⟨top, htop⟩ : ∃ top : Nat, last.level = top := ⟨_, rfl⟩
    obtain ⟨m, j, hm, hmj, hj⟩ : ∃ m j, m ≤ n ∧ m + j = top ∧ j ≤ k :=
      ⟨min n top, top - min n top, by omega⟩
    have hstart : Arises options n 0 (type (.ofNat m)) := arises_ofNat (by omega) hm
    have hlast : type (.ofNat m + .ofNat j) = last := by
      rw [← Int64.ofNat_add, hmj, ← Int64.ofInt_eq_ofNat, ← htop]
      exact congrArg type (Int64.ofInt_toInt _)
    exact ⟨j, hj, by simpa [hlast] using hstart.climb j⟩

end Universe

/-! ## The hierarchy -/

variable {options : Options} {Γ : Context} {u : Universe}

/-- The universe that is inferred for a sort is strictly above it. -/
def Universe.Ascends (options : Options) (Γ : Context) (u : Universe) : Prop :=
  ∃ v, (infer options Γ (.sort u)).outcome = .ok (.sort v) ∧
    (isSubtype options Γ.table (.sort u) (.sort v)).value = true ∧
    (isSubtype options Γ.table (.sort v) (.sort u)).value = false

theorem Universe.ascends_iff : u.Ascends options Γ ↔ u ≠ last := by
  simp only [Ascends, infer_sort, isSubtype_sort, Except.ok.injEq, Term.sort.injEq,
    exists_eq_left', lt_succ_iff]

open Universe (Written Arises Ascends)

/-- **The hierarchy of universes is strict up to the greatest level.**  Sorts are written as `Prop`
and with levels that are not negative; in the end every universe comes up, those of negative levels
too.  The universe inferred for a sort is strictly above it, unless the level is the greatest; so a
sort checks against itself, or against a smaller sort, iff its level is the greatest, and then it
does so against every sort but `Prop`.  From sorts written with a level up to `n`, all that comes up
with `k` calls of inference is strictly below what is inferred for it iff `n + k` is less than the
greatest level.  The universe inferred for a product is, at every level, the least upper bound of
those of its domain and codomain. -/
theorem hierarchy_strict_iff (options : Options) (Γ : Context) :
    let below := fun u v => (isSubtype options Γ.table (.sort u) (.sort v)).value = true
    (∀ u : Universe, u.Written ↔ u = .prop ∨ ∃ level : Int64, 0 ≤ level ∧ u = .type level) ∧
    (∀ u, ∃ k, Arises options 0 k u) ∧
    (∀ u, Ascends options Γ u ↔ u ≠ .type Int64.maxValue) ∧
    (∀ u v, (check options Γ (.sort u) (.sort v)).outcome = .ok () ∧ below v u ↔
      u = .type Int64.maxValue ∧ v ≠ .prop) ∧
    (∀ n k : Nat, (∀ j ≤ k, ∀ u, Arises options n j u → Ascends options Γ u) ↔
      (n + k : Int) < Int64.maxValue.toInt) ∧
    ∀ x a b type, (infer options Γ (.pi x a b)).outcome = .ok type ↔
      ∃ u v w, (inferSort options Γ a).outcome = .ok u ∧
        (inferSort options (Γ.extend x a) b).outcome = .ok v ∧ type = .sort w ∧
        ∀ z, below w z ↔ below u z ∧ below v z := by
  intro below
  have hbelow : ∀ u v, below u v ↔ u.le v = true := fun u v =>
    Iff.of_eq (congrArg (· = true) isSubtype_sort)
  refine ⟨fun u => ?written, Universe.exists_arises options, fun u => u.ascends_iff,
    fun u v => ?element, fun n k => ?calls, fun x a b type => ?product⟩
  case written =>
    rw [Universe.written_iff]
    cases u <;> simp [Universe.legible]
  case element =>
    rw [hbelow, check_sort_iff]
    exact Universe.succ_le_and_le_iff
  case calls =>
    have hlast : (n + k : Int) < Int64.maxValue.toInt ↔ ¬ ∃ j ≤ k, Arises options n j .last :=
      Int.not_le.symm.trans (not_congr Universe.exists_arises_last_iff.symm)
    rw [hlast]
    constructor
    · rintro h ⟨j, hj, hu⟩
      exact Universe.ascends_iff.1 (h j hj _ hu) rfl
    · rintro h j hj u hu
      refine Universe.ascends_iff.2 ?_
      rintro rfl
      exact h ⟨j, hj, hu⟩
  case product =>
    simp only [hbelow]
    rw [infer_pi_eq_ok_iff]
    constructor
    · rintro ⟨u, v, hu, hv, rfl⟩
      exact ⟨u, v, _, hu, hv, rfl, fun z => Universe.max_le_iff⟩
    · rintro ⟨u, v, w, hu, hv, rfl, hw⟩
      -- a least upper bound is the only one
      have hle : w.le (u.max v) = true := (hw _).2 (Universe.max_le_iff.1 (u.max v).le_refl)
      have hge : (u.max v).le w = true := Universe.max_le_iff.2 ((hw w).1 w.le_refl)
      exact ⟨u, v, hu, hv, congrArg Term.sort (Universe.le_antisymm hle hge)⟩

/-- The sort of the greatest level can be written.  It lives in the least universe of types, so it
checks against itself and against `Type0`.  Three calls do not get there from level ten. -/
theorem hierarchy_strict_iff_greatest :
    let options : Options := ⟨100, false, false, false⟩
    let Γ := Context.ofTable .empty
    let greatest := Universe.type Int64.maxValue
    parseTerm (Text.ofString "Type9223372036854775807") = .ok (.sort greatest) ∧
      (infer options Γ (.sort greatest)).outcome = .ok (.sort (.type Int64.minValue)) ∧
      ¬ Ascends options Γ greatest ∧
      (check options Γ (.sort greatest) (.sort greatest)).outcome = .ok () ∧
      (check options Γ (.sort greatest) (.sort (.type 0))).outcome = .ok () ∧
      ∀ j ≤ 3, ∀ u, Arises options 10 j u → Ascends options Γ u := by
  intro options Γ greatest
  obtain ⟨-, -, hascends, helement, hcalls, -⟩ := hierarchy_strict_iff options Γ
  have hread : parseTerm (Text.ofString "Type9223372036854775807") = .ok (.sort greatest) :=
    Parser.parseTerm_render (t := .sort greatest) ⟨nofun, rfl⟩
  exact ⟨hread, infer_sort greatest, fun h => (hascends greatest).1 h rfl,
    ((helement greatest greatest).2 ⟨rfl, Universe.noConfusion⟩).1,
    ((helement greatest (.type 0)).2 ⟨rfl, Universe.noConfusion⟩).1,
    (hcalls 10 3).2 (by decide)⟩

end ProofKernel
