import ProofKernel.Substitution

/-!
# Equations of substitution

Substitution descends with a bound on the size of the term.  The bound does not matter once it is
large enough (`Term.substituteWithin_eq`), which gives one equation for each kind of node.

* `Term.substitute_pi`, `Term.substitute_lam` and `Term.substitute_fix` go through
  `Term.substituteBody`, which is where binders are renamed.
* `Term.substitute_of_not_mem`: a term in which the variable is not free stays as it is, to the
  letter, so that nothing happens to a closed term.
* `Term.Complete` says of a term that it is closed and has no hole.
-/

set_option autoImplicit false
namespace ProofKernel
namespace Term

/-! ## Terms without holes -/

mutual

/-- Whether a term has no hole. -/
def holeFree : Term → Bool
  | sort _ | var _ | global _ | lit _ => true
  | pi _ a b | lam _ a b | app a b => a.holeFree && b.holeFree
  | elim s m cases => s.holeFree && m.holeFree && holeFreeAll cases
  | fix _ b => b.holeFree
  | hole => false

/-- Whether a list of terms has no hole. -/
def holeFreeAll : List Term → Bool
  | [] => true
  | t :: rest => t.holeFree && holeFreeAll rest

end

/-- A closed term without holes. -/
structure Complete (t : Term) : Prop where
  closed : t.freeVars = []
  noHole : t.holeFree = true

instance (t : Term) : Decidable t.Complete :=
  decidable_of_iff (t.freeVars = [] ∧ t.holeFree = true) ⟨fun h => ⟨h.1, h.2⟩, fun h => ⟨h.1, h.2⟩⟩

/-! ## The bound on the size -/

theorem underBinder_congr {go go' : Term → String → Term → List String → Term} {b : Term}
    (h : ∀ t x r free, t.size = b.size → go t x r free = go' t x r free)
    (hgo : ∀ t x y free, (go' t x (.var y) free).size = t.size) (y x : String) (r : Term)
    (free : List String) : underBinder go y b x r free = underBinder go' y b x r free := by
  unfold underBinder
  simp only [h b _ _ _ rfl, h _ x r free (hgo b _ _ _)]

/-- Any bound that the size of the term fits in gives the same result. -/
theorem substituteWithin_eq {n m : Nat} {t : Term} (hn : t.size ≤ n) (hm : t.size ≤ m) (x : String)
    (r : Term) (free : List String) :
    substituteWithin n t x r free = substituteWithin m t x r free := by
  induction n generalizing m t x r free with
  | zero => exact absurd (size_pos t) (by omega)
  | succ n ih =>
    obtain ⟨m, rfl⟩ : ∃ k, m = k + 1 := ⟨m - 1, by have := size_pos t; omega⟩
    have hbody : ∀ b : Term, b.size ≤ n → b.size ≤ m → ∀ y,
        underBinder (substituteWithin n) y b x r free =
          underBinder (substituteWithin m) y b x r free := by
      intro b hb hb' y
      exact underBinder_congr (fun t x r free ht => ih (by omega) (by omega) x r free)
        (fun t x y free => size_substituteWithin_var m t x y free) y x r free
    have hpart : ∀ a : Term, a.size ≤ n → a.size ≤ m →
        substituteWithin n a x r free = substituteWithin m a x r free :=
      fun a ha ha' => ih ha ha' x r free
    cases t with
    | sort | global | lit | hole | var => rfl
    | pi y a b | lam y a b =>
      simp only [size] at hn hm
      simp only [substituteWithin]
      rw [hbody b (by omega) (by omega) y, hpart a (by omega) (by omega)]
    | fix y b =>
      simp only [size] at hn hm
      simp only [substituteWithin]
      rw [hbody b (by omega) (by omega) y]
    | app f a =>
      simp only [size] at hn hm
      simp only [substituteWithin]
      rw [hpart f (by omega) (by omega), hpart a (by omega) (by omega)]
    | elim s e cases =>
      simp only [size] at hn hm
      simp only [substituteWithin]
      rw [hpart s (by omega) (by omega), hpart e (by omega) (by omega)]
      congr 1
      refine List.map_congr_left fun c hc => ?_
      have := size_le_sizes hc
      exact hpart c (by omega) (by omega)

theorem substituteWithin_eq_substitute {n : Nat} {t : Term} (hn : t.size ≤ n) (x : String)
    (r : Term) : substituteWithin n t x r r.freeVars = t.substitute x r :=
  substituteWithin_eq hn (Nat.le_refl _) x r _

/-! ## One equation for each kind of node -/

/-- Substitution in the body of a binder: the name of the binder afterwards, and the body. -/
def substituteBody (y : String) (b : Term) (x : String) (r : Term) : String × Term :=
  if y = x then (y, b)
  else if r.freeVars.contains y && occurs x b then
    let y' := fresh y (x :: r.freeVars ++ b.freeVars)
    (y', (b.substitute y (.var y')).substitute x r)
  else (y, b.substitute x r)

theorem underBinder_eq_substituteBody {n : Nat} {b : Term} (hn : b.size ≤ n) (y x : String)
    (r : Term) : underBinder (substituteWithin n) y b x r r.freeVars = substituteBody y b x r := by
  have hvar : ∀ y', substituteWithin n b y (.var y') [y'] = b.substitute y (.var y') :=
    fun y' => substituteWithin_eq_substitute hn y (.var y')
  have hsize : ∀ y', (b.substitute y (.var y')).size ≤ n := by
    intro y'
    rw [substitute, size_substituteWithin_var]
    exact hn
  simp only [underBinder, substituteBody, hvar, substituteWithin_eq_substitute hn,
    substituteWithin_eq_substitute (hsize _)]

@[simp] theorem substitute_sort (u : Universe) (x : String) (r : Term) :
    (sort u).substitute x r = sort u := rfl

@[simp] theorem substitute_global (y x : String) (r : Term) :
    (global y).substitute x r = global y := rfl

@[simp] theorem substitute_lit (l : Literal) (x : String) (r : Term) :
    (lit l).substitute x r = lit l := rfl

@[simp] theorem substitute_hole (x : String) (r : Term) : hole.substitute x r = hole := rfl

theorem substitute_var (y x : String) (r : Term) :
    (var y).substitute x r = if y = x then r else var y := rfl

theorem substitute_pi (y : String) (a b : Term) (x : String) (r : Term) :
    (pi y a b).substitute x r =
      pi (substituteBody y b x r).1 (a.substitute x r) (substituteBody y b x r).2 := by
  rw [substitute, size, substituteWithin]
  simp only [underBinder_eq_substituteBody (n := a.size + b.size) (b := b) (by omega),
    substituteWithin_eq_substitute (n := a.size + b.size) (t := a) (by omega)]

theorem substitute_lam (y : String) (a b : Term) (x : String) (r : Term) :
    (lam y a b).substitute x r =
      lam (substituteBody y b x r).1 (a.substitute x r) (substituteBody y b x r).2 := by
  rw [substitute, size, substituteWithin]
  simp only [underBinder_eq_substituteBody (n := a.size + b.size) (b := b) (by omega),
    substituteWithin_eq_substitute (n := a.size + b.size) (t := a) (by omega)]

theorem substitute_fix (y : String) (b : Term) (x : String) (r : Term) :
    (fix y b).substitute x r =
      fix (substituteBody y b x r).1 (substituteBody y b x r).2 := by
  rw [substitute, size, substituteWithin]
  simp only [underBinder_eq_substituteBody (n := b.size) (b := b) (by omega)]

@[simp] theorem substitute_app (f a : Term) (x : String) (r : Term) :
    (app f a).substitute x r = app (f.substitute x r) (a.substitute x r) := by
  rw [substitute, size, substituteWithin]
  simp only [substituteWithin_eq_substitute (n := f.size + a.size) (t := f) (by omega),
    substituteWithin_eq_substitute (n := f.size + a.size) (t := a) (by omega)]

@[simp] theorem substitute_elim (s m : Term) (cases : List Term) (x : String) (r : Term) :
    (elim s m cases).substitute x r =
      elim (s.substitute x r) (m.substitute x r) (cases.map fun c => c.substitute x r) := by
  rw [substitute, size, substituteWithin]
  simp only [
    substituteWithin_eq_substitute (n := s.size + m.size + sizes cases) (t := s) (by omega),
    substituteWithin_eq_substitute (n := s.size + m.size + sizes cases) (t := m) (by omega)]
  congr 1
  refine List.map_congr_left fun c hc => ?_
  have := size_le_sizes hc
  exact substituteWithin_eq_substitute (by omega) x r

/-! ## Variables that are not free -/

theorem occurs_eq_false {x : String} {t : Term} (h : x ∉ t.freeVars) : occurs x t = false := by
  rw [← Bool.not_eq_true, occurs_iff_mem_freeVars]
  exact h

theorem substituteBody_of_not_mem {y x : String} {b r : Term}
    (hb : x ∉ b.freeVars → b.substitute x r = b) (h : x ∉ b.freeVars.filter (· != y)) :
    substituteBody y b x r = (y, b) := by
  unfold substituteBody
  by_cases hyx : y = x
  · rw [if_pos hyx]
  · have hx : x ∉ b.freeVars := fun hx => h (by simpa [hx] using fun e => hyx e.symm)
    rw [if_neg hyx, occurs_eq_false hx, Bool.and_false, if_neg (by simp), hb hx]

/-- **Substitution for a variable that is not free changes nothing.** -/
theorem substitute_of_not_mem {x : String} {t : Term} (r : Term) (h : x ∉ t.freeVars) :
    t.substitute x r = t := by
  induction t with
  | sort | global | lit | hole => rfl
  | var y =>
    rw [freeVars, List.mem_singleton] at h
    rw [substitute_var, if_neg fun e => h e.symm]
  | pi y a b iha ihb =>
    rw [freeVars, List.mem_append, not_or] at h
    rw [substitute_pi, substituteBody_of_not_mem ihb h.2, iha h.1]
  | lam y a b iha ihb =>
    rw [freeVars, List.mem_append, not_or] at h
    rw [substitute_lam, substituteBody_of_not_mem ihb h.2, iha h.1]
  | fix y b ihb => rw [substitute_fix, substituteBody_of_not_mem ihb h]
  | app f a ihf iha =>
    rw [freeVars, List.mem_append, not_or] at h
    rw [substitute_app, ihf h.1, iha h.2]
  | elim s m cases ihs ihm ihc =>
    rw [freeVars, List.mem_append, List.mem_append, not_or, not_or, mem_freeVarsAll] at h
    have hc : cases.map (fun c => c.substitute x r) = cases :=
      (List.map_congr_left fun c hc => ihc c hc fun hx => h.2 ⟨c, hc, hx⟩).trans
        (List.map_id' cases)
    rw [substitute_elim, ihs h.1.1, ihm h.1.2, hc]

theorem substitute_of_closed {t : Term} (h : t.freeVars = []) (x : String) (r : Term) :
    t.substitute x r = t :=
  substitute_of_not_mem r (by simp [h])

end Term
end ProofKernel
