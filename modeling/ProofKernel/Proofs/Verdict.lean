import ProofKernel.Trace

/-!
# Outcomes of verdicts

A verdict is read through its outcome alone, since the log never influences it.

* `Verdict.bind_eq_ok_iff` takes an accepted sequence of judgements apart.
* `Verdict.Matches` compares two verdicts: both are rejections, or both are values that are related.
  It is kept by sequencing (`Verdict.Matches.bind`), so that two runs of the kernel can be compared
  judgement by judgement.
-/

set_option autoImplicit false
namespace ProofKernel
namespace Verdict

variable {α β γ δ : Type}

/-! ## Accepted sequences -/

@[simp] theorem ok_bind (a : α) (f : α → Except KernelError β) :
    (Except.ok a : Except KernelError α) >>= f = f a := rfl

@[simp] theorem error_bind (e : KernelError) (f : α → Except KernelError β) :
    (Except.error e : Except KernelError α) >>= f = .error e := rfl

@[simp] theorem outcome_liftM (x : Traced α) : (liftM x : Verdict α).outcome = .ok x.value := rfl

/-- A sequence of judgements is accepted iff each of them is. -/
theorem bind_eq_ok_iff {v : Verdict α} {f : α → Verdict β} {b : β} :
    (v >>= f).outcome = .ok b ↔ ∃ a, v.outcome = .ok a ∧ (f a).outcome = .ok b := by
  rw [outcome_bind]
  cases v.outcome with
  | error e => simp
  | ok a => simp

/-- A sequence of two checks is accepted iff both are. -/
theorem seq_eq_ok_iff {v : Verdict Unit} {f : Unit → Verdict β} {b : β} :
    (v >>= f).outcome = .ok b ↔ v.outcome = .ok () ∧ (f ()).outcome = .ok b := by
  rw [bind_eq_ok_iff]
  exact ⟨fun ⟨(), h⟩ => h, fun h => ⟨(), h⟩⟩

theorem map_eq_ok_iff {x : Except KernelError α} {f : α → β} {b : β} :
    x.map f = .ok b ↔ ∃ a, x = .ok a ∧ f a = b := by
  cases x <;> simp [Except.map]

instance {v : Except KernelError α} {a : α} [DecidableEq α] : Decidable (v = .ok a) :=
  match v with
  | .ok b => decidable_of_iff (b = a) (by simp)
  | .error _ => isFalse (by simp)

/-- A property of an accepted value that can be evaluated. -/
theorem exists_ok_of_any {v : Verdict α} {P : α → Prop} [DecidablePred P]
    (h : v.outcome.toOption.any (fun a => decide (P a)) = true) : ∃ a, v.outcome = .ok a ∧ P a := by
  cases hv : v.outcome with
  | error e => simp [hv, Except.toOption] at h
  | ok a => exact ⟨a, rfl, by simpa [hv, Except.toOption] using h⟩

/-! ## Two verdicts side by side -/

/-- Both verdicts are rejections, or both are values that `R` relates. -/
def Matches (R : α → β → Prop) (v : Verdict α) (w : Verdict β) : Prop :=
  match v.outcome, w.outcome with
  | .ok a, .ok b => R a b
  | .error _, .error _ => True
  | _, _ => False

namespace Matches

variable {R : α → β → Prop} {S : γ → δ → Prop}

theorem pure {a : α} {b : β} (h : R a b) : Matches R (Pure.pure a) (Pure.pure b) := h

theorem reject (e e' : KernelError) :
    Matches R (Verdict.reject e : Verdict α) (Verdict.reject e' : Verdict β) := trivial

/-- Matching verdicts are both rejected, or both accepted with related values. -/
theorem cases {v : Verdict α} {w : Verdict β} (h : Matches R v w) :
    (∃ a b, v.outcome = .ok a ∧ w.outcome = .ok b ∧ R a b) ∨
      ∃ e e', v.outcome = .error e ∧ w.outcome = .error e' := by
  unfold Matches at h
  split at h
  · next a b hv hw => exact .inl ⟨a, b, hv, hw, h⟩
  · next e e' hv hw => exact .inr ⟨e, e', hv, hw⟩
  · exact h.elim

theorem of_ok {v : Verdict α} {w : Verdict β} {a : α} {b : β} (hv : v.outcome = .ok a)
    (hw : w.outcome = .ok b) (h : R a b) : Matches R v w := by
  unfold Matches
  rw [hv, hw]
  exact h

theorem of_error {v : Verdict α} {w : Verdict β} {e e' : KernelError}
    (hv : v.outcome = .error e) (hw : w.outcome = .error e') : Matches R v w := by
  unfold Matches
  rw [hv, hw]
  trivial

/-- Matching judgements stay so when matching ones follow.  The values that follow are those of the
two verdicts. -/
theorem bind {v : Verdict α} {w : Verdict β} {f : α → Verdict γ} {g : β → Verdict δ}
    (h : Matches R v w)
    (hfg : ∀ a b, v.outcome = .ok a → w.outcome = .ok b → R a b → Matches S (f a) (g b)) :
    Matches S (v >>= f) (w >>= g) := by
  rcases h.cases with ⟨a, b, hv, hw, hab⟩ | ⟨e, e', hv, hw⟩
  · have := hfg a b hv hw hab
    unfold Matches at this ⊢
    rw [outcome_bind, outcome_bind, hv, hw]
    exact this
  · exact of_error (by rw [outcome_bind, hv]; rfl) (by rw [outcome_bind, hw]; rfl)

theorem mono {R' : α → β → Prop} {v : Verdict α} {w : Verdict β} (h : Matches R v w)
    (hR : ∀ a b, R a b → R' a b) : Matches R' v w := by
  rcases h.cases with ⟨a, b, hv, hw, hab⟩ | ⟨e, e', hv, hw⟩
  · exact of_ok hv hw (hR a b hab)
  · exact of_error hv hw

/-- How a sequence is bracketed does not matter. -/
theorem bind_bind {ε ζ : Type} {T : ε → ζ → Prop} {v : Verdict α} {w : Verdict β}
    {f : α → Verdict γ} {g : β → Verdict δ} {f' : γ → Verdict ε} {g' : δ → Verdict ζ}
    (h : Matches T (v >>= fun a => f a >>= f') (w >>= fun b => g b >>= g')) :
    Matches T (v >>= f >>= f') (w >>= g >>= g') := by
  have hassoc : ∀ {α γ ε : Type} (v : Verdict α) (f : α → Verdict γ) (f' : γ → Verdict ε),
      (v >>= f >>= f').outcome = (v >>= fun a => f a >>= f').outcome := by
    intro α γ ε v f f'
    simp only [outcome_bind]
    cases v.outcome with
    | error e => rfl
    | ok a => rfl
  unfold Matches at h ⊢
  rw [hassoc v f f', hassoc w g g']
  exact h

/-- A recorded event does not matter. -/
theorem note_bind {on on' : Bool} {e e' : Event} {f : Unit → Verdict γ} {g : Unit → Verdict δ}
    (h : Matches S (f ()) (g ())) :
    Matches S (Verdict.note on e >>= f) (Verdict.note on' e' >>= g) :=
  bind (R := fun _ _ => True) trivial fun _ _ _ _ _ => h

/-- What cannot be rejected is compared by its value. -/
theorem lift_bind {x : Traced α} {y : Traced β} {f : α → Verdict γ} {g : β → Verdict δ}
    (h : Matches S (f x.value) (g y.value)) :
    Matches S ((liftM x : Verdict α) >>= f) ((liftM y : Verdict β) >>= g) :=
  bind (R := fun a b => a = x.value ∧ b = y.value) ⟨rfl, rfl⟩ fun _ _ _ _ hab => by
    rw [hab.1, hab.2]
    exact h

end Matches

end Verdict
end ProofKernel
