import ProofKernel.Proofs.Forest.Coherence

/-!
# What becomes of a forest when a table is published

A table is published as a whole or not at all, and afterwards the table below it answers as the
published one did.

* `Forest.PublishedInto` says what has changed after a publication, and that nothing else has.
* `Forest.commit_eq_error_iff`: a table cannot be published iff a name that it lists is taken below
  it; `Forest.Sound.publishedInto` is the case in which it can.
* `Forest.Sound.order_perform` and `Forest.Sound.defined_perform`: no action takes names away, so
  that a table that was published once cannot be published again.
* `Forest.commit_performAll` puts them together for every forest.
-/

set_option autoImplicit false
namespace ProofKernel
namespace Forest

variable {f f' : Forest} {i p : Nat}

/-! ## One publication -/

/-- **A forest after the table at `i` was published into the one at `p`.**  The table at `p` answers
as the one at `i` did and lists what that listed; no other table has other entries than before. -/
structure PublishedInto (f f' : Forest) (i p : Nat) : Prop where
  family : ∀ name, (f'.view p).family? name = (f.view i).family? name
  constructor : ∀ name, (f'.view p).constructor? name = (f.view i).constructor? name
  definition : ∀ name, (f'.view p).definition? name = (f.view i).definition? name
  postulate : ∀ name, (f'.view p).postulate? name = (f.view i).postulate? name
  type : ∀ name, (f'.view p).type? name = (f.view i).type? name
  order : (f'.view p).own.order = (f.view p).own.order ++ (f.view i).own.order
  hints : (f'.view p).own.hints = (f.view p).own.hints ++ (f.view i).own.hints
  size : f'.size = f.size
  parentOf : ∀ j, f'.parentOf j = f.parentOf j
  others : ∀ j < f.size, j ≠ p → (f'.view j).own = (f.view j).own

theorem commit_eq_ok_iff (h : f.parentOf i = some p) : f.commit i = .ok f' ↔
    ∃ table, (f.view p).publish (f.view i).own = .ok table ∧ f.setLayer p table.own = f' := by
  unfold commit
  cases hpub : (f.view p).publish (f.view i).own <;> simp [h, hpub]

/-- **A table cannot be published iff a name that it lists is taken**, and the first such name is
the one that is reported. -/
theorem commit_eq_error_iff (h : f.parentOf i = some p) {e : CommitError} :
    f.commit i = .error e ↔ ∃ name, (f.view i).own.order.find? (f.view p).defined = some name ∧
      e = .clash (.alreadyDefined name) := by
  unfold commit SymbolTable.publish
  cases hfind : (f.view i).own.order.find? (f.view p).defined <;> simp [h, hfind, eq_comm]

theorem Sound.parent_lt_size (h : f.Sound) (hi : f.parentOf i = some p) : p < f.size :=
  Nat.lt_trans (h.wellFormed i p hi) (parentOf_lt_size hi)

/-- A table that was forked has a sound layer over the one it was forked from. -/
theorem Sound.own (h : f.Sound) (hi : f.parentOf i = some p) :
    (f.view i).own.Sound (f.view p).layers := by
  rw [← below_of_parentOf h.wellFormed hi]
  exact h.layers i (parentOf_lt_size hi)

/-- **A publication hands over what the published table knows, and changes nothing else.** -/
theorem Sound.publishedInto (h : f.Sound) (hi : f.parentOf i = some p)
    (hcommit : f.commit i = .ok f') : f.PublishedInto f' i p := by
  obtain ⟨table, hpub, rfl⟩ := (commit_eq_ok_iff hi).1 hcommit
  have hp := h.parent_lt_size hi
  have hview : (f.setLayer p table.own).view p = table := by
    rw [view_setLayer_self h.wellFormed hp, ← SymbolTable.below_publish hpub]
  -- the merged layer knows what the layers of both tables know, in the same order
  have hregistration : ∀ name, table.registration name = (f.view i).registration name := by
    intro name
    have hmerge := (h.own hi).distinct.registration_merge (f.view p).own name
    obtain ⟨_, rfl⟩ := SymbolTable.publish_eq_ok_iff.1 hpub
    rw [SymbolTable.registration_own, hmerge, Registration.or_assoc,
      ← SymbolTable.registration_own, SymbolTable.registration_own (f.view i),
      below_of_parentOf h.wellFormed hi, SymbolTable.registration_through_layers]
  have hsame : ∀ name, ((f.setLayer p table.own).view p).registration name =
      (f.view i).registration name := by
    rw [hview]
    exact hregistration
  obtain ⟨_, heq⟩ := SymbolTable.publish_eq_ok_iff.1 hpub
  refine ⟨fun name => congrArg Registration.family (hsame name),
    fun name => congrArg Registration.constructor (hsame name),
    fun name => congrArg Registration.definition (hsame name),
    fun name => congrArg Registration.postulate (hsame name),
    fun name => congrArg Registration.type? (hsame name), ?_, ?_,
    size_setLayer, fun _ => parentOf_setLayer, fun j hj hne => ?_⟩
  · rw [hview, heq]
    rfl
  · rw [hview, heq]
    rfl
  · rw [own_setLayer h.wellFormed hj, if_neg hne]

/-! ## What no action takes away -/

/-- An action leaves the names of a table in their places; new ones come behind them. -/
theorem Sound.order_perform (h : f.Sound) (hi : i < f.size) (a : Action) :
    (f.view i).own.order <+: ((f.perform a).view i).own.order := by
  rcases h.perform_cases a with heq | ⟨p, _, heq⟩ | ⟨p, _, above, table, _, hpub, heq, _⟩
  · have hview : (f.perform a).view i = f.view i := by rw [heq]
    exact hview ▸ List.prefix_rfl
  · have hview : (f.perform a).view i = f.view i := by rw [heq, view_fork hi]
    exact hview ▸ List.prefix_rfl
  · rw [heq, own_setLayer h.wellFormed hi]
    split
    · next hip =>
      obtain ⟨_, rfl⟩ := SymbolTable.publish_eq_ok_iff.1 hpub
      exact hip ▸ List.prefix_append _ _
    · exact List.prefix_rfl

/-- A name that is taken stays taken. -/
theorem Sound.defined_perform (h : f.Sound) (hi : i < f.size) {name : String}
    (hname : (f.view i).defined name = true) (a : Action) :
    ((f.perform a).view i).defined name = true := by
  have hdefined : ∀ {g : Forest}, Layer.Grows (f.view i).layers (g.view i).layers →
      (g.view i).defined name = true := by
    intro g hgrows
    rw [← SymbolTable.defined_through_layers] at hname ⊢
    exact hgrows.defined name hname
  rcases h.perform_cases a with heq | ⟨p, _, heq⟩ | ⟨p, hp, above, table, habove, hpub, heq, _⟩
  · rwa [heq]
  · rwa [heq, view_fork hi]
  · rw [heq]
    have hgrows := habove.grows_publish hpub
    have hview : (f.setLayer p table.own).view p = table := by
      rw [view_setLayer_self h.wellFormed hp, ← SymbolTable.below_publish hpub]
    by_cases hip : i = p
    · subst hip
      exact hdefined (hview.symm ▸ hgrows)
    · have hown := own_setLayer h.wellFormed hi p table.own
      rw [if_neg hip] at hown
      rcases below_setLayer h.wellFormed hp hi hip table.own with hsame | ⟨upper, hold, hnew⟩
      · have hsame : (f.setLayer p table.own).view i = f.view i :=
          SymbolTable.mk.injEq .. ▸ ⟨hown, hsame⟩
        rwa [hsame]
      · refine hdefined ?_
        rw [← SymbolTable.below_publish hpub] at hnew
        rw [SymbolTable.layers, SymbolTable.layers, hown, hold, hnew]
        exact hgrows.append (_ :: upper)

theorem parentOf_perform (hi : i < f.size) (a : Action) :
    (f.perform a).parentOf i = f.parentOf i := by
  rcases f.perform_cases a with heq | ⟨p, _, heq⟩ | ⟨p, _, _, table, _, heq⟩ |
    ⟨_, p, table, _, _, _, heq⟩
  · rw [heq]
  · rw [heq, parentOf_fork, if_neg (Nat.ne_of_lt hi)]
  · rw [heq, parentOf_setLayer]
  · rw [heq, parentOf_setLayer]

theorem size_le_perform (f : Forest) (a : Action) : f.size ≤ (f.perform a).size := by
  rcases f.perform_cases a with heq | ⟨p, _, heq⟩ | ⟨p, _, _, table, _, heq⟩ |
    ⟨_, p, table, _, _, _, heq⟩
  · exact Nat.le_of_eq (congrArg size heq).symm
  · rw [heq, size_fork]
    exact Nat.le_succ _
  · exact Nat.le_of_eq ((congrArg size heq).trans size_setLayer).symm
  · exact Nat.le_of_eq ((congrArg size heq).trans size_setLayer).symm

/-- **A name that is taken below a table keeps it from being published for ever.** -/
theorem Sound.commit_performAll_of_taken (h : f.Sound) (hi : f.parentOf i = some p) {name : String}
    (hlisted : name ∈ (f.view i).own.order) (htaken : (f.view p).defined name = true)
    (actions : List Action) : ∃ e, (f.performAll actions).commit i = .error e := by
  have hlt := parentOf_lt_size hi
  induction actions generalizing f with
  | nil =>
    have hsome : ((f.view i).own.order.find? (f.view p).defined).isSome = true :=
      List.find?_isSome.2 ⟨name, hlisted, htaken⟩
    obtain ⟨first, hfirst⟩ := Option.isSome_iff_exists.1 hsome
    exact ⟨_, (commit_eq_error_iff hi).2 ⟨first, hfirst, rfl⟩⟩
  | cons a rest ih =>
    exact ih (h.perform a) ((parentOf_perform hlt a).trans hi)
      ((h.order_perform hlt a).subset hlisted) (h.defined_perform (h.parent_lt_size hi) htaken a)
      (Nat.lt_of_lt_of_le hlt (f.size_le_perform a))

/-! ## Every forest -/

/-- **A publication does all or nothing.**  After any actions on the tables of a forest, a table
cannot be published iff a name that it lists is defined in the table it was forked from, that is
there or below; the failure names such a name, and nothing has changed.  If it can be published,
the table it was forked from answers every query as the published one did, and every other table
keeps its entries; and if the table lists a name, it cannot be published again, whatever is done in
between. -/
theorem commit_performAll (actions : List Action) (i p : Nat)
    (hparent : (root.performAll actions).parentOf i = some p) :
    let f := root.performAll actions
    ((∃ e, f.commit i = .error e) ↔
      ∃ name ∈ (f.view i).own.order, (f.view p).defined name = true) ∧
    (∀ e, f.commit i = .error e → f.perform (.commit i) = f ∧
      ∃ name ∈ (f.view i).own.order, (f.view p).defined name = true ∧
        e = .clash (.alreadyDefined name)) ∧
    ∀ f', f.commit i = .ok f' → f.perform (.commit i) = f' ∧ f.PublishedInto f' i p ∧
      ((f.view i).own.order ≠ [] → ∀ later, ∃ e, (f'.performAll later).commit i = .error e) := by
  intro f
  have hsound : f.Sound := sound_root.performAll actions
  have hfind : ∀ name, (f.view i).own.order.find? (f.view p).defined = some name →
      name ∈ (f.view i).own.order ∧ (f.view p).defined name = true := fun name hname =>
    ⟨List.mem_of_find?_eq_some hname, List.find?_some hname⟩
  refine ⟨⟨?_, ?_⟩, fun e he => ⟨?_, ?_⟩, fun f' hf' => ⟨?_, ?_, fun hlists later => ?_⟩⟩
  · rintro ⟨e, he⟩
    obtain ⟨name, hname, _⟩ := (commit_eq_error_iff hparent).1 he
    exact ⟨name, hfind name hname⟩
  · rintro ⟨name, hlisted, htaken⟩
    exact hsound.commit_performAll_of_taken hparent hlisted htaken []
  · rw [perform, he]
    rfl
  · obtain ⟨name, hname, heq⟩ := (commit_eq_error_iff hparent).1 he
    exact ⟨name, (hfind name hname).1, (hfind name hname).2, heq⟩
  · rw [perform, hf']
    rfl
  · exact hsound.publishedInto hparent hf'
  · obtain ⟨name, hname⟩ := List.exists_mem_of_ne_nil _ hlists
    have hpublished := hsound.publishedInto hparent hf'
    have hsound' : f'.Sound := by
      have hperform : f.perform (.commit i) = f' := by
        rw [perform, hf']
        rfl
      exact hperform ▸ hsound.perform (.commit i)
    have hne : i ≠ p := (Nat.ne_of_lt (hsound.wellFormed i p hparent)).symm
    have hlisted : name ∈ (f'.view i).own.order := by
      rwa [hpublished.others i (parentOf_lt_size hparent) hne]
    -- what the published table registered is known through the table below it
    have hknown : (f.view i).defined name = true := by
      rw [SymbolTable.defined_iff, SymbolTable.registration_own, Ne, Registration.or_eq_none_iff]
      exact fun hnone => (hsound.own hparent).known name hname hnone.1
    have htaken : (f'.view p).defined name = true := by
      rw [SymbolTable.defined, hpublished.type]
      exact hknown
    exact hsound'.commit_performAll_of_taken ((hpublished.parentOf i).trans hparent) hlisted htaken
      later

/-- A fork of a fork adds a constructor and can be published, but not twice.  Another fork adds a
name that the root gets in the meantime, and cannot be published. -/
theorem commit_performAll_stale :
    let f := root.performAll [.add 0 (.family "I" (.sort .prop)), .fork 0, .fork 1, .fork 0,
      .add 2 (.constructor "a" "I" (.global "I")), .add 3 (.postulate "b" (.sort .prop)),
      .add 0 (.postulate "b" (.global "I"))]
    f.parentOf 2 = some 1 ∧ f.parentOf 3 = some 0 ∧
      (∃ f', f.commit 2 = .ok f' ∧ f.PublishedInto f' 2 1 ∧
        (f'.view 1).names = ["I", "b", "a"] ∧ ∃ e, f'.commit 2 = .error e) ∧
      f.commit 3 = .error (.clash (.alreadyDefined "b")) ∧ f.perform (.commit 3) = f := by
  intro f
  have hinner : f.parentOf 2 = some 1 := by decide +kernel
  have hstale : f.parentOf 3 = some 0 := by decide +kernel
  have hnested := commit_performAll _ 2 1 hinner
  have hclash := commit_performAll _ 3 0 hstale
  have hnames : ((f.commit 2).toOption.map fun f' => (f'.view 1).names) = some ["I", "b", "a"] := by
    decide +kernel
  have hfails : f.commit 3 = .error (.clash (.alreadyDefined "b")) :=
    (commit_eq_error_iff hstale).2 ⟨"b", by decide +kernel, rfl⟩
  refine ⟨hinner, hstale, ?_, hfails, (hclash.2.1 _ hfails).1⟩
  cases hcommit : f.commit 2 with
  | error e => simp [hcommit, Except.toOption] at hnames
  | ok f' =>
    obtain ⟨_, hpublished, hagain⟩ := hnested.2.2 f' hcommit
    rw [hcommit] at hnames
    exact ⟨f', rfl, hpublished, Option.some.inj hnames, hagain (by decide +kernel) []⟩

end Forest
end ProofKernel
