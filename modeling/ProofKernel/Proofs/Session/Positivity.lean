import Mathlib.Data.List.Induction
import Mathlib.Data.List.TakeWhile
import ProofKernel.Proofs.Session.Effect
import ProofKernel.Proofs.Session.Scoping

/-!
# Inductive types occur strictly positively

The positivity of a constructor is checked on its type as it was written, before the inductive type
is registered.  It stays positive however its arguments are reduced, now or after later
declarations: whatever a definition unfolds to was registered before it, so that nothing that was
registered before an inductive type can unfold to it.

* `Term.Positive` is the form that the type of an argument may have.  The check gives it
  (`Term.positive_of_check`), and reduction keeps it over a set of names that do not unfold to the
  inductive type (`Term.PositiveOver.steps?`).
* `SymbolTable.Layered` is what declarations keep (`SymbolTable.Layered.publish`): bodies mention
  names from before, and constructors are positive as they are written.
* `SymbolTable.PositiveAt` is the statement for one constructor, and `Session.positive_executeAll`
  the one for all of a session.
-/

set_option autoImplicit false
namespace ProofKernel

variable {options : Options} {table table' : SymbolTable} {name I : String} {t u : Term}

/-! ## The form of arguments -/

namespace Term

/-- A global is not mentioned, or stands at the head of a term whose arguments do not mention it. -/
def Positive (I : String) (t : Term) : Prop :=
  t.mentions I = false ∨ ∃ args, t = (global I).apps args ∧ ∀ a ∈ args, a.mentions I = false

theorem mentions_eq_false_iff : t.mentions I = false ↔ t.Over (· ≠ .global I) := by
  rw [mentions, List.contains_eq_mem, decide_eq_false_iff_not, ← global_mem_leaves, Over]
  exact ⟨fun h l hl heq => h (heq ▸ hl), fun h hmem => h _ hmem rfl⟩

theorem positive_of_checkParam {p : Positivity} {place : String}
    (h : p.checkParam t place = .ok ()) : t.Positive p.family := by
  unfold Positivity.checkParam at h
  split at h
  · next hrec =>
    simp only [Positivity.isRecursiveArgument, Bool.and_eq_true, beq_iff_eq, List.all_eq_true,
      Bool.not_eq_true'] at hrec
    refine .inr ⟨t.args, ?_, hrec.2⟩
    rw [← hrec.1, apps_spine]
  · split at h
    · cases h
    · next hmentions => exact .inl (by simpa using hmentions)

/-- **The positivity check** gives every leading binder its form. -/
theorem positive_of_check {p : Positivity} (h : p.check t = .ok ()) :
    ∀ b ∈ t.piChain.1, b.2.Positive p.family := by
  induction t with
  | pi x a b _ ihb =>
    rw [Positivity.check] at h
    cases ha : p.checkParam a "parameter type" with
    | error e => rw [ha] at h; cases h
    | ok _ =>
      rw [ha, Verdict.ok_bind] at h
      exact List.forall_mem_cons.2 ⟨positive_of_checkParam ha, ihb h⟩
  | _ => exact nofun

theorem positive_of_checkPositivity {constructors : Telescope} {c : String}
    (h : checkPositivity I constructors = .ok ()) (hc : (c, t) ∈ constructors) :
    ∀ b ∈ t.piChain.1, b.2.Positive I := by
  induction constructors with
  | nil => cases hc
  | cons p rest ih =>
    rw [checkPositivity] at h
    cases hp : Positivity.check ⟨I, p.1⟩ p.2 with
    | error e => rw [hp] at h; cases h
    | ok _ =>
      rw [hp, Verdict.ok_bind] at h
      rcases List.mem_cons.1 hc with rfl | hc
      · exact positive_of_check hp
      · exact ih h hc

/-! ## Reduction -/

/-- A constant that neither unfolds nor computes stays at the head of its applications. -/
theorem step?_apps_global {args : List Term} (hdef : table.definition? I = none)
    (hpost : table.postulate? I = none) (h : table.step? ((global I).apps args) = some u) :
    ∃ before a a' after, args = before ++ a :: after ∧ table.step? a = some a' ∧
      u = (global I).apps (before ++ a' :: after) := by
  induction args using List.reverseRecOn generalizing u with
  | nil =>
    rw [apps, List.foldl_nil, SymbolTable.step?, hdef] at h
    cases h
  | append_singleton args a ih =>
    have happ : (global I).apps (args ++ [a]) = app ((global I).apps args) a := apps_append ..
    have hhead : ((global I).apps args).head = global I := by
      clear ih h happ
      induction args using List.reverseRecOn with
      | nil => rfl
      | append_singleton args b ih => rw [apps_append]; exact ih
    have hlam : ∀ x d b, (global I).apps args ≠ lam x d b := by
      intro x d b heq
      rw [heq] at hhead
      cases hhead
    have harith : table.arithmetic? (app ((global I).apps args) a) = none := by
      unfold SymbolTable.arithmetic?
      split
      · next operation _ _ heq =>
        rw [app.injEq] at heq
        rw [heq.1] at hhead
        cases hhead
        rw [hpost]
        rfl
      · rfl
    have hdelta : table.deltaStep? (app ((global I).apps args) a) = none := by
      unfold SymbolTable.deltaStep?
      rw [head, hhead]
    rw [happ, SymbolTable.step?_app hlam, harith, hdelta, Option.none_or, Option.none_or,
      Option.or_eq_some_iff] at h
    rcases h with h | ⟨_, h⟩
    · obtain ⟨f', hf', rfl⟩ := Option.map_eq_some_iff.1 h
      obtain ⟨before, b, b', after, rfl, hstep, rfl⟩ := ih hf'
      refine ⟨before, b, b', after ++ [a], by simp, hstep, ?_⟩
      rw [← List.cons_append, ← List.append_assoc, apps_append _ _ [a]]
      rfl
    · obtain ⟨a', ha', rfl⟩ := Option.map_eq_some_iff.1 h
      exact ⟨args, a, a', [], rfl, ha', by rw [apps_append]; rfl⟩

/-- What a positive term rests on besides the global itself. -/
def PositiveOver (S : Leaf → Prop) (I : String) (t : Term) : Prop :=
  t.Over S ∨ ∃ args, t = (global I).apps args ∧ ∀ a ∈ args, a.Over S

variable {S : Leaf → Prop}

theorem PositiveOver.positive (hS : ¬ S (.global I)) (h : t.PositiveOver S I) : t.Positive I := by
  have hmentions : ∀ {a : Term}, a.Over S → a.mentions I = false := fun ha =>
    mentions_eq_false_iff.2 (ha.mono fun l hl heq => hS (heq ▸ hl))
  exact h.imp hmentions fun ⟨args, heq, hargs⟩ => ⟨args, heq, fun a ha => hmentions (hargs a ha)⟩

/-- **A step keeps the form**, over a set that is closed under unfolding. -/
theorem PositiveOver.step? (hS : table.Unfolds S) (hdef : table.definition? I = none)
    (hpost : table.postulate? I = none) (h : t.PositiveOver S I) (hstep : table.step? t = some u) :
    u.PositiveOver S I := by
  rcases h with h | ⟨args, rfl, hargs⟩
  · exact .inl (h.step? hS hstep)
  · obtain ⟨before, a, a', after, rfl, ha, rfl⟩ := step?_apps_global hdef hpost hstep
    rw [List.forall_mem_append, List.forall_mem_cons] at hargs
    refine .inr ⟨_, rfl, ?_⟩
    rw [List.forall_mem_append, List.forall_mem_cons]
    exact ⟨hargs.1, hargs.2.1.step? hS ha, hargs.2.2⟩

theorem PositiveOver.steps? (hS : table.Unfolds S) (hdef : table.definition? I = none)
    (hpost : table.postulate? I = none) {n : Nat} (h : t.PositiveOver S I)
    (hsteps : table.steps? n t = some u) : u.PositiveOver S I := by
  induction n generalizing t with
  | zero =>
    cases hsteps
    exact h
  | succ n ih =>
    obtain ⟨t', ht, hu⟩ := Option.bind_eq_some_iff.1 hsteps
    exact ih (h.step? hS hdef hpost ht) hu

end Term

/-! ## Tables -/

namespace SymbolTable

/-- What cannot unfold to a name or to anything after it: what stands before it, what has no body,
and what is left out. -/
def SettledBefore (table : SymbolTable) (I : String) : Leaf → Prop
  | .hole => True
  | .global y => y = Term.placeholder ∨ y ∈ table.before I ∨
      table.defined y = true ∧ table.definition? y = none

/-- The type of a constructor as it is written: its parameters do not mention the inductive type,
its other arguments are positive, and nothing in it unfolds to the inductive type. -/
structure WrittenPositive (table : SymbolTable) (I : String) (n : Nat) (type : Term) : Prop where
  params : ∀ b ∈ type.piChain.1.take n, b.2.mentions I = false
  arguments : ∀ b ∈ type.piChain.1, b.2.Positive I
  settled : type.Over (table.SettledBefore I)

/-- What is registered for a name: a body mentions names from before, an inductive type is nothing
else and has its constructors, and the type of a constructor is positive as it is written. -/
structure LayeredAt (table : SymbolTable) (name : String) : Prop where
  body : ∀ d, table.definition? name = some d → d.body.Over (Among (table.before name))
  family : ∀ f, table.family? name = some f → table.registration name = ⟨some f, none, none, none⟩ ∧
    ∀ C ∈ f.constructors, ∃ c, table.constructor? C = some c ∧ c.family = name
  constructor : ∀ c, table.constructor? name = some c →
    ∃ f, table.family? c.family = some f ∧ table.WrittenPositive c.family f.params c.type

/-- A table that lists what it registers and whose registrations build on one another. -/
structure Layered (table : SymbolTable) : Prop where
  listed : ∀ name, name ∈ table.names ↔ table.defined name = true
  placeholder : table.defined Term.placeholder = false
  layeredAt : ∀ name, table.LayeredAt name

theorem defined_of_family? {f : Family} (h : table.family? name = some f) :
    table.defined name = true := by
  rw [← Bool.not_eq_false]
  intro hnot
  rw [(family?_eq_none_of_not_defined hnot).1] at h
  cases h

theorem defined_of_constructor? {c : Constructor} (h : table.constructor? name = some c) :
    table.defined name = true := by
  rw [← Bool.not_eq_false, defined_eq_false_iff]
  intro hnone
  rw [show table.constructor? name = (table.registration name).constructor from rfl, hnone] at h
  cases h

/-! ### Growing tables -/

section

variable {names : List String} (hext : table.Extends table')
  (hnames : table'.names = table.names ++ names)
include hext hnames

theorem SettledBefore.mono {l : Leaf} (h : table.SettledBefore I l) : table'.SettledBefore I l := by
  cases l with
  | hole => trivial
  | global y =>
    refine h.imp_right (Or.imp (mem_before_of_append hnames) fun ⟨hy, hdef⟩ => ?_)
    exact ⟨hext.defined hy, (congrArg Registration.definition (hext y hy)).trans hdef⟩

/-- What is registered for an old name is as it was. -/
theorem LayeredAt.mono (h : table.LayeredAt name)
    (hreg : table'.registration name = table.registration name) : table'.LayeredAt name where
  body := by
    intro d hd
    refine (h.body d ((congrArg Registration.definition hreg).symm.trans hd)).mono fun l hl => ?_
    cases l with
    | hole => trivial
    | global y => exact hl.imp_right (mem_before_of_append hnames)
  family := by
    intro f hf
    obtain ⟨honly, hcons⟩ := h.family f ((congrArg Registration.family hreg).symm.trans hf)
    refine ⟨hreg.trans honly, fun C hC => ?_⟩
    obtain ⟨c, hc, hfam⟩ := hcons C hC
    have hkept := hext C (defined_of_constructor? hc)
    exact ⟨c, (congrArg Registration.constructor hkept).trans hc, hfam⟩
  constructor := by
    intro c hc
    obtain ⟨f, hf, hpos⟩ := h.constructor c
      ((congrArg Registration.constructor hreg).symm.trans hc)
    have hkept := hext c.family (defined_of_family? hf)
    exact ⟨f, (congrArg Registration.family hkept).trans hf, hpos.params, hpos.arguments,
      hpos.settled.mono fun _ hl => hl.mono hext hnames⟩

end

end SymbolTable

/-! ## Declarations -/

/-- The inductive type of a layer. -/
theorem registration_familyLayer {arity : Term} {constructors : Telescope}
    (h : (name :: constructors.map Prod.fst).Nodup) :
    (familyLayer name arity constructors).registration name =
      ⟨some ⟨arity, arity.piChain.1.length, constructors.map Prod.fst⟩, none, none, none⟩ := by
  have hnone : (familyLayer name arity constructors).constructors.get? name = none := by
    rw [NameMap.get?_eq_none_iff, familyLayer, names_map]
    exact (List.nodup_cons.1 h).1
  rw [Layer.registration, hnone, familyLayer, get?_singleton, if_pos rfl]
  rfl

/-- A constructor of a layer. -/
theorem registration_familyLayer_constructor {arity type : Term} {c : String}
    {constructors : Telescope} (h : (name :: constructors.map Prod.fst).Nodup)
    (hc : (c, type) ∈ constructors) :
    (familyLayer name arity constructors).registration c =
      ⟨none, some ⟨name, type⟩, none, none⟩ := by
  obtain ⟨hnew, hnodup⟩ := List.nodup_cons.1 h
  have hmem : c ∈ constructors.map Prod.fst := List.mem_map_of_mem hc
  have hfamily : (familyLayer name arity constructors).families.get? c = none := by
    rw [familyLayer, get?_singleton, if_neg]
    rintro rfl
    exact hnew hmem
  have hget : (familyLayer name arity constructors).constructors.get? c = some ⟨name, type⟩ := by
    clear hnew hfamily h hmem
    rw [familyLayer]
    induction constructors with
    | nil => cases hc
    | cons p rest ih =>
      obtain ⟨hp, hrest⟩ := List.nodup_cons.1 hnodup
      rw [List.map_cons]
      rcases List.mem_cons.1 hc with rfl | hc
      · exact if_pos rfl
      · refine (if_neg ?_).trans (ih hc hrest)
        intro heq
        exact hp (heq ▸ List.mem_map_of_mem hc)
  rw [Layer.registration, hfamily, hget]
  rfl

namespace SymbolTable

open Declaration

/-- All that was registered stands before what a declaration registers. -/
theorem Layered.mem_before_of_adds (h : table.Layered) {d : Declaration}
    (hadds : d.Adds table table') (hname : name ∈ d.provides) {y : String}
    (hy : table.defined y = true) :
    y ∈ table'.before name := by
  have hother : ∀ n ∈ table.names, (n != name) = true := by
    intro n hn
    refine bne_iff_ne.2 ?_
    rintro rfl
    rw [h.listed, hadds.new n hname] at hn
    cases hn
  rw [before, hadds.names, List.takeWhile_append_of_pos hother]
  exact List.mem_append_left _ ((h.listed y).2 hy)

/-- What a definition registers. -/
theorem Layered.layeredAt_definition (h : table.Layered) {type : Option Term} {body T : Term}
    {staged : SymbolTable} (hadds : (definition name type body).Adds table table')
    (hstage : ((definition name type body).stage options (.ofTable table)).outcome = .ok staged)
    (hreg : table'.registration name = ((definition name type body).layer T).registration name) :
    table'.LayeredAt name where
  body := by
    intro d hd
    obtain ⟨_, _, heq⟩ := definition_layer ((congrArg Registration.definition hreg).symm.trans hd)
    cases heq
    refine (known_of_stage_definition hstage).1.mono fun l hl => ?_
    cases l with
    | hole => trivial
    | global y => exact hl.imp_right (h.mem_before_of_adds hadds List.mem_cons_self)
  family := by
    intro f hf
    cases (congrArg Registration.family hreg).symm.trans hf
  constructor := by
    intro c hc
    cases (congrArg Registration.constructor hreg).symm.trans hc

/-- What a constant without a body registers. -/
theorem layeredAt_postulate {type T : Term}
    (hreg : table'.registration name = ((postulate name type).layer T).registration name) :
    table'.LayeredAt name where
  body := by
    intro d hd
    cases (congrArg Registration.definition hreg).symm.trans hd
  family := by
    intro f hf
    cases (congrArg Registration.family hreg).symm.trans hf
  constructor := by
    intro c hc
    cases (congrArg Registration.constructor hreg).symm.trans hc

/-- What is known of the names of an inductive type once it is registered. -/
structure RegistersFamily (table : SymbolTable) (name : String) (params : Telescope)
    (sort : Option Term) (constructors : Telescope) : Prop where
  family : table.registration name = ⟨some ⟨arity params sort, (arity params sort).piChain.1.length,
    constructors.map Prod.fst⟩, none, none, none⟩
  constructor : ∀ c type, (c, type) ∈ polymorphicConstructors params constructors →
    table.registration c = ⟨none, some ⟨name, type⟩, none, none⟩

theorem registersFamily_of_layer {params constructors : Telescope} {sort : Option Term} {T : Term}
    (hnodup : (family name params sort constructors).provides.Nodup)
    (hreg : ∀ n ∈ (family name params sort constructors).provides, table'.registration n =
      ((family name params sort constructors).layer T).registration n) :
    table'.RegistersFamily name params sort constructors := by
  rw [provides, ← map_fst_polymorphicConstructors params] at hnodup
  refine ⟨?_, fun c type hc => ?_⟩
  · rw [hreg name List.mem_cons_self, layer, registration_familyLayer hnodup,
      map_fst_polymorphicConstructors]
  · have hmem : c ∈ (family name params sort constructors).provides := by
      rw [provides, ← map_fst_polymorphicConstructors params]
      exact List.mem_cons_of_mem _ (List.mem_map_of_mem hc)
    rw [hreg c hmem, layer, registration_familyLayer_constructor hnodup hc]

/-- **The constructors of an accepted inductive type** are positive as they are written. -/
theorem Layered.writtenPositive (h : table.Layered) {params constructors : Telescope}
    {sort : Option Term} {staged : SymbolTable} {c : String} {type : Term}
    (hadds : (family name params sort constructors).Adds table table')
    (hstage : ((family name params sort constructors).stage options (.ofTable table)).outcome =
      .ok staged)
    (hfamily : table'.RegistersFamily name params sort constructors)
    (hname : name ≠ Term.placeholder)
    (hc : (c, type) ∈ polymorphicConstructors params constructors) :
    table'.WrittenPositive name (arity params sort).piChain.1.length type := by
  obtain ⟨u, _, _, hu, hnew, _, hpositive, _⟩ := stageFamily_eq_ok_iff.1 hstage
  obtain ⟨harity, htypes⟩ := known_of_stage_family hstage
  rw [arity, hu] at harity ⊢
  rw [Term.piChain_pis, show (Term.sort u).piChain.1 = [] from rfl, List.append_nil]
  refine ⟨?_, Term.positive_of_checkPositivity hpositive hc, ?_⟩
  · -- the parameters are part of the arity, which was judged before the name was there
    obtain ⟨q, _, heq⟩ := List.mem_map.1 hc
    cases heq
    rw [Term.piChain_pis, List.take_left]
    intro b hb
    refine Term.mentions_eq_false_iff.2 (((Term.over_pis.1 harity).1 b hb).mono ?_)
    rintro l hl rfl
    rcases hl with hl | hl
    · exact hname hl
    · cases hnew.symm.trans hl
  · obtain ⟨before, after, hsplit⟩ := List.append_of_mem hc
    refine (htypes before c type after hsplit).mono fun l hl => ?_
    cases l with
    | hole => trivial
    | global y =>
      refine hl.imp_right fun hy => ?_
      rcases hy with hy | ⟨hy, _⟩
      · -- neither the inductive type nor a constructor before unfolds
        have hprovided : y ∈ (family name params sort constructors).provides := by
          rw [provides, ← map_fst_polymorphicConstructors params, hsplit, List.map_append]
          exact (List.mem_cons.1 hy).elim (fun h => h ▸ List.mem_cons_self)
            fun h => List.mem_cons_of_mem _ (List.mem_append_left _ h)
        refine .inr ⟨hadds.known y hprovided, ?_⟩
        rcases List.mem_cons.1 hy with rfl | hy
        · exact congrArg Registration.definition hfamily.family
        · obtain ⟨p, hp, rfl⟩ := List.mem_map.1 hy
          have hp : p ∈ polymorphicConstructors params constructors := by
            rw [hsplit]
            exact List.mem_append_left _ hp
          exact congrArg Registration.definition (hfamily.constructor p.1 p.2 hp)
      · exact .inl (h.mem_before_of_adds hadds List.mem_cons_self hy)

/-- What an inductive type registers, for itself and for its constructors. -/
theorem Layered.layeredAt_family (h : table.Layered) {params constructors : Telescope}
    {sort : Option Term} {staged : SymbolTable}
    (hadds : (family I params sort constructors).Adds table table')
    (hstage : ((family I params sort constructors).stage options (.ofTable table)).outcome =
      .ok staged)
    (hfamily : table'.RegistersFamily I params sort constructors) (hI : I ≠ Term.placeholder)
    (hname : name ∈ (family I params sort constructors).provides) : table'.LayeredAt name := by
  rw [provides, ← map_fst_polymorphicConstructors params] at hname
  rcases List.mem_cons.1 hname with rfl | hmem
  · refine ⟨fun d hd => ?_, fun f hf => ?_, fun c hc => ?_⟩
    · cases (congrArg Registration.definition hfamily.family).symm.trans hd
    · cases (congrArg Registration.family hfamily.family).symm.trans hf
      refine ⟨hfamily.family, fun C hC => ?_⟩
      rw [← map_fst_polymorphicConstructors params] at hC
      obtain ⟨⟨_, a⟩, hp, rfl⟩ := List.mem_map.1 hC
      exact ⟨_, congrArg Registration.constructor (hfamily.constructor _ a hp), rfl⟩
    · cases (congrArg Registration.constructor hfamily.family).symm.trans hc
  · obtain ⟨⟨_, a⟩, hp, rfl⟩ := List.mem_map.1 hmem
    have hreg := hfamily.constructor _ a hp
    refine ⟨fun d hd => ?_, fun f hf => ?_, fun c hc => ?_⟩
    · cases (congrArg Registration.definition hreg).symm.trans hd
    · cases (congrArg Registration.family hreg).symm.trans hf
    · cases (congrArg Registration.constructor hreg).symm.trans hc
      exact ⟨_, congrArg Registration.family hfamily.family,
        h.writtenPositive hadds hstage hfamily hI hp⟩

namespace Layered

theorem empty : SymbolTable.empty.Layered :=
  ⟨fun _ => ⟨nofun, nofun⟩, rfl, fun _ => ⟨nofun, nofun, nofun⟩⟩

/-- **A declaration keeps a table layered.** -/
theorem publish (h : table.Layered) {d : Declaration} (hd : Term.placeholder ∉ d.provides)
    (hpub : (d.publish options (.ofTable table)).outcome = .ok table') : table'.Layered := by
  have hadds := adds_publish hpub
  obtain ⟨T, _, hstage, _, _, hreg⟩ := publish_eq_ok hpub
  have hext : table.Extends table' := by
    intro n hn
    refine hadds.kept n fun hmem => ?_
    rw [hadds.new n hmem] at hn
    cases hn
  have hkept : ∀ n, n ∉ d.provides → table'.defined n = table.defined n := fun n hn =>
    congrArg (fun r => r.type?.isSome) (hadds.kept n hn)
  refine ⟨fun n => ?_, (hkept _ hd).trans h.placeholder, fun n => ?_⟩
  · rw [hadds.names, List.mem_append]
    by_cases hmem : n ∈ d.provides
    · exact ⟨fun _ => hadds.known n hmem, fun _ => .inr hmem⟩
    · rw [hkept n hmem, ← h.listed]
      exact or_iff_left hmem
  · by_cases hmem : n ∈ d.provides
    · have hnew : table'.registration n = (d.layer T).registration n := by rw [hreg, if_pos hmem]
      cases d with
      | definition given type body =>
        obtain rfl := List.mem_singleton.1 hmem
        exact h.layeredAt_definition hadds hstage hnew
      | postulate given type =>
        obtain rfl := List.mem_singleton.1 hmem
        exact layeredAt_postulate hnew
      | family I params sort constructors =>
        have hfamily : table'.RegistersFamily I params sort constructors :=
          registersFamily_of_layer hadds.nodup fun n hn => by rw [hreg, if_pos hn]
        refine h.layeredAt_family hadds hstage hfamily ?_ hmem
        rintro rfl
        exact hd List.mem_cons_self
    · exact (h.layeredAt n).mono hext hadds.names (hadds.kept n hmem)

theorem addHint (h : table.Layered) (hhint : table.addHint name = .ok table') :
    table'.Layered := by
  have halike := alike_addHint hhint
  have hnames := names_addHint hhint
  refine ⟨fun n => ?_, (halike.defined _).trans h.placeholder, fun n => ?_⟩
  · rw [hnames, h.listed, halike.defined]
  · exact (h.layeredAt n).mono (fun m _ => halike m) (hnames.trans (List.append_nil _).symm)
      (halike n)

/-- Names from before a name have theirs from before it. -/
theorem mem_before_trans {y z : String} (hy : y ∈ table.before name) (hz : z ∈ table.before y) :
    z ∈ table.before name := by
  unfold before at hy hz ⊢
  generalize table.names = names at hy hz ⊢
  induction names with
  | nil => cases hz
  | cons n rest ih =>
    rw [List.takeWhile_cons] at hy hz ⊢
    split at hy
    · next hname =>
      rw [if_pos hname]
      split at hz
      · next hne =>
        have hy := (List.mem_cons.1 hy).resolve_left (bne_iff_ne.1 hne).symm
        exact List.mem_cons.2 ((List.mem_cons.1 hz).imp_right (ih hy))
      · cases hz
    · cases hy

/-- What is settled unfolds to what is settled, and never to the name itself. -/
theorem unfolds (h : table.Layered) (hI : table.defined I = true) :
    table.Unfolds fun l => l ≠ .global I ∧ table.SettledBefore I l := by
  rintro y d ⟨_, hy⟩ hd
  rcases hy with rfl | hy | ⟨_, hnone⟩
  · cases h.placeholder.symm.trans (definition?_isSome_defined hd)
  · refine ((h.layeredAt y).body d hd).mono fun l hl => ?_
    cases l with
    | hole => exact ⟨nofun, trivial⟩
    | global z =>
      rcases hl with rfl | hz
      · refine ⟨?_, .inl rfl⟩
        rintro ⟨⟩
        cases h.placeholder.symm.trans hI
      · have hz := mem_before_trans hy hz
        refine ⟨?_, .inr (.inl hz)⟩
        rintro ⟨⟩
        have hne : (I != I) = true := List.mem_takeWhile_imp (p := (· != I)) hz
        exact bne_iff_ne.1 hne rfl
  · cases hnone.symm.trans hd

end Layered

/-- A constructor of an inductive type with `n` parameters is strictly positive, however the types
of its arguments are reduced. -/
structure PositiveAt (table : SymbolTable) (I : String) (n : Nat) (type : Term) : Prop where
  params : ∀ b ∈ type.piChain.1.take n, b.2.mentions I = false
  arguments : ∀ b ∈ type.piChain.1.drop n, ∀ k t, table.steps? k b.2 = some t → t.Positive I

/-- **What is positive as it is written stays positive under reduction.** -/
theorem Layered.positiveAt (h : table.Layered) {f : Family} (hf : table.family? I = some f)
    {type : Term} (hpos : table.WrittenPositive I f.params type) :
    table.PositiveAt I f.params type := by
  refine ⟨hpos.params, fun b hb k t ht => ?_⟩
  have honly := (((h.layeredAt I).family f hf)).1
  have hdef : table.definition? I = none := congrArg Registration.definition honly
  have hpost : table.postulate? I = none := congrArg Registration.postulate honly
  have hb := List.mem_of_mem_drop hb
  have hover : b.2.Over (table.SettledBefore I) := hpos.settled.piChain.1 b hb
  have hwithout : ∀ {a : Term}, a.Over (table.SettledBefore I) → a.mentions I = false →
      a.Over fun l => l ≠ .global I ∧ table.SettledBefore I l := fun ha hI l hl =>
    ⟨Term.mentions_eq_false_iff.1 hI l hl, ha l hl⟩
  have hform : b.2.PositiveOver (fun l => l ≠ .global I ∧ table.SettledBefore I l) I := by
    refine (hpos.arguments b hb).imp (hwithout hover) fun ⟨args, heq, hargs⟩ => ⟨args, heq, ?_⟩
    rw [heq, Term.over_apps] at hover
    exact fun a ha => hwithout (hover.2 a ha) (hargs a ha)
  exact (hform.steps? (h.unfolds (defined_of_family? hf)) hdef hpost ht).positive fun hI => hI.1 rfl

end SymbolTable

/-! ## Sessions -/

namespace Session

variable {withPrelude : Bool} {s : Session} {f : Family}

/-- **Every table that is reached without a global of the placeholder's name is layered.** -/
theorem Reachable.layered
    (h : Reachable options withPrelude (fun st => Term.placeholder ∉ st.provides) s) :
    s.table.Layered := by
  have hinv : SymbolTable.Invariant options (Term.placeholder ∉ ·.provides) SymbolTable.Layered :=
    ⟨.empty, fun d _ _ hd hl hpub => hl.publish hd hpub, fun _ _ _ hl hhint => hl.addHint hhint⟩
  exact h.invariant hinv (by decide) fun d hd => hd

/-- **Every registered inductive type is strictly positive, also after unfolding.**  Whatever
commands a session executes, if none of them declares a global of the placeholder's name, then an
inductive type is mentioned in no parameter of its constructors, and the types of their other
arguments do not mention it or are headed by it, however far they are reduced. -/
theorem positive_executeAll {persistent : Bool}
    (h : (Session.start options withPrelude persistent).value = .ok s) (inputs : List Text)
    (hinputs : ∀ input ∈ inputs, ∀ command, parseCommand input = .ok command →
      Term.placeholder ∉ command.statement.provides)
    (hf : (s.executeAll inputs).table.family? I = some f) :
    (∀ C ∈ f.constructors, ∃ c, (s.executeAll inputs).table.constructor? C = some c ∧
      c.family = I) ∧
    ∀ C c, (s.executeAll inputs).table.constructor? C = some c → c.family = I →
      (s.executeAll inputs).table.PositiveAt I f.params c.type := by
  have hlayered := (Reachable.executeAll_of (.start h) hinputs).layered
  refine ⟨((hlayered.layeredAt I).family f hf).2, ?_⟩
  rintro C c hc rfl
  obtain ⟨g, hg, hpos⟩ := (hlayered.layeredAt C).constructor c hc
  cases hf.symm.trans hg
  exact hlayered.positiveAt hf hpos

/-- A tree over a proposition, whose nodes carry a refutation: what the type of that argument
unfolds to does not mention trees either. -/
theorem positive_executeAll_tree :
    let inputs : List Text := [Text.ofString
      "Inductive T (A : Prop) := leaf : T A | node : Not A -> T A -> T A."]
    ∃ s f c, (Session.start ⟨100, false, false, false⟩ true false).value = .ok s ∧
      (s.executeAll inputs).table.family? "T" = some f ∧ f.params = 1 ∧
      f.constructors = ["leaf", "node"] ∧
      (s.executeAll inputs).table.constructor? "node" = some c ∧ c.family = "T" ∧
      (s.executeAll inputs).table.PositiveAt "T" 1 c.type := by
  rw [Text.ofString_ofList]
  intro inputs
  obtain ⟨table, htable, hknown⟩ :=
    Verdict.exists_ok_of_any (v := initialTable ⟨100, false, false, false⟩ true)
      (P := fun table =>
        let s : Session := ⟨⟨100, false, false, false⟩, true, table⟩
        ((s.executeAll inputs).table.family? "T").map (fun f => (f.params, f.constructors)) =
            some (1, ["leaf", "node"]) ∧
          ((s.executeAll inputs).table.constructor? "node").map (·.family) = some "T")
      (by decide +kernel)
  have hstart : (Session.start ⟨100, false, false, false⟩ true false).value =
      .ok ⟨⟨100, false, false, false⟩, true, table⟩ :=
    start_eq_ok_iff.2 ⟨table, htable, rfl⟩
  have hinputs : ∀ input ∈ inputs, ∀ command, parseCommand input = .ok command →
      Term.placeholder ∉ command.statement.provides := by
    have hall : ∀ input ∈ inputs, (parseCommand input).toOption.all
        (fun command => !command.statement.provides.contains Term.placeholder) = true := by
      decide +kernel
    intro input hinput command hparse
    simpa [hparse, Except.toOption] using hall input hinput
  obtain ⟨f, hf, heq⟩ := Option.map_eq_some_iff.1 hknown.1
  obtain ⟨c, hc, hfamily⟩ := Option.map_eq_some_iff.1 hknown.2
  rw [Prod.mk.injEq] at heq
  refine ⟨_, f, c, hstart, hf, heq.1, heq.2, hc, hfamily, ?_⟩
  rw [← heq.1]
  exact (positive_executeAll hstart inputs hinputs hf).2 "node" c hc hfamily

end Session

end ProofKernel
