import ProofKernel.Proofs.Session.Registration

/-!
# Addition by recursion

The sum of two natural numbers, defined by a fixpoint on the first one, is computed by unfolding the
fixpoint once for each constructor of the first number.  This file follows the reduction from the
definition to the numeral.

* `Naturals.declaration` and `Naturals.addition` are the declarations, `Naturals.numeral` the
  numbers.
* `SymbolTable.Adds` is what a table has to know of them; a table that registers both declarations
  does (`SymbolTable.Adds.of_registers`).
* `SymbolTable.Adds.steps?_succ`: **one round of the recursion** takes five steps and moves a
  constructor out of the fixpoint.  `SymbolTable.Adds.steps?_sum` counts the steps of a sum.
* `Session.normalize_sum`: **sums are computed** in every session that has accepted the
  declarations, with five units of fuel for each round.
-/

set_option autoImplicit false
namespace ProofKernel

/-! ## The declarations -/

namespace Naturals

/-- The type of the natural numbers. -/
def nat : Term :=
  .global "Nat"

/-- The number after another one. -/
def succ (t : Term) : Term :=
  .app (.global "Succ") t

/-- A natural number in terms of its constructors. -/
def numeral : Nat → Term
  | 0 => .global "Zero"
  | n + 1 => succ (numeral n)

/-- Two arguments. -/
def plus (f a b : Term) : Term :=
  .app (.app f a) b

/-- What the sum of a number and `b` is, when smaller numbers are added by `self`. -/
def choice (self a b : Term) : Term :=
  .elim a nat [b, .lam "k" (.global Term.placeholder) (succ (plus self (.var "k") b))]

/-- The function behind the fixpoint, when smaller numbers are added by `self`. -/
def body (self : Term) : Term :=
  .lam "n" nat (.lam "m" nat (choice self (.var "n") (.var "m")))

/-- Addition, by recursion on the first number. -/
def adder : Term :=
  .fix "add" (body (.var "add"))

/-- The sum of two terms by the definition. -/
def sum (a b : Term) : Term :=
  plus (.global "add") a b

/-- The declaration of the natural numbers. -/
def declaration : Declaration :=
  .family "Nat" [] none [("Zero", nat), ("Succ", .arrow nat nat)]

/-- The definition of addition. -/
def addition : Declaration :=
  .definition "add" (some (.arrow nat (.arrow nat nat))) adder

/-- The natural numbers as they are declared in a session. -/
def declarationText : Text :=
  Text.ofString "Inductive Nat := Zero : Nat | Succ : Nat -> Nat."

/-- Addition as it is defined in a session. -/
def additionText : Text :=
  Text.ofString "Definition add : Nat -> Nat -> Nat :=
  fix add => fun n : Nat => fun m : Nat =>
    match n return Nat with
    | Zero => m
    | Succ k => Succ (add k m)
    end."

theorem parse_declarationText :
    ((parseCommand declarationText).toOption.map (·.statement)) = some (.declare declaration) := by
  rw [declarationText, Text.ofString_ofList]
  decide +kernel

theorem parse_additionText :
    ((parseCommand additionText).toOption.map (·.statement)) = some (.declare addition) := by
  rw [additionText, Text.ofString_ofList]
  decide +kernel

/-! ## Substitution of closed terms -/

@[simp] theorem freeVars_numeral (n : Nat) : (numeral n).freeVars = [] := by
  induction n with
  | zero => rfl
  | succ n ih => exact ih

theorem freeVars_adder : adder.freeVars = [] := by
  decide

variable {x : String} {a b r : Term}

/-- A closed term captures nothing. -/
theorem substitute_lam_of_closed (hr : r.freeVars = []) {y : String} (hy : y ≠ x) :
    (Term.lam y a b).substitute x r = .lam y (a.substitute x r) (b.substitute x r) := by
  rw [Term.substitute_lam, Term.substituteBody, if_neg hy, hr]
  rfl

/-- The fixpoint unfolds into its own body. -/
theorem substitute_adder : (body (.var "add")).substitute "add" adder = body adder := by
  decide

theorem substitute_choice (hr : r.freeVars = []) (hx : "k" ≠ x) :
    (choice adder a b).substitute x r = choice adder (a.substitute x r) (b.substitute x r) := by
  rw [choice, Term.substitute_elim, List.map_cons, List.map_singleton,
    substitute_lam_of_closed hr hx, succ, plus, Term.substitute_app, Term.substitute_app,
    Term.substitute_app, Term.substitute_of_closed freeVars_adder, Term.substitute_var, if_neg hx]
  rfl

/-- The function of the second argument, once the first one is known. -/
theorem substitute_first (ha : a.freeVars = []) :
    (Term.lam "m" nat (choice adder (.var "n") (.var "m"))).substitute "n" a =
      .lam "m" nat (choice adder a (.var "m")) := by
  rw [substitute_lam_of_closed ha (by decide), substitute_choice ha (by decide)]
  rfl

/-- The choice between the constructors, once both arguments are known. -/
theorem substitute_second (ha : a.freeVars = []) (hb : b.freeVars = []) :
    (choice adder a (.var "m")).substitute "m" b = choice adder a b := by
  rw [substitute_choice hb (by decide), Term.substitute_of_closed ha]
  rfl

/-- The recursive call. -/
theorem substitute_predecessor (hb : b.freeVars = []) :
    (succ (plus adder (.var "k") b)).substitute "k" a = succ (plus adder a b) := by
  rw [succ, plus, Term.substitute_app, Term.substitute_app, Term.substitute_app,
    Term.substitute_of_closed freeVars_adder, Term.substitute_of_closed hb]
  rfl

end Naturals

/-! ## Steps -/

namespace SymbolTable

open Naturals

/-- What is known of the natural numbers and of addition. -/
structure Adds (table : SymbolTable) : Prop where
  family : ∃ arity, table.family? "Nat" = some ⟨arity, 0, ["Zero", "Succ"]⟩
  zero : ∃ type, table.constructor? "Zero" = some ⟨"Nat", type⟩
  succ : ∃ type, table.constructor? "Succ" = some ⟨"Nat", type⟩
  add : ∃ type, table.definition? "add" = some ⟨type, adder⟩
  inert_zero : table.definition? "Zero" = none
  inert_succ : table.definition? "Succ" = none

variable {table : SymbolTable} {a b t u : Term} {k : Nat}

namespace Adds

theorem constructorForm?_zero (h : table.Adds) :
    table.constructorForm? (numeral 0) = some (0, []) := by
  obtain ⟨_, hfamily⟩ := h.family
  obtain ⟨_, hzero⟩ := h.zero
  simp [constructorForm?, numeral, Term.headGlobal?, Term.head, Term.args, hfamily, hzero,
    List.findIdx?_cons]

theorem constructorForm?_succ (h : table.Adds) (t : Term) :
    table.constructorForm? (Naturals.succ t) = some (1, [t]) := by
  obtain ⟨_, hfamily⟩ := h.family
  obtain ⟨_, hsucc⟩ := h.succ
  simp [constructorForm?, Naturals.succ, Term.headGlobal?, Term.head, Term.args, hfamily, hsucc,
    List.findIdx?_cons]

theorem isSome_constructorForm? (h : table.Adds) (n : Nat) :
    (table.constructorForm? (numeral n)).isSome = true := by
  cases n with
  | zero =>
    rw [h.constructorForm?_zero]
    rfl
  | succ n =>
    rw [numeral, h.constructorForm?_succ]
    rfl

/-- The fixpoint is structural in its first argument. -/
theorem structuralIndex?_body (h : table.Adds) (self : Term) :
    table.structuralIndex? (body self) = some 0 := by
  obtain ⟨_, hfamily⟩ := h.family
  simp [structuralIndex?, structuralIndexOf, body, nat, Term.lambdaChain, Term.headGlobal?,
    Term.head, isFamily, hfamily, List.findIdx?_cons]

/-! ### One step of each kind -/

/-- The definition is unfolded. -/
theorem step?_sum (h : table.Adds) (n : Nat) (b : Term) :
    table.step? (sum (numeral n) b) = some (plus adder (numeral n) b) := by
  obtain ⟨_, hadd⟩ := h.add
  have hname : table.step? (.global "add") = some adder := by
    rw [step?, hadd]
    rfl
  have hinner : table.step? (.app (.global "add") (numeral n)) =
      some (.app adder (numeral n)) := by
    rw [step?_app (by rintro _ _ _ ⟨⟩), hname]
    rfl
  have harith : table.arithmetic? (sum (numeral n) b) = none := by
    cases n <;> rfl
  rw [sum, plus] at harith ⊢
  rw [step?_app (by rintro _ _ _ ⟨⟩), harith, hinner]
  rfl

/-- The fixpoint is unfolded, since its first argument is a constructor. -/
theorem step?_adder (h : table.Adds) (n : Nat) (b : Term) :
    table.step? (plus adder (numeral n) b) = some (plus (body adder) (numeral n) b) := by
  obtain ⟨form, hform⟩ := Option.isSome_iff_exists.1 (h.isSome_constructorForm? n)
  have hdelta : table.deltaStep? (plus adder (numeral n) b) =
      some (plus (body adder) (numeral n) b) := by
    have hsubst := substitute_adder
    rw [adder] at hsubst
    simp [deltaStep?, plus, adder, Term.head, Term.args, h.structuralIndex?_body, hform, hsubst,
      Term.apps]
  rw [plus] at hdelta ⊢
  rw [step?_app (by rintro _ _ _ ⟨⟩), hdelta]
  rfl

/-- The first argument is passed. -/
theorem step?_first (ha : a.freeVars = []) (b : Term) :
    table.step? (plus (body adder) a b) =
      some (.app (.lam "m" nat (choice adder a (.var "m"))) b) := by
  have hinner : table.step? (.app (body adder) a) =
      some (.lam "m" nat (choice adder a (.var "m"))) := by
    rw [body, step?_app_lam, substitute_first ha]
  rw [plus, step?_app (by rintro _ _ _ ⟨⟩), hinner]
  rfl

/-- The second argument is passed. -/
theorem step?_second (ha : a.freeVars = []) (hb : b.freeVars = []) :
    table.step? (.app (.lam "m" nat (choice adder a (.var "m"))) b) = some (choice adder a b) := by
  rw [step?_app_lam, substitute_second ha hb]

/-- The sum with zero is chosen. -/
theorem step?_choice_zero (h : table.Adds) (b : Term) :
    table.step? (choice adder (numeral 0) b) = some b := by
  rw [choice, step?, h.constructorForm?_zero]
  rfl

/-- The sum with the number after another one is chosen. -/
theorem step?_choice_succ (h : table.Adds) (t b : Term) :
    table.step? (choice adder (Naturals.succ t) b) = some (.app (.lam "k"
      (.global Term.placeholder) (Naturals.succ (plus adder (.var "k") b))) t) := by
  rw [choice, step?, h.constructorForm?_succ]
  rfl

/-- The number before is passed. -/
theorem step?_predecessor (hb : b.freeVars = []) (t : Term) :
    table.step? (.app (.lam "k" (.global Term.placeholder)
      (Naturals.succ (plus adder (.var "k") b))) t) = some (Naturals.succ (plus adder t b)) := by
  rw [step?_app_lam, substitute_predecessor hb]

/-- A number is reduced by reducing the one before. -/
theorem step?_succ (h : table.Adds) (t : Term) :
    table.step? (Naturals.succ t) = (table.step? t).map Naturals.succ := by
  have hname : table.step? (.global "Succ") = none := by
    rw [step?, h.inert_succ]
    rfl
  rw [Naturals.succ, step?_app (by rintro _ _ _ ⟨⟩), hname]
  rfl

/-- Numerals are normal forms. -/
theorem step?_numeral (h : table.Adds) (n : Nat) : table.step? (numeral n) = none := by
  induction n with
  | zero =>
    rw [numeral, step?, h.inert_zero]
    rfl
  | succ n ih =>
    rw [numeral, h.step?_succ, ih]
    rfl

/-! ### The recursion -/

theorem steps?_under_succ (h : table.Adds) (ht : table.steps? k t = some u) :
    table.steps? k (Naturals.succ t) = some (Naturals.succ u) := by
  induction k generalizing t with
  | zero =>
    cases ht
    rfl
  | succ k ih =>
    obtain ⟨t₁, hstep, hrest⟩ := Option.bind_eq_some_iff.1 ht
    rw [steps?, h.step?_succ, hstep]
    exact ih hrest

/-- The last round of the recursion ends with the second number. -/
theorem steps?_zero (h : table.Adds) (hb : b.freeVars = []) :
    table.steps? 4 (plus adder (numeral 0) b) = some b := by
  simp only [steps?, h.step?_adder, step?_first (freeVars_numeral 0),
    step?_second (freeVars_numeral 0) hb, h.step?_choice_zero, Option.bind_some]

/-- **One round of the recursion.** -/
theorem steps?_succ (h : table.Adds) (n : Nat) (hb : b.freeVars = []) :
    table.steps? 5 (plus adder (numeral (n + 1)) b) =
      some (Naturals.succ (plus adder (numeral n) b)) := by
  simp only [steps?, h.step?_adder, step?_first (freeVars_numeral (n + 1)),
    step?_second (freeVars_numeral (n + 1)) hb, Option.bind_some]
  rw [numeral, h.step?_choice_succ, Option.bind_some, step?_predecessor hb, Option.bind_some]

/-- The recursion takes a round for each constructor of the first number. -/
theorem steps?_adder (h : table.Adds) (n m : Nat) :
    table.steps? (5 * n + 4) (plus adder (numeral n) (numeral m)) = some (numeral (n + m)) := by
  induction n with
  | zero =>
    rw [Nat.zero_add m]
    exact h.steps?_zero (freeVars_numeral m)
  | succ n ih =>
    rw [show 5 * (n + 1) + 4 = 5 + (5 * n + 4) by omega, steps?_add,
      h.steps?_succ n (freeVars_numeral m), Option.bind_some, h.steps?_under_succ ih,
      Nat.succ_add, numeral]

/-- **The steps of a sum.** -/
theorem steps?_sum (h : table.Adds) (n m : Nat) :
    table.steps? (5 * n + 5) (sum (numeral n) (numeral m)) = some (numeral (n + m)) := by
  rw [show 5 * n + 5 = 1 + (5 * n + 4) by omega, steps?_add, steps?, h.step?_sum]
  exact h.steps?_adder n m

/-- A table that registers the declarations knows what is needed. -/
theorem of_registers (hdeclaration : table.Registers declaration)
    (haddition : table.Registers addition) : table.Adds := by
  obtain ⟨_, hnat⟩ := hdeclaration.alike
  obtain ⟨T, hadd⟩ := haddition.alike
  have hfamily := hnat "Nat" (by decide)
  have hzero := hnat "Zero" (by decide)
  have hsucc := hnat "Succ" (by decide)
  have hadder := hadd "add" (by decide)
  exact ⟨⟨_, congrArg Registration.family hfamily⟩,
    ⟨_, congrArg Registration.constructor hzero⟩,
    ⟨_, congrArg Registration.constructor hsucc⟩,
    ⟨T, congrArg Registration.definition hadder⟩,
    congrArg Registration.definition hzero,
    congrArg Registration.definition hsucc⟩

end Adds
end SymbolTable

/-! ## Sessions -/

namespace Session

open Naturals

/-- **Guarded recursion computes.**  In a session that has accepted the natural numbers and their
addition, the sum of two numerals is normalized to the numeral of the sum, if there are five units
of fuel for each round of the recursion. -/
theorem normalize_sum {s : Session} {inputs : List Text} (hnat : s.Accepts inputs declarationText)
    (hadd : s.Accepts inputs additionText) {options : Options} {n : Nat} (m : Nat)
    (hfuel : 5 * n + 5 ≤ options.fuel) :
    (normalize options (s.executeAll inputs).table (sum (numeral n) (numeral m))).value =
      numeral (n + m) := by
  have hadds := SymbolTable.Adds.of_registers (hnat.registers parse_declarationText)
    (hadd.registers parse_additionText)
  rw [SymbolTable.value_normalize]
  exact SymbolTable.reduce_eq_of_steps? (hadds.steps?_sum n m) (hadds.step?_numeral (n + m)) hfuel

/-- Two and one are three, after fifteen steps in a session without the prelude. -/
theorem normalize_sum_two_one :
    let options : Options := ⟨15, false, false, false⟩
    let inputs := [declarationText, additionText]
    ∃ s, (Session.start options false false).value = .ok s ∧ s.Accepts inputs declarationText ∧
      s.Accepts inputs additionText ∧
      (normalize options (s.executeAll inputs).table (sum (numeral 2) (numeral 1))).value =
        numeral 3 := by
  intro options inputs
  have hstart : (Session.start options false false).value = .ok ⟨options, false, .empty⟩ :=
    start_eq_ok_iff.2 ⟨.empty, rfl, rfl⟩
  have hnat : Session.Accepts ⟨options, false, .empty⟩ inputs declarationText := by
    refine ⟨[], [additionText], rfl, ?_⟩
    rw [execute_eq_run parse_declarationText]
    decide +kernel
  have hadd : Session.Accepts ⟨options, false, .empty⟩ inputs additionText := by
    refine ⟨[declarationText], [], rfl, ?_⟩
    rw [execute_eq_run parse_additionText, executeAll, List.foldl_cons,
      execute_eq_run parse_declarationText]
    decide +kernel
  exact ⟨_, hstart, hnat, hadd, normalize_sum hnat hadd 1 (by decide)⟩

end Session
end ProofKernel
