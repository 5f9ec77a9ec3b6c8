/-!
# Universes

The sorts of the calculus: the universe of propositions, and a hierarchy of universes of types with
levels in 64-bit words.

* `Universe.succ` is the universe a universe lives in.
* `Universe.max` is the universe of a product over two universes.
* `Universe.le` is cumulativity.
-/

set_option autoImplicit false
namespace ProofKernel

/-- A universe: of propositions, or of types at a level. -/
inductive Universe where
  | prop
  | type (level : Int64)
deriving DecidableEq, Repr, Inhabited

namespace Universe

def isProp : Universe → Bool
  | prop => true
  | type _ => false

/-- The universe that contains a universe.  The level past the last is the first. -/
def succ : Universe → Universe
  | prop => type 0
  | type level => type (level + 1)

/-- The greater of two universes. -/
def max : Universe → Universe → Universe
  | prop, v => v
  | u, prop => u
  | type i, type j => type (if i ≤ j then j else i)

/-- Cumulativity: propositions are included in every universe, types in those of higher levels. -/
def le : Universe → Universe → Bool
  | prop, _ => true
  | type _, prop => false
  | type i, type j => i ≤ j

/-- A universe as it is written. -/
def render : Universe → String
  | prop => "Prop"
  | type level => "Type" ++ toString level.toInt

theorem le_refl (u : Universe) : u.le u = true := by
  cases u <;> simp [le]

theorem le_trans {u v w : Universe} (h : u.le v = true) (k : v.le w = true) :
    u.le w = true := by
  cases u <;> cases v <;> cases w <;> simp_all [le]
  exact Int64.le_trans h k

theorem le_max_left (u v : Universe) : u.le (u.max v) = true := by
  cases u <;> cases v <;> simp [le, max]
  split <;> simp_all

theorem le_max_right (u v : Universe) : v.le (u.max v) = true := by
  cases u <;> cases v <;> simp [le, max]
  split <;> simp_all
  rename_i h
  exact Int64.le_of_lt h

end Universe

end ProofKernel
