/-!
# Maps from names

A map from names, as a list of pairs in which a name stands at most once.

* `NameMap.put` sets the value of a name, `NameMap.get?` reads it.
* `NameMap.merge` puts every pair of another map.
-/

set_option autoImplicit false
namespace ProofKernel

/-- A map from names. -/
abbrev NameMap (α : Type) : Type := List (String × α)

namespace NameMap

variable {α : Type}

/-- The value of a name. -/
def get? (m : NameMap α) (name : String) : Option α :=
  match m with
  | [] => none
  | (k, v) :: rest => if k = name then some v else get? rest name

/-- Whether the name has a value. -/
def contains (m : NameMap α) (name : String) : Bool :=
  (get? m name).isSome

/-- Sets the value of a name, in place of the one it had. -/
def put (m : NameMap α) (name : String) (value : α) : NameMap α :=
  match m with
  | [] => [(name, value)]
  | (k, v) :: rest => if k = name then (k, value) :: rest else (k, v) :: put rest name value

/-- The map without a name. -/
def erase (m : NameMap α) (name : String) : NameMap α :=
  m.filter fun (k, _) => k ≠ name

/-- The map with every pair of `other` put into it. -/
def merge (m other : NameMap α) : NameMap α :=
  other.foldl (fun m (k, v) => put m k v) m

/-- The names that have a value. -/
def names (m : NameMap α) : List String :=
  m.map Prod.fst

@[simp] theorem get?_nil (name : String) : get? ([] : NameMap α) name = none := rfl

theorem get?_put (m : NameMap α) (name other : String) (value : α) :
    get? (put m name value) other = if name = other then some value else get? m other := by
  induction m with
  | nil => simp [put, get?]
  | cons p rest ih =>
    obtain ⟨k, v⟩ := p
    simp only [put]
    split
    · next h => subst h; simp only [get?]; split <;> rfl
    · next h => simp only [get?, ih]; grind

@[simp] theorem get?_put_self (m : NameMap α) (name : String) (value : α) :
    get? (put m name value) name = some value := by
  simp [get?_put]

end NameMap

end ProofKernel
