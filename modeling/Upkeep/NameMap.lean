import Upkeep.Text.Basic

/-!
Finite maps from names.  Entries stand in ascending order of their names, each
name once, so that two maps built from the same facts are the same list.
-/

namespace Upkeep

/-- A finite map from names, as its entries in ascending order. -/
abbrev NameMap (Value : Type) := List (Text × Value)

namespace NameMap

variable {Value : Type}

def get? (name : Text) : NameMap Value → Option Value
  | [] => none
  | (other, value) :: rest => if name = other then some value else get? name rest

def set (name : Text) (value : Value) : NameMap Value → NameMap Value
  | [] => [(name, value)]
  | (other, old) :: rest =>
      if name = other then (name, value) :: rest
      else if name < other then (name, value) :: (other, old) :: rest
      else (other, old) :: set name value rest

def remove (name : Text) : NameMap Value → NameMap Value
  | [] => []
  | (other, value) :: rest =>
      if name = other then rest else (other, value) :: remove name rest

@[simp]
theorem get?_set_self
    (name : Text) (value : Value) (map : NameMap Value) :
    get? name (set name value map) = some value := by
  induction map with
  | nil => simp [set, get?]
  | cons first rest inductionHypothesis =>
      obtain ⟨other, old⟩ := first
      unfold set
      split
      · simp [get?]
      · split
        · simp [get?]
        · simp_all [get?]

theorem get?_set_of_ne
    {name other : Text}
    (different : other ≠ name)
    (value : Value) (map : NameMap Value) :
    get? other (set name value map) = get? other map := by
  induction map with
  | nil => simp [set, get?, different]
  | cons first rest inductionHypothesis =>
      obtain ⟨present, old⟩ := first
      unfold set
      split
      next same => subst same; simp [get?, different]
      · split
        · simp [get?, different]
        · simp [get?, inductionHypothesis]

end NameMap

end Upkeep
