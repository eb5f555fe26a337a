/-!
Sets of code points written as sorted, disjoint, inclusive ranges.
-/

namespace Upkeep.Unicode

/-- Inclusive code point ranges in ascending order. -/
abbrev RangeTable := List (Nat × Nat)

/-- Whether a code point lies in one of the ranges. -/
def RangeTable.covers (table : RangeTable) (code : Nat) : Bool :=
  table.any fun range => range.1 ≤ code && code ≤ range.2

theorem RangeTable.covers_iff {table : RangeTable} {code : Nat} :
    table.covers code = true ↔
      ∃ range ∈ table, range.1 ≤ code ∧ code ≤ range.2 := by
  simp [RangeTable.covers]

end Upkeep.Unicode
