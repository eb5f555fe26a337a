import Upkeep.Rule.Basic
import Upkeep.Rule.Constify.Settled

/-!
The rule that puts `const` before the type of a variable of an indexed type.
-/

namespace Upkeep

/-- Put `const` into each line of code that declares a variable of an indexed type. -/
def constify (index : SymbolIndex) : Rule where
  name := "constify"
  kind := .code
  edit? := fun _ line => (propose? index line).map .replaceBy
  settled := by
    intro path line text edited
    obtain ⟨new, proposed, same⟩ := Option.map_eq_some_iff.1 edited
    cases same
    rw [propose?_settled proposed, Option.map_none]
  noNewline := by
    intro path line text edited
    obtain ⟨new, proposed, same⟩ := Option.map_eq_some_iff.1 edited
    cases same
    exact propose?_noNewline proposed
  sameEnd := by
    intro path line text edited
    obtain ⟨new, proposed, same⟩ := Option.map_eq_some_iff.1 edited
    cases same
    exact propose?_sameEnd proposed

end Upkeep
