import Upkeep.NameMap
import Upkeep.Text.Quoted

/-!
Values of settings before their types are looked at, and layers of them.
-/

namespace Upkeep

/-- A value; a fraction is held as its shortest text. -/
inductive Value where
  | null
  | bool (value : Bool)
  | whole (value : Int)
  | fraction (text : Text)
  | text (text : Text)
  | list (values : List Value)
  | map (entries : List (Text × Value))

namespace Value

/-- What a value is, in the words of a message about a wrong type. -/
def describe : Value → Text
  | .null => "null".toList
  | .bool value => s!"boolean `{value}`".toList
  | .whole value => s!"integer `{value}`".toList
  | .fraction digits => "floating point `".toList ++ digits ++ ['\x60']
  | .text content => "string ".toList ++ quoted content
  | .list _ => "sequence".toList
  | .map _ => "map".toList

/-- The kind of a value, in the words of a message about the key `extends`. -/
def kindName : Value → String
  | .null => "null"
  | .bool _ => "bool"
  | .whole _ | .fraction _ => "number"
  | .text _ => "string"
  | .list _ => "array"
  | .map _ => "object"

/-- The value under a name. -/
def get? (name : Text) : Value → Option Value
  | .map entries => NameMap.get? name entries
  | _ => none

mutual

/-- A value laid over another one: maps entry by entry, anything else replaces. -/
def overlay (under : Value) : Value → Value
  | .map upper =>
      match under with
      | .map entries => .map (overlayEntries entries upper)
      | _ => .map upper
  | upper => upper

/-- Entries laid over others one by one. -/
def overlayEntries (under : List (Text × Value)) :
    List (Text × Value) → List (Text × Value)
  | [] => under
  | (name, value) :: rest =>
      let value :=
        match NameMap.get? name under with
        | some old => old.overlay value
        | none => value
      overlayEntries (NameMap.set name value under) rest

end

end Value

/-- A layer of settings: values by name. -/
abbrev Settings := NameMap Value

end Upkeep
