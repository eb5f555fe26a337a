import Upkeep.Command.Pattern.Reader
import Upkeep.Path.Basic
import Upkeep.Tree.Basic

/-!
Patterns for names of files: a star fits any characters, a question mark fits one,
and a bracketed set one of its own.  What is quoted stands for itself.
-/

namespace Upkeep

/-- A text in which each character is quoted or not. -/
abbrev MarkedText := List (Bool × Char)

namespace MarkedText

/-- The characters alone. -/
def plain (text : MarkedText) : Text :=
  text.map (·.2)

/-- Whether something in a text makes it a pattern. -/
def isPattern (text : MarkedText) : Bool :=
  text.any fun (quoted, c) => !quoted && (c == '*' || c == '?' || c == '[')

/-- A bracketed set after its opening bracket; an exclamation mark at its head takes
all other characters. -/
def bracket? (text : MarkedText) : Option (Pattern × MarkedText) :=
  let inside := match text.plain with
    | '!' :: rest => '^' :: rest
    | rest => rest
  match Pattern.bracket inside with
  | .ok (pattern, rest) => some (pattern, text.drop (text.length - rest.length))
  | .error _ => none

/-- Read a pattern that is not longer than the bound. -/
def patternWithin : Nat → MarkedText → Pattern
  | 0, _ => .empty
  | _ + 1, [] => .empty
  | bound + 1, (quoted, c) :: rest =>
      let one := Pattern.one true []
      if quoted then .sequence (.char c) (patternWithin bound rest)
      else
        match c with
        | '*' => .sequence (.repetition one 0 none) (patternWithin bound rest)
        | '?' => .sequence one (patternWithin bound rest)
        | '[' =>
            match bracket? rest with
            | some (set, rest) => .sequence set (patternWithin bound rest)
            | none => .sequence (.char c) (patternWithin bound rest)
        | c => .sequence (.char c) (patternWithin bound rest)

def pattern (text : MarkedText) : Pattern :=
  patternWithin text.length text

def fits (pattern : MarkedText) (text : Text) : Bool :=
  (pattern.pattern.ends ⟨none, text⟩).any (·.after.isEmpty)

/-- The lengths of the beginnings of a text that a pattern fits. -/
def fittingLengths (pattern : MarkedText) (text : Text) : List Nat :=
  (List.range (text.length + 1)).filter fun length => pattern.fits (text.take length)

/-- The paths that a pattern fits, given part by part, behind those found so far.  A
dot at the head of a name is only fitted by a dot. -/
def pathsFrom (tree : Tree) : List MarkedText → List Text → List Text
  | [], found => found
  | part :: parts, found =>
      pathsFrom tree parts (found.flatMap fun folder =>
        let child := fun (name : Text) => folder ++ name ++ if parts.isEmpty then [] else ['/']
        if part.isPattern then
          match tree.node? (if folder = [] then ['.'] else folder) with
          | some (.folder _ entries) =>
              ((entries.map (·.1)).filter fun name =>
                (name.head? != some '.' || part.plain.head? == some '.') && part.fits name).map child
          | _ => []
        else if (tree.node? (child part.plain)).isSome then [child part.plain]
        else [])

/-- The paths that a field stands for: those that it fits, or itself if there is none. -/
def paths (tree : Tree) (field : MarkedText) : List Text :=
  if field.isPattern then
    match pathsFrom tree (field.splitOnP (·.2 == '/')) [[]] with
    | [] => [field.plain]
    | found => found
  else [field.plain]

end MarkedText

end Upkeep
