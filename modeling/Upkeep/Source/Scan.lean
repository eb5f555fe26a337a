import Upkeep.Source.Comment
import Upkeep.Source.Declaration

/-!
The declarations of a whole source text.  Only lines of code are read, each on
its own; a template head hides the declaration below it, over blank lines and
comments.
-/

namespace Upkeep

/-- Whether a line of code begins a template. -/
def opensTemplate (code : Text) : Bool :=
  (after? "template".toList (trimStart code)).isSome

/-- Whether a template head on this line still waits for its declaration. -/
def templatePending (code : Text) : Bool :=
  opensTemplate code && !code.any fun c => c == '{' || c == ';'

/-- The declarations of classified lines, numbered from a given line, where the
flag says whether a template head waits for its declaration. -/
def declarationsFrom (afterTemplate : Bool) (number : Nat) :
    List (Text × LineKind) → List Declaration
  | [] => []
  | (line, kind) :: rest =>
      match kind with
      | .code =>
          let code := codeOf line
          let found :=
            if afterTemplate || opensTemplate code then []
            else (declaredBy code).map fun (kind, name) => ⟨name, kind, number⟩
          found ++ declarationsFrom (templatePending code) (number + 1) rest
      | .blank | .comment => declarationsFrom afterTemplate (number + 1) rest
      | .preprocessor | .continuation => declarationsFrom false (number + 1) rest

/-- The declarations of a source text, in the order in which they stand. -/
def scan (text : Text) : List Declaration :=
  let sourceLines := lines text
  declarationsFrom false 0 (sourceLines.zip (classify sourceLines))

end Upkeep
