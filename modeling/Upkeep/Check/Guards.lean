import Upkeep.Check.Basic
import Upkeep.Source.Directive
import Upkeep.Source.LineKind

/-!
The check for include guards.  A header is guarded by `#pragma once`, or by an
`#ifndef` as its first conditional whose name the next directive defines.
-/

namespace Upkeep

namespace Directive

/-- Whether a directive opens a conditional part. -/
def isConditional (directive : Directive) : Bool :=
  directive.keyword == "if".toList || directive.keyword == "ifdef".toList ||
    directive.keyword == "ifndef".toList

/-- The name whose absence a directive asks for. -/
def asksForAbsence? (directive : Directive) : Option Text :=
  if directive.keyword = "ifndef".toList ∧ directive.operandWord ≠ [] then
    some directive.operandWord
  else none

end Directive

/-- The directives of a text, line by line. -/
def directives (content : Text) : List Directive :=
  ((lines content).zip (classify (lines content))).filterMap fun (line, kind) =>
    if kind = .preprocessor then Directive.ofLine? line else none

/-- Whether the first conditional is a guard. -/
def opensWithGuard : List Directive → Bool
  | [] => false
  | directive :: rest =>
      if directive.isConditional then
        match directive.asksForAbsence? with
        | none => false
        | some name => rest.head?.bind Directive.defines? == some name
      else opensWithGuard rest

/-- Whether a header is protected against being included twice. -/
def isGuarded (content : Text) : Bool :=
  (directives content).any Directive.isPragmaOnce || opensWithGuard (directives content)

/-- Warn about headers without include guards. -/
def checkGuards : Check where
  name := "check-guards"
  warnings := fun _ file =>
    if isGuarded file.content then []
    else [⟨file.path, none, .missingGuards, "missing include guards".toList⟩]

end Upkeep
