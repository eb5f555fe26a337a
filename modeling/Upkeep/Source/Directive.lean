import Upkeep.Source.Comment

/-!
Preprocessor directives: the word after the number sign, and what follows it.
-/

namespace Upkeep

open Unicode

/-- A directive of the preprocessor. -/
structure Directive where
  keyword : Text
  operand : Text
  deriving DecidableEq, Repr

namespace Directive

def ofLine? (line : Text) : Option Directive :=
  match trimStart line with
  | '#' :: rest =>
      let rest := trimStart rest
      some ⟨firstWord rest, afterWord rest⟩
  | _ => none

/-- The word that follows a directive after a gap. -/
def operandWord (directive : Directive) : Text :=
  firstWord (trimStart directive.operand)

def isPragmaOnce (directive : Directive) : Bool :=
  directive.keyword == "pragma".toList && directive.operandWord == "once".toList

/-- The name that a `#define` gives a meaning to. -/
def defines? (directive : Directive) : Option Text :=
  if directive.keyword = "define".toList ∧ directive.operandWord ≠ [] then
    some directive.operandWord
  else none

/-- The file that an `#include` names between quotes or angle brackets. -/
def includes? (directive : Directive) : Option Text :=
  if directive.keyword = "include".toList then
    match trimStart directive.operand with
    | [] => none
    | c :: rest =>
        if c = '<' ∨ c = '"' then
          let target := rest.takeWhile fun c => c != '>' && c != '"'
          if target = [] ∨ target.length = rest.length then none else some target
        else none
  else none

end Directive

/-- The file that a line includes. -/
def includeTarget? (line : Text) : Option Text :=
  (Directive.ofLine? line).bind Directive.includes?

end Upkeep
