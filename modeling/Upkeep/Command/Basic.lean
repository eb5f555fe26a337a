import Upkeep.Command.Words

/-!
A build command: a program and its arguments, read from one line of words.
-/

namespace Upkeep

/-- A program and its arguments. -/
structure BuildCommand where
  program : Text
  arguments : List Text
  deriving DecidableEq, Repr

/-- Why a line is no build command. -/
inductive CommandError where
  | empty
  | unbalanced (line : Text)
  deriving DecidableEq, Repr

def CommandError.message : CommandError → String
  | .empty => "the build command is empty"
  | .unbalanced line => s!"the build command has unbalanced quoting: {String.ofList line}"

def BuildCommand.ofLine (line : Text) : Except CommandError BuildCommand :=
  match commandWords? line with
  | none => .error (.unbalanced line)
  | some [] => .error .empty
  | some (program :: arguments) => .ok ⟨program, arguments⟩

end Upkeep
