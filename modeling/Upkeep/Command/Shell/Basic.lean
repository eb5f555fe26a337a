import Upkeep.Command.Basic
import Upkeep.Command.Number
import Upkeep.Command.Script.Basic
import Upkeep.Command.Session

/-!
The state of a running shell.
-/

namespace Upkeep

/-- Start a program, unless it cannot be started. -/
abbrev Launcher := BuildCommand → Streams → Session → Except Fault (Status × Session)

/-- Where a shell goes on: with the next command, behind or at the head of a loop it
is in, behind the function it is in, or nowhere. -/
inductive Flow where
  | onward
  | behindLoop (more : Nat)
  | nextRound (more : Nat)
  | behindFunction
  | nowhere
  deriving DecidableEq, Repr

/-- A running shell. -/
structure Shell where
  name : Text
  arguments : List Text
  values : NameMap Text
  functions : NameMap ShellScript
  status : Status
  /-- The status of the last substitution. -/
  substituted : Option Status
  line : Nat
  /-- How many loops the shell is in. -/
  loops : Nat
  flow : Flow
  /-- A command that fails ends the shell. -/
  isStrict : Bool
  /-- The status is going to be looked at, so that failing is no reason to end. -/
  isTested : Bool
  session : Session

namespace Shell

def start (name : Text) (arguments : List Text) (session : Session) : Shell :=
  ⟨name, arguments, [], [], 0, none, 1, 0, .onward, false, false, session⟩

/-- Whether a shell goes on with the next command. -/
def isOnward (shell : Shell) : Bool :=
  shell.flow == .onward

/-- The shell after a command with a status. -/
def finished (shell : Shell) (result : Status × Session) : Shell :=
  { shell with status := result.1, session := result.2 }

/-- What stands in front of a message of the shell. -/
def label (shell : Shell) : String :=
  s!"{String.ofList shell.name}: {shell.line}: "

/-- A message of the shell. -/
def complain (shell : Shell) (streams : Streams) (status : Status) (text : String) : Shell :=
  shell.finished (status, shell.session.sayLine streams.messages (shell.label ++ text))

/-- A message of the shell that ends it. -/
def abort (shell : Shell) (streams : Streams) (text : String) : Shell :=
  { shell.complain streams 2 text with flow := .nowhere }

/-- Set a variable. -/
def assign (shell : Shell) (name value : Text) : Shell :=
  { shell with values := NameMap.set name value shell.values }

/-- The value of a parameter as one text, if it has one. -/
def valueOf? (shell : Shell) (name : Text) : Option Text :=
  match name with
  | ['?'] => some (toString shell.status).toList
  | ['#'] => some (toString shell.arguments.length).toList
  | ['$'] => some ['1']
  | ['@'] | ['*'] =>
      if shell.arguments.isEmpty then none else some ([' '].intercalate shell.arguments)
  | ['0'] => some shell.name
  | _ =>
      if name.all Char.isDigit then shell.arguments[digitsValue 10 name - 1]?
      else NameMap.get? name shell.values

/-- The shell after a subshell of its own: only what the subshell did to the files and
its status are left. -/
def afterSubshell (shell inner : Shell) : Shell :=
  let session := { inner.session with
    tree := { inner.session.tree with workingDir := shell.session.tree.workingDir } }
  { shell with status := inner.status, session }

/-- Run something whose status is going to be looked at. -/
def tested (shell : Shell) (run : Shell → Shell) : Shell :=
  { run { shell with isTested := true } with isTested := shell.isTested }

/-- End a strict shell if its last command has failed. -/
def checked (shell : Shell) : Shell :=
  if shell.isStrict && !shell.isTested && shell.status != 0 && shell.isOnward then
    { shell with flow := .nowhere }
  else shell

end Shell

end Upkeep
