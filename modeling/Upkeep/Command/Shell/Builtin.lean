import Upkeep.Command.Format
import Upkeep.Command.Output
import Upkeep.Command.Shell.Basic
import Upkeep.Command.Test.Shell
import Upkeep.Command.Words

/-!
The commands of the shell itself that run no others.
-/

namespace Upkeep

/-- A command of the shell itself. -/
abbrev Builtin := List Text → Streams → Shell → Shell

namespace Builtin

/-- A program that the shell runs itself, in front of whose messages it puts its label. -/
def ofProgram (program : (label : String) → Program) (name : String) : Builtin :=
  fun arguments streams shell =>
    shell.finished (program s!"{shell.label}{name}: " arguments streams shell.session)

def test (label : String) : Program := fun arguments streams session =>
  session.tested streams (fun fault => label ++ fault.shellMessage)
    (ShellTest.value session.tree arguments)

/-- The `[` of the shell, which wants a closing bracket. -/
def bracketTest (label : String) : Program := fun arguments streams session =>
  session.tested streams (fun fault => label ++ fault.shellMessage)
    (if arguments.getLast? = some [']'] then ShellTest.value session.tree arguments.dropLast
      else .error .missingBracket)

/-- Read a number that an argument has to be. -/
def number? (argument : Text) : Option Nat :=
  if argument.isEmpty || !argument.all Char.isDigit || digitsValue 10 argument ≥ signedHalfWordCount then none
  else some (digitsValue 10 argument)

/-- A command that does something with the number that it is given, or else with
another one. -/
def withNumber (name : String) (other : Shell → Nat) (act : Nat → Shell → Shell) : Builtin :=
  fun arguments streams shell =>
    match arguments with
    | [] => act (other shell) shell
    | argument :: _ =>
        match number? argument with
        | some number => act number shell
        | none => shell.abort streams s!"{name}: Illegal number: {String.ofList argument}"

/-- Change the working folder. -/
def changeFolder : Builtin := fun arguments streams shell =>
  match arguments with
  | [] => { shell with status := 0 }
  | path :: _ =>
      match shell.session.tree.locate true path with
      | .ok ⟨place, some (.folder ..)⟩ =>
          let session := { shell.session with
            tree := { shell.session.tree with workingDir := place } }
          { shell with status := 0, session }
      | _ => shell.complain streams 2 s!"cd: can't cd to {String.ofList path}"

/-- Drop the first arguments of the shell. -/
def shift : Builtin := fun arguments streams shell =>
  withNumber "shift" (fun _ => 1) (fun number shell =>
    if number > shell.arguments.length then shell.abort streams "shift: can't shift that many"
    else { shell with status := 0, arguments := shell.arguments.drop number })
    arguments streams shell

/-- Set the options of the shell, or its arguments. -/
def set : Builtin := fun arguments _ shell =>
  match arguments with
  | ['-', '-'] :: arguments => { shell with status := 0, arguments }
  | ('-' :: options) :: _ =>
      { shell with status := 0, isStrict := shell.isStrict || options.contains 'e' }
  | ('+' :: options) :: _ =>
      { shell with status := 0, isStrict := shell.isStrict && !options.contains 'e' }
  | [] => { shell with status := 0 }
  | arguments => { shell with status := 0, arguments }

/-- Set variables that are given as one argument each. -/
def declare : Builtin := fun arguments _ shell =>
  arguments.foldl (fun shell argument =>
    match argument.dropWhile (· != '=') with
    | _ :: value => shell.assign (argument.takeWhile (· != '=')) value
    | [] => shell) { shell with status := 0 }

/-- Forget variables and functions. -/
def unset : Builtin := fun arguments _ shell =>
  arguments.foldl (fun shell name =>
    { shell with
      values := NameMap.remove name shell.values
      functions := NameMap.remove name shell.functions }) { shell with status := 0 }

/-- Share the words of a line among variables; the last one takes all that is left. -/
def shareOut : List Text → Text → Shell → Shell
  | [], _, shell => shell
  | [name], line, shell => shell.assign name (trim line)
  | name :: names, line, shell =>
      let line := trimStart line
      shareOut names (line.dropWhile (!separatesWords ·))
        (shell.assign name (line.takeWhile (!separatesWords ·)))

/-- Read a line of the input into variables.  Without a newline at its end that is a
failure. -/
def read : Builtin := fun arguments _ shell =>
  let names := arguments.filter (·.head? != some '-')
  let bytes := byteChars shell.session.input
  let line := bytes.takeWhile (· != '\n')
  let session := { shell.session with input := ofByteChars (bytes.drop (line.length + 1)) }
  shareOut names ((decode? (ofByteChars line)).getD line)
    { shell with session, status := if line.length < bytes.length then 0 else 1 }

/-- Send a signal; only the shell itself is there to be hit by it. -/
def kill : Builtin := fun arguments _ shell =>
  let signal := match arguments with
    | ['-', '9'] :: _ | ['-', 'K', 'I', 'L', 'L'] :: _ => 9
    | _ => 15
  { shell with status := 128 + signal, flow := .nowhere }

/-- The commands of the shell itself whose failure ends it. -/
def special : List String :=
  [":", ".", "break", "continue", "eval", "exec", "exit", "export", "readonly", "return", "set",
    "shift", "times", "trap", "unset"]

/-- Leave loops, or go on with their next rounds. -/
def leaveLoops (flow : Nat → Flow) (number : Nat) (shell : Shell) : Shell :=
  if shell.loops = 0 then { shell with status := 0 }
  else { shell with status := 0, flow := flow (min number shell.loops - 1) }

/-- The command of the shell itself that a name stands for. -/
def named? (name : String) : Option Builtin :=
  match name with
  | ":" | "trap" | "wait" | "umask" | "times" => some fun _ _ shell => { shell with status := 0 }
  | "exit" =>
      some (withNumber name Shell.status fun number shell =>
        { shell with status := number % 256, flow := .nowhere })
  | "return" =>
      some (withNumber name Shell.status fun number shell =>
        { shell with status := number % 256, flow := .behindFunction })
  | "break" => some (withNumber name (fun _ => 1) (leaveLoops .behindLoop))
  | "continue" => some (withNumber name (fun _ => 1) (leaveLoops .nextRound))
  | "cd" => some changeFolder
  | "shift" => some shift
  | "set" => some set
  | "export" | "readonly" | "local" => some declare
  | "unset" => some unset
  | "read" => some read
  | "kill" => some kill
  | "echo" => some (ofProgram (fun _ => Program.shellEcho) name)
  | "printf" => some (ofProgram Program.shellPrintf name)
  | "test" => some (ofProgram test name)
  | "[" => some (ofProgram bracketTest name)
  | _ => none

end Builtin

end Upkeep
