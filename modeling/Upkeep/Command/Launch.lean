import Upkeep.Command.Change
import Upkeep.Command.Search
import Upkeep.Command.Shell.Run
import Upkeep.Command.Test.Program

/-!
Starting programs.  A program is looked up by its name; a path names a file that
must be allowed to run.  A program that starts others does so one level deeper, so
that every run ends.
-/

namespace Upkeep

/-- The programs that can be started by their names, the shell apart. -/
def Program.named? (name : Text) : Option Program :=
  match String.ofList name with
  | "true" => some fun _ _ session => (0, session)
  | "false" => some fun _ _ session => (1, session)
  | "sleep" => some fun _ _ session => (0, session)
  | "echo" => some Program.echo
  | "printf" => some Program.printf
  | "test" => some Program.test
  | "[" => some Program.bracketTest
  | "grep" => some Program.grep
  | "cat" => some Program.cat
  | "head" => some Program.head
  | "wc" => some Program.wc
  | "ls" => some Program.ls
  | "pwd" => some Program.pwd
  | "touch" => some Program.touch
  | "mkdir" => some Program.mkdir
  | "rm" => some Program.rm
  | "rmdir" => some Program.rmdir
  | "cp" => some Program.cp
  | "mv" => some Program.mv
  | _ => none

/-- What the shell is started with: whether it is strict, and whether its script is an
argument. -/
structure ShellOptions where
  isStrict : Bool
  isGiven : Bool
  deriving DecidableEq, Repr

/-- Read the options of the shell, up to a letter that it does not know. -/
def ShellOptions.read (options : ShellOptions) : List Text → Except Char (ShellOptions × List Text)
  | ['-', '-'] :: rest => .ok (options, rest)
  | ('-' :: c :: letters) :: rest =>
      match (c :: letters).find? (!"acefhimnsuvx".toList.contains ·) with
      | some unknown => .error unknown
      | none =>
          ShellOptions.read
            ⟨options.isStrict || (c :: letters).contains 'e',
              options.isGiven || (c :: letters).contains 'c'⟩ rest
  | rest => .ok (options, rest)

def sh (launch : Launcher) : Program := fun arguments streams session =>
  let plain := "sh".toList
  let run := fun (isStrict : Bool) (text name : Text) (arguments : List Text) (session : Session) =>
    { Shell.start name arguments session with isStrict }.runScript launch text streams
  match ShellOptions.read ⟨false, false⟩ arguments with
  | .error unknown => (2, session.sayLine streams.messages s!"sh: 0: Illegal option -{unknown}")
  | .ok (⟨isStrict, true⟩, arguments) =>
      match arguments with
      | text :: name :: arguments => run isStrict text name arguments session
      | [text] => run isStrict text plain [] session
      | [] => (2, session.sayLine streams.messages "sh: 0: -c requires an argument")
  | .ok (⟨isStrict, false⟩, path :: arguments) =>
      match session.tree.readText path with
      | .ok text => run isStrict text path arguments session
      | .error _ =>
          (2, session.sayLine streams.messages
            s!"sh: 0: cannot open {String.ofList path}: No such file")
  | .ok (⟨isStrict, false⟩, []) =>
      let (bytes, session) := session.takeInput
      run isStrict ((decode? bytes).getD (byteChars bytes)) plain [] session

/-- The name of a program that lies in one of the folders for programs. -/
def systemName? (path : Text) : Option Text :=
  (after? "/bin/".toList path).or (after? "/usr/bin/".toList path)

/-- Run a program in the working folder of a session, which it leaves as it was. -/
def inOwnFolder (program : Program) : Program := fun arguments streams session =>
  let (status, after) := program arguments streams session
  (status, { after with tree := { after.tree with workingDir := session.tree.workingDir } })

/-- The program in a file: a script with a first line that says so. -/
def scriptFile? (launch : Launcher) (path : Text) (bytes : ByteArray) : Option Program :=
  match decode? bytes with
  | some ('#' :: '!' :: text) =>
      some (inOwnFolder fun arguments streams session =>
        { Shell.start path arguments session with
          isStrict := (text.takeWhile (· != '\n')).dropWhile (· != '-') == ['-', 'e'] }.runScript
            launch ('#' :: '!' :: text) streams)
  | _ => none

/-- Start a program that a name or a path stands for.  The depth bounds how often
one program starts another one. -/
def launch : Nat → Launcher
  | 0, _, _, _ => .error (.other "Resource temporarily unavailable (os error 11)".toList)
  | depth + 1, ⟨program, arguments⟩, streams, session =>
      let byName := fun (name : Text) =>
        if name = "sh".toList then some (inOwnFolder (sh (launch depth))) else Program.named? name
      if (program :: arguments).any (·.contains '\x00') then
        .error (.other "nul byte found in provided data".toList)
      else
        match if program.contains '/' then (systemName? program).bind byName else byName program with
        | some run => .ok (run arguments streams session)
        | none =>
            if !program.contains '/' then .error .notFound
            else
              match session.tree.locate true program with
              | .error fault => .error fault
              | .ok ⟨_, none⟩ => .error .notFound
              | .ok ⟨_, some (.file file)⟩ =>
                  if file.mode &&& 0o111 = 0 then .error .permissionDenied
                  else
                    match scriptFile? (launch depth) program file.bytes with
                    | some run => .ok (run arguments streams session)
                    | none => .error (.other "Exec format error (os error 8)".toList)
              | .ok _ => .error .permissionDenied

/-- How often one program may start another one. -/
def launchDepth : Nat := 16

end Upkeep
