import Upkeep.CommandLine.Pass
import Upkeep.Config.Flags
import Upkeep.Text.Likeness

/-!
Arguments.  Flags for settings come first, then a pass with its flags and files.
What follows the pass never reaches the settings.
-/

namespace Upkeep

/-- Whether an argument is a flag for a setting, and then whether its value is the
next argument. -/
def awaitsValue? (argument : Text) : Option Bool :=
  match Argument.ofText argument with
  | .long name value => (Flag.ofLong? name).map fun _ => value.isNone
  | _ => none

/-- Split arguments after the flags for settings with which they start.  A flag
without a value of its own takes the next argument, whatever that is. -/
def splitFlags : List Text → List Text × List Text
  | [] => ([], [])
  | [argument] =>
      match awaitsValue? argument with
      | none => ([], [argument])
      | some _ => ([argument], [])
  | argument :: next :: rest =>
      match awaitsValue? argument with
      | none => ([], argument :: next :: rest)
      | some false =>
          let (flags, others) := splitFlags (next :: rest)
          (argument :: flags, others)
      | some true =>
          let (flags, others) := splitFlags rest
          (argument :: next :: flags, others)

/-- Split arguments, the first of which is the name of the program, into those for
the settings and the others. -/
def splitArguments : List Text → List Text × List Text
  | [] => ([], [])
  | program :: rest =>
      let (flags, others) := splitFlags rest
      (program :: flags, others)

/-- A pass to run: on which files, or on all that it finds, and whether warnings
count as failure. -/
structure Task where
  pass : Pass
  isStrict : Bool
  files : List Text
  deriving DecidableEq, Repr

/-- What arguments ask for. -/
inductive Request where
  | work (task : Task)
  | tell (text : String)
  deriving DecidableEq, Repr

/-- Why arguments ask for nothing. -/
inductive UsageError where
  | noPass (program : String)
  | complaint (said : Complaint)
  deriving DecidableEq, Repr

/-- The text of a usage error, with the end of its last line. -/
def UsageError.text : UsageError → String
  | .noPass program => Help.short program
  | .complaint said => said.text

namespace UsageError

/-- An argument that means nothing here. -/
def unexpected (argument : Text) (tips : List String) (usage : String) : UsageError :=
  .complaint ⟨s!"unexpected argument '{String.ofList argument}' found", tips, some usage⟩

/-- A value for a flag that takes none. -/
def needlessValue (flag : String) (value : Text) (usage : String) : UsageError :=
  .complaint
    ⟨s!"unexpected value '{String.ofList value}' for '{flag}' found; no more were expected", [],
      some usage⟩

/-- Names between quotes and commas. -/
def listed (names : List Text) : String :=
  ", ".intercalate (names.map fun name => s!"'{String.ofList name}'")

/-- A word in place of the name of a pass. -/
def unknownPass (program : String) (word : Text) : UsageError :=
  let tips :=
    match closeNames word (Pass.all.map (·.name.toList)) with
    | [] => []
    | [name] => [s!"a similar subcommand exists: {listed [name]}"]
    | names => [s!"some similar subcommands exist: {listed names}"]
  .complaint ⟨s!"unrecognized subcommand '{String.ofList word}'", tips, some (Help.usage program)⟩

/-- A pass named where only a file could stand. -/
def hiddenPass (program : String) (word : Text) : UsageError :=
  unexpected word
    [s!"subcommand '{String.ofList word}' exists; to use it, remove the '--' before it"]
    (Help.usage program)

/-- An unknown flag in front of the pass. -/
def unknownFlag (program : String) (flag : Text) (rest : List Text) : UsageError :=
  let bare := flag.drop 2
  let close := fun (flags : List String) => (closeNames bare (flags.map String.toList)).getLast?
  match close ["help", "version"] with
  | some name =>
      unexpected flag [s!"a similar argument exists: '--{String.ofList name}'"]
        s!"{program} --{String.ofList name} <COMMAND>"
  | none =>
      let tip? := rest.findSome? fun word => do
        let pass ← Pass.ofName? word
        let name ← close pass.flags
        return s!"'{pass.name} --{String.ofList name}' exists"
      unexpected flag tip?.toList (Help.usage program)

end UsageError

namespace Task

/-- How a pass is called with the flags and files that are given already. -/
def usage (program : String) (pass : Pass) (flags : List String) (hasFiles : Bool) : String :=
  if flags.isEmpty && !hasFiles then pass.usage program
  else
    s!"{program} {pass.name}" ++ String.join (flags.map (" --" ++ ·)) ++
      if hasFiles then " <FILE>" else " [FILE]..."

def flags (task : Task) : List String :=
  if task.isStrict then ["strict"] else []

/-- The tip that an argument can be made a file. -/
def fileTip (argument : Text) : String :=
  s!"to pass '{String.ofList argument}' as a value, use '-- {String.ofList argument}'"

/-- An unknown flag after the pass. -/
def unknownFlag (program : String) (task : Task) (flag : Text) : UsageError :=
  match (closeNames (flag.drop 2) (task.pass.flags.map String.toList)).getLast? with
  | some name =>
      let flags := task.flags ++ [String.ofList name].filter fun flag => !task.flags.contains flag
      .unexpected flag [s!"a similar argument exists: '--{String.ofList name}'"]
        (usage program task.pass flags (!task.files.isEmpty))
  | none =>
      .unexpected flag [fileTip flag] (usage program task.pass task.flags (!task.files.isEmpty))

/-- The task, unless the path of a file is empty. -/
def checked (task : Task) : Except UsageError Task :=
  if task.files.contains [] then
    .error (.complaint (.plain "a value is required for '[FILE]...' but none was supplied"))
  else .ok task

/-- Read the arguments after the name of a pass, given what was read before and
whether files stand in front of a flag. -/
def read (program : String) (task : Task) (hasSettled : Bool) :
    List Text → Except UsageError Request
  | [] => task.checked.map .work
  | argument :: rest =>
      match Argument.ofText argument with
      | .plain file => read program { task with files := task.files ++ [file] } hasSettled rest
      | .separator => ({ task with files := task.files ++ rest }.checked).map .work
      | .short letter _ =>
          if letter = 'h' then task.checked.map fun _ => .tell (task.pass.help program)
          else .error (.unexpected ['-', letter] [fileTip ['-', letter]] (task.pass.usage program))
      | .long name value =>
          let flag := String.ofList (name.drop 2)
          if !task.pass.flags.contains flag then .error (unknownFlag program task name)
          else
            match value with
            | some value =>
                let flags := task.flags ++ [flag].filter fun flag => !task.flags.contains flag
                .error (.needlessValue s!"--{flag}" value
                  (usage program task.pass flags hasSettled))
            | none =>
                match task.checked with
                | .error error => .error error
                | .ok task =>
                    if flag = "help" then .ok (.tell (task.pass.help program))
                    else if task.isStrict then
                      .error (.complaint
                        ⟨"the argument '--strict' cannot be used multiple times", [],
                          some (task.pass.usage program)⟩)
                    else
                      read program { task with isStrict := true }
                        (hasSettled || !task.files.isEmpty) rest

end Task

namespace Request

/-- Read the arguments after the flags for settings. -/
def read (program : String) : List Text → Except UsageError Request
  | [] => .error (.noPass program)
  | argument :: rest =>
      match Argument.ofText argument with
      | .plain word =>
          match Pass.ofName? word with
          | some pass => Task.read program ⟨pass, false, []⟩ false rest
          | none => .error (.unknownPass program word)
      | .separator =>
          match rest with
          | [] => .error (.noPass program)
          | word :: _ =>
              if (Pass.ofName? word).isSome then .error (.hiddenPass program word)
              else .error (.unknownPass program word)
      | .short letter _ =>
          if letter = 'h' then .ok (.tell (Help.short program))
          else if letter = 'V' then .ok (.tell Help.version)
          else .error (.unexpected ['-', letter] [] (Help.usage program))
      | .long name value =>
          let flag := String.ofList (name.drop 2)
          if flag ≠ "help" ∧ flag ≠ "version" then .error (.unknownFlag program name rest)
          else
            match value with
            | some value =>
                .error (.needlessValue s!"--{flag}" value s!"{program} --{flag} <COMMAND>")
            | none =>
                .ok (.tell (if flag = "help" then Help.long program else Help.version))

end Request

end Upkeep
