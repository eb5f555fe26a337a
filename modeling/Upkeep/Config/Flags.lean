import Upkeep.Complaint
import Upkeep.Config.Basic
import Upkeep.Config.Value

/-!
Settings from command-line flags.  Every flag takes one value, after an equals sign
or as the next argument; only flags for lists may be repeated.
-/

namespace Upkeep

/-- A flag: the name of its setting, its letter, and whether it may be repeated. -/
structure Flag where
  field : String
  letter : Option Char
  repeats : Bool
  deriving DecidableEq, Repr

namespace Flag

/-- The flag that names a settings file. -/
def configPath : Flag := ⟨"config_path", none, false⟩

def all : List Flag :=
  [configPath,
    ⟨"log_filter", some 'l', false⟩,
    ⟨"log_format", some 'L', false⟩,
    ⟨"base_dir", some 'b', false⟩,
    ⟨"roots", some 'r', true⟩,
    ⟨"header_extensions", some 'H', true⟩,
    ⟨"source_extensions", some 's', true⟩,
    ⟨"build_command", some 'B', false⟩,
    ⟨"build_dir", some 'u', false⟩,
    ⟨"build_log", some 'U', false⟩,
    ⟨"license_marker", some 'i', false⟩]

/-- The flag as it is written, with both dashes. -/
def long (flag : Flag) : Text :=
  ['-', '-'] ++ flag.field.toList.map fun c => if c = '_' then '-' else c

/-- The flag with the name of its value, for messages. -/
def usage (flag : Flag) : String :=
  s!"{String.ofList flag.long} <{flag.field.toUpper}>"

def ofLong? (name : Text) : Option Flag :=
  all.find? fun flag => flag.long == name

def ofLetter? (letter : Char) : Option Flag :=
  all.find? fun flag => flag.letter == some letter

end Flag

/-- Why arguments are no flags. -/
inductive FlagError where
  | unexpected (argument : Text)
  | missingValue (flag : Flag)
  | repeated (flag : Flag)
  | noFormat (flag : Flag) (value : Text)
  | needlessValue (value : Text)
  | helpAsked
  deriving DecidableEq, Repr

namespace FlagError

/-- How the flags of a program are used. -/
def usage (program : Text) : String :=
  s!"{String.ofList program} [OPTIONS]"

/-- What is said about a flag error. -/
def complaint (program : Text) : FlagError → Complaint
  | .unexpected argument =>
      ⟨s!"unexpected argument '{String.ofList argument}' found", [], usage program⟩
  | .missingValue flag =>
      .plain s!"a value is required for '{flag.usage}' but none was supplied"
  | .repeated flag =>
      ⟨s!"the argument '{flag.usage}' cannot be used multiple times", [], usage program⟩
  | .noFormat flag value =>
      .plain s!"invalid value '{String.ofList value}' for '{flag.usage}': {LogFormat.notFound}"
  | .needlessValue value =>
      ⟨s!"unexpected value '{String.ofList value}' for '--help' found; no more were expected",
        [], usage program⟩
  | .helpAsked => .plain ""

/-- The text of a flag error; who asks for help is told the usage. -/
def text (program : Text) : FlagError → String
  | .helpAsked => s!"Usage: {usage program}\n"
  | error => (error.complaint program).text

end FlagError

/-- A flag with its value. -/
abbrev FlagValue := Flag × Text

/-- How an argument looks. -/
inductive Argument where
  | separator
  | long (name : Text) (value : Option Text)
  | short (letter : Char) (rest : Text)
  | plain (text : Text)
  deriving DecidableEq, Repr

/-- The text before and after the first equals sign. -/
def splitEquals (text : Text) : Text × Option Text :=
  (text.takeWhile (· != '='), (text.dropWhile (· != '=')).tail?)

/-- Look at an argument. -/
def Argument.ofText : Text → Argument
  | ['-', '-'] => .separator
  | '-' :: '-' :: rest =>
      let (name, value) := splitEquals rest
      .long (['-', '-'] ++ name) value
  | '-' :: letter :: rest => .short letter rest
  | text => .plain text

namespace FlagValue

/-- Add a flag with its value to those found, or say why it cannot be added. -/
def add (found : List FlagValue) (flag : Flag) (value : Text) :
    Except FlagError (List FlagValue) :=
  if !flag.repeats && found.any fun entry => entry.1 == flag then .error (.repeated flag)
  else if flag.field == "log_format" && (LogFormat.ofText? value).isNone then
    .error (.noFormat flag value)
  else if flag == .configPath && value.isEmpty then .error (.missingValue flag)
  else .ok (found ++ [(flag, value)])

/-- Add the flag that waits, with its value if it has one by now. -/
def settle (found : List FlagValue) : Option (Flag × Option Text) → Except FlagError (List FlagValue)
  | none => .ok found
  | some (flag, none) => .error (.missingValue flag)
  | some (flag, some value) => add found flag value

/-- Read arguments, given the flags found before and the flag that waits.  A flag
waits until the next one comes; an argument that means nothing is told first. -/
def read (found : List FlagValue) (waiting : Option (Flag × Option Text)) :
    List Text → Except FlagError (List FlagValue)
  | [] => settle found waiting
  | argument :: rest =>
      let goOn := fun (flag : Flag) (value : Option Text) =>
        match settle found waiting with
        | .error error => .error error
        | .ok found =>
            match value with
            | none => read found (some (flag, none)) rest
            | some value =>
                match add found flag value with
                | .error error => .error error
                | .ok found => read found none rest
      match Argument.ofText argument with
      | .separator =>
          match rest with
          | [] => settle found waiting
          | argument :: _ => .error (.unexpected argument)
      | .long name value =>
          if name = "--help".toList then
            match settle found waiting, value with
            | .error error, _ => .error error
            | .ok _, some value => .error (.needlessValue value)
            | .ok _, none => .error .helpAsked
          else
            match Flag.ofLong? name with
            | none => .error (.unexpected name)
            | some flag => goOn flag value
      | .short letter attached =>
          if letter = 'h' then
            match settle found waiting with
            | .error error => .error error
            | .ok _ => .error .helpAsked
          else
            match Flag.ofLetter? letter with
            | none => .error (.unexpected ['-', letter])
            | some flag =>
                goOn flag (match attached with
                  | [] => none
                  | '=' :: value => some value
                  | value => some value)
      | .plain text =>
          match waiting with
          | some (flag, none) => read found (some (flag, some text)) rest
          | _ => .error (.unexpected text)

end FlagValue

/-- Read arguments, the first of which is the name of the program. -/
def readFlags (arguments : List Text) : Except FlagError (List FlagValue) :=
  FlagValue.read [] none arguments.tail

/-- The settings that flags make. -/
def flagSettings (found : List FlagValue) : Settings :=
  found.foldl (fun entries (flag, value) =>
    let name := flag.field.toList
    if flag.repeats then
      match NameMap.get? name entries with
      | some (.list values) => NameMap.set name (.list (values ++ [.text value])) entries
      | _ => NameMap.set name (.list [.text value]) entries
    else if flag.field == "log_format" then
      NameMap.set name (.text (value.map Char.toLower)) entries
    else NameMap.set name (.text value) entries) []

end Upkeep
