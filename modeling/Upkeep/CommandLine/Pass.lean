import Upkeep.Text.Basic

/-!
The passes of the program and its help texts.
-/

namespace Upkeep

/-- What the program can be told to do. -/
inductive Pass where
  | constify
  | pruneIncludes
  | checkGuards
  | checkLicense
  | checkIncludes
  | normalize
  deriving DecidableEq, Repr

namespace Pass

/-- All passes, in the order of the help text. -/
def all : List Pass :=
  [.constify, .pruneIncludes, .checkGuards, .checkLicense, .checkIncludes, .normalize]

def name : Pass → String
  | .constify => "constify"
  | .pruneIncludes => "prune-includes"
  | .checkGuards => "check-guards"
  | .checkLicense => "check-license"
  | .checkIncludes => "check-includes"
  | .normalize => "normalize"

def ofName? (name : Text) : Option Pass :=
  all.find? fun pass => pass.name.toList == name

/-- What a pass does. -/
def about : Pass → String
  | .constify =>
      "Adds \x60const\x60 to declarations of indexed types, keeping each edit only when the build still passes"
  | .pruneIncludes =>
      "Removes \x60#include\x60 lines, keeping each removal only when the build still passes"
  | .checkGuards => "Reports headers without include guards"
  | .checkLicense => "Reports files without the license header"
  | .checkIncludes => "Reports includes that resolve to no known project or file"
  | .normalize => "Expands leading tabs, strips trailing blanks and ensures a final newline"

/-- Whether a pass only checks. -/
def isCheck : Pass → Bool
  | .checkGuards | .checkLicense | .checkIncludes => true
  | _ => false

/-- The long flags of a pass, without dashes. -/
def flags (pass : Pass) : List String :=
  if pass.isCheck then ["strict", "help"] else ["help"]

/-- How a pass is called. -/
def usage (program : String) (pass : Pass) : String :=
  if pass.isCheck then s!"{program} {pass.name} [OPTIONS] [FILE]..."
  else s!"{program} {pass.name} [FILE]..."

/-- The options of a pass with what they do. -/
def optionHelp (pass : Pass) : String :=
  if pass.isCheck then
    "      --strict  Exits with failure when any warning is reported\n  -h, --help    Print help\n"
  else "  -h, --help  Print help\n"

def help (program : String) (pass : Pass) : String :=
  s!"{pass.about}\n\nUsage: {pass.usage program}\n\nArguments:\n" ++
    "  [FILE]...  Explicit files; every matching file under the roots when omitted\n\n" ++
    s!"Options:\n{pass.optionHelp}"

end Pass

namespace Help

/-- What the program does. -/
def about : String :=
  "Compile-gated maintenance passes for the engine tree"

/-- How the program is called. -/
def usage (program : String) : String :=
  s!"{program} <COMMAND>"

/-- A text followed by blanks up to a width. -/
def padded (width : Nat) (text : String) : String :=
  text ++ String.ofList (List.replicate (width - text.length) ' ')

/-- The list of passes. -/
def passes : String :=
  String.join (Pass.all.map fun pass => s!"  {padded 14 pass.name}  {pass.about}\n")

/-- The help text of the program, in short. -/
def short (program : String) : String :=
  s!"{about}\n\nUsage: {usage program}\n\nCommands:\n{passes}\nOptions:\n" ++
    "  -h, --help     Print help (see more with '--help')\n  -V, --version  Print version\n"

/-- The help text of the program. -/
def long (program : String) : String :=
  s!"{about}.\n\n" ++
    "Configuration flags (\x60--base-dir\x60, \x60--build-command\x60, ...) come before the subcommand.\n\n" ++
    s!"Usage: {usage program}\n\nCommands:\n{passes}\nOptions:\n" ++
    "  -h, --help\n          Print help (see a summary with '-h')\n\n" ++
    "  -V, --version\n          Print version\n"

/-- The version of the program. -/
def version : String :=
  "mender 0.1.0\n"

end Help

end Upkeep
