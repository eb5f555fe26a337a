import Upkeep.Command.Script.Grammar
import Upkeep.Command.Shell.Builtin
import Upkeep.Command.Shell.Redirect

/-!
Running scripts.  A script is run by recursion on a bound for the depth of its
commands, and each of its loops has a bound for its rounds, so that every run ends.
-/

namespace Upkeep

/-- Run a script in a shell. -/
abbrev ScriptRunner := ShellScript → Streams → Shell → Shell

namespace Shell

/-- Run the lines of a text.  What is wrong with a line ends the shell when the lines
before it have been run; the label says where the text comes from. -/
def runText
    (run : ScriptRunner) (label : String) (text : Text) (streams : Streams) (shell : Shell) :
    Shell :=
  let (scripts, error) := ShellScript.ofText text
  let shell := scripts.foldl (fun shell script =>
    if shell.isOnward then run script streams shell else shell) shell
  match error with
  | some ⟨line, fault⟩ =>
      if shell.isOnward then
        { shell with line }.abort streams s!"{label}Syntax error: {fault.message}"
      else shell
  | none => shell

/-- Run a text in a subshell and hand on what it writes, without newlines at its end. -/
def capture (run : ScriptRunner) (streams : Streams) : Capture := fun text shell =>
  let (pipe, session) := shell.session.openPipe
  let inner := runText run "" text { streams with output := pipe } { shell with session }
  let (bytes, session) := inner.session.closePipe
  let written := (decode? bytes).getD (byteChars bytes)
  (dropEnd (· == '\n') (written.filter (· != '\x00')),
    { shell.afterSubshell { inner with session } with
      status := shell.status, substituted := some inner.status })

/-- Set variables. -/
def assignAll
    (capture : Capture) (streams : Streams) (settings : List (Text × ScriptWord))
    (shell : Shell) : Shell :=
  settings.foldl (fun shell (name, value) =>
    if shell.isOnward then
      let (text, shell) := shell.expandOne capture streams value
      if shell.isOnward then shell.assign name text else shell
    else shell) shell

/-- Start a program. -/
def start? (launch : Launcher) (label : String) (name : Text) (arguments : List Text) :
    Streams → Shell → Shell := fun streams shell =>
  match launch ⟨name, arguments⟩ streams shell.session with
  | .ok result => shell.finished result
  | .error .notFound => shell.complain streams 127 s!"{label}{String.ofList name}: not found"
  | .error fault =>
      shell.complain streams 126
        s!"{label}{String.ofList name}: {String.ofList fault.reason}"

/-- Call a function. -/
def call (run : ScriptRunner) (body : ShellScript) (arguments : List Text) (streams : Streams)
    (shell : Shell) : Shell :=
  let after := run body streams { shell with arguments }
  { after with
    arguments := shell.arguments
    flow := if after.flow = .behindFunction then .onward else after.flow }

/-- Run the text of a file in the shell itself. -/
def source (run : ScriptRunner) (path : Text) (streams : Streams) (shell : Shell) : Shell :=
  match path.contains '/', shell.session.tree.readText path with
  | true, .ok text => runText run "" text streams { shell with status := 0 }
  | true, .error _ => shell.abort streams s!".: cannot open {String.ofList path}: No such file"
  | false, _ => shell.abort streams s!".: {String.ofList path}: not found"

/-- Run a command that is given by its fields: a function, a command of the shell
itself, or a program. -/
def runFields (launch : Launcher) (run : ScriptRunner) (streams : Streams) :
    List Text → Shell → Shell
  | [], shell => shell
  | name :: arguments, shell =>
      match NameMap.get? name shell.functions, String.ofList name, arguments with
      | some body, _, arguments => shell.call run body arguments streams
      | none, "eval", arguments =>
          runText run "eval: " ([' '].intercalate arguments) streams { shell with status := 0 }
      | none, ".", path :: _ => shell.source run path streams
      | none, "exec", name :: arguments =>
          { shell.start? launch "exec: " name arguments streams with flow := .nowhere }
      | none, "exec", [] => { shell with status := 0 }
      | none, "command", ['-', 'v'] :: name :: _ =>
          if (Builtin.named? (String.ofList name)).isSome then
            shell.finished (0, shell.session.say streams.output (name ++ ['\n']))
          else { shell with status := 127 }
      | none, "command", fields => runFields launch run streams fields shell
      | none, known, arguments =>
          match Builtin.named? known with
          | some builtin => builtin arguments streams shell
          | none => shell.start? launch "" name arguments streams

/-- Run a simple command: settings, words and redirections. -/
def runSimple
    (launch : Launcher) (run : ScriptRunner) (words : List ScriptWord)
    (redirections : List Redirection) (streams : Streams) (shell : Shell) : Shell :=
  let capture := Shell.capture run streams
  let settings := (words.map setting?).takeWhile Option.isSome
  let (fields, shell) := shell.expand capture streams (words.drop settings.length)
  if !shell.isOnward then shell
  else
    match fields with
    | [] =>
        shell.withRedirections capture redirections streams (fun streams shell =>
          let shell := shell.assignAll capture streams (settings.filterMap id)
          if shell.isOnward then { shell with status := shell.substituted.getD 0 } else shell) id
    | name :: arguments =>
        let isSpecial := Builtin.special.contains (String.ofList name) &&
          (NameMap.get? name shell.functions).isNone
        shell.withRedirections capture redirections streams
          (fun streams => runFields launch run streams (name :: arguments))
          (fun shell => if isSpecial then { shell with flow := .nowhere } else shell)

/-- Whether a loop goes on after a round, and the shell after it. -/
def afterRound (shell : Shell) : Bool × Shell :=
  match shell.flow with
  | .onward | .nextRound 0 => (true, { shell with flow := .onward })
  | .nextRound (more + 1) => (false, { shell with flow := .nextRound more })
  | .behindLoop 0 => (false, { shell with flow := .onward })
  | .behindLoop (more + 1) => (false, { shell with flow := .behindLoop more })
  | .behindFunction | .nowhere => (false, shell)

/-- Run something within one more loop. -/
def inLoop (run : Shell → Shell) (shell : Shell) : Shell :=
  { run { shell with loops := shell.loops + 1 } with loops := shell.loops }

/-- The rounds of a loop with a condition.  It leaves the status of its last round. -/
def loopRounds (isUntil : Bool) (condition body : Shell → Shell) : Nat → Status → Shell → Shell
  | 0, _, shell => shell
  | rounds + 1, status, shell =>
      let shell := shell.tested condition
      if !shell.isOnward then shell.afterRound.2
      else if (shell.status == 0) == isUntil then { shell with status }
      else
        let (goesOn, shell) := (body shell).afterRound
        if goesOn then loopRounds isUntil condition body rounds shell.status shell else shell

/-- The rounds of a loop over values. -/
def valueRounds (name : Text) (body : Shell → Shell) : List Text → Shell → Shell
  | [], shell => shell
  | value :: values, shell =>
      let (goesOn, shell) := (body (shell.assign name value)).afterRound
      if goesOn then valueRounds name body values shell else shell

/-- How often a loop is gone through at most. -/
def roundLimit : Nat := 1000000

/-- Run two commands, the first one writing to the input of the second one. -/
def runPipe (run : ScriptRunner) (first next : ShellScript) (streams : Streams) (shell : Shell) :
    Shell :=
  let (pipe, session) := shell.session.openPipe
  let writer := run first { streams with output := pipe } { shell with session }
  let (bytes, session) := writer.session.closePipe
  let handed := shell.afterSubshell
    { writer with session := { session with input := bytes } }
  let reader := run next streams { handed with status := shell.status }
  shell.afterSubshell
    { reader with session := { reader.session with input := shell.session.input } }

def fitsAny (capture : Capture) (streams : Streams) (text : Text) (patterns : List ScriptWord)
    (shell : Shell) : Bool × Shell :=
  patterns.foldl (fun (fits, shell) pattern =>
    if fits || !shell.isOnward then (fits, shell)
    else
      let (pattern, shell) := shell.expandMarked capture streams pattern
      (pattern.fits text, shell)) (false, shell)

/-- The first of some branches that has a pattern for a text. -/
def firstFitting
    (capture : Capture) (streams : Streams) (text : Text)
    (branches : List (List ScriptWord × ShellScript)) (shell : Shell) :
    Option ShellScript × Shell :=
  branches.foldl (fun (found, shell) (patterns, body) =>
    if found.isSome then (found, shell)
    else
      let (fits, shell) := shell.fitsAny capture streams text patterns
      (if fits then some body else none, shell)) (none, shell)

/-- Run a script whose commands are not deeper than the bound. -/
def runWithin (launch : Launcher) : Nat → ScriptRunner
  | 0 => fun _ _ shell => { shell with status := 2, flow := .nowhere }
  | bound + 1 => fun script streams shell =>
      let run := runWithin launch bound
      let capture := Shell.capture run streams
      match script with
      | .nothing => shell
      | .simple line words redirections =>
          ({ shell with line, substituted := none }.runSimple launch run words redirections
            streams).checked
      | .redirected line script redirections =>
          { shell with line }.withRedirections capture redirections streams (run script) id
      | .sequence first next =>
          let shell := run first streams shell
          if shell.isOnward then run next streams shell else shell
      | .both first next =>
          let shell := shell.tested (run first streams)
          if shell.isOnward && shell.status == 0 then run next streams shell else shell
      | .either first next =>
          let shell := shell.tested (run first streams)
          if shell.isOnward && shell.status != 0 then run next streams shell else shell
      | .negation script =>
          let shell := shell.tested (run script streams)
          if shell.isOnward then { shell with status := if shell.status = 0 then 1 else 0 }
          else shell
      | .pipe first next => (shell.runPipe run first next streams).checked
      | .subshell script => (shell.afterSubshell (run script streams shell)).checked
      | .choice condition yes no =>
          let shell := shell.tested (run condition streams)
          if !shell.isOnward then shell
          else if shell.status = 0 then run yes streams shell
          else run no streams { shell with status := 0 }
      | .loop isUntil condition body =>
          shell.inLoop (loopRounds isUntil (run condition streams) (run body streams) roundLimit 0)
      | .forEach name values body =>
          let (texts, shell) := shell.expand capture streams values
          if shell.isOnward then
            { shell with status := 0 }.inLoop (valueRounds name (run body streams) texts)
          else shell
      | .select value branches =>
          let (text, shell) := shell.expandOne capture streams value
          let (body, shell) := shell.firstFitting capture streams text branches
          if shell.isOnward then run (body.getD .nothing) streams { shell with status := 0 }
          else shell
      | .function name body =>
          { shell with status := 0, functions := NameMap.set name body shell.functions }

/-- How deep the commands of a script may be. -/
def depthLimit : Nat := 2000

/-- Run the text of a script from its beginning. -/
def runScript (launch : Launcher) (text : Text) (streams : Streams) (shell : Shell) :
    Status × Session :=
  let after := runText (runWithin launch depthLimit) "" text streams shell
  (after.status, after.session)

end Shell

end Upkeep
