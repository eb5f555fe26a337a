import Upkeep.Build.Command
import Upkeep.Check.Guards
import Upkeep.Check.Includes
import Upkeep.Check.License
import Upkeep.CommandLine.Arguments
import Upkeep.CommandLine.Transcript
import Upkeep.Config.Load
import Upkeep.Log.Entries
import Upkeep.Log.Filter
import Upkeep.Rule.Constify.Rule
import Upkeep.Rule.PruneIncludes

/-!
A run of the program, from its arguments to what it leaves behind.  Faulty arguments
are told before faulty settings, and nothing is read or built before both are right.
-/

namespace Upkeep

/-- Why a run fails without being able to do its work. -/
inductive RunError where
  | config (error : ConfigError)
  | logFilter (filter : Text) (error : FilterError)
  | buildCommand (error : CommandError)
  | source (error : SourceError)
  | build (error : BuildError)
  | trial (error : TrialError)

/-- The text of an error that ends a run. -/
def RunError.message : RunError → String
  | .config error => "failed to load configuration: " ++ error.message
  | .logFilter filter error =>
      s!"invalid log filter {String.ofList (quoted filter)}: {error.message}"
  | .buildCommand error => "invalid build command: " ++ error.message
  | .source error => error.message
  | .build error => error.message
  | .trial error => error.message

/-- What a task does: what the log and the output get, the tree that is left, and
whether it succeeds. -/
structure Work where
  entries : List LogEntry
  transcript : List Text
  tree : Tree
  result : Except RunError Bool

namespace Work

/-- Work that fails before it does anything. -/
def stop (tree : Tree) (error : RunError) : Work :=
  ⟨[], [], tree, .error error⟩

/-- Work with log entries before it. -/
def after (entries : List LogEntry) (work : Work) : Work :=
  { work with entries := entries ++ work.entries }

end Work

namespace Config

/-- The files of all projects that have one of the given extensions. -/
def listing (config : Config) (extensions : List Text) : Listing :=
  ⟨config.baseDir, config.projects, extensions⟩

/-- The extensions of the files that a pass goes through. -/
def passExtensions (config : Config) : Pass → List Text
  | .constify => config.sources
  | .checkGuards => config.headers
  | .pruneIncludes | .checkLicense | .checkIncludes | .normalize => config.extensions

end Config

namespace Task

/-- The files that a task goes through: those that are given, else all of its kind. -/
def targets (task : Task) (config : Config) (tree : Tree) : List Listed :=
  if task.files.isEmpty then (config.listing (config.passExtensions task.pass)).walk tree
  else task.files.map fun path => .ok ⟨[], path⟩

def check (task : Task) (check : Check) (config : Config) (tree : Tree) : Work :=
  let survey := check.survey tree (task.targets config tree)
  let (transcript, result) :=
    match survey.report with
    | .error error => ([], .error (.source error))
    | .ok report => (report.transcript, .ok (!task.isStrict || report.isClean))
  ⟨survey.entries check.name, transcript, tree, result⟩

/-- Bring files into normal form. -/
def tidy (task : Task) (config : Config) (tree : Tree) : Work :=
  let tidying := tidyFiles tree (task.targets config tree)
  let (transcript, result) :=
    match tidying.report with
    | .error error => ([], .error (.source error))
    | .ok report => (report.transcript, .ok true)
  ⟨tidying.entries, transcript, tidying.tree, result⟩

/-- Apply a rule under the eye of the build command.  All files are listed before
the command is read, and both before the build log is touched. -/
def edit (task : Task) (rule : Rule) (launch : Launcher) (config : Config) (tree : Tree) : Work :=
  match allFound (task.targets config tree) with
  | .error error => .stop tree (.source error)
  | .ok files =>
      match config.command with
      | .error error => .stop tree (.buildCommand error)
      | .ok command =>
          let build : CommandBuild := ⟨command, config.buildFolder, config.logPath⟩
          match build.prepareLog tree with
          | .error error => .stop tree (.build error)
          | .ok tree =>
              let run := tryEdits rule (build.oracle launch) (files.map ProjectFile.path) ⟨(), tree⟩
              ⟨run.entries rule.name, run.transcript, run.world.tree,
                (run.result.map fun _ => true).mapError .trial⟩

/-- Do a task. -/
def work (task : Task) (launch : Launcher) (config : Config) (tree : Tree) : Work :=
  match task.pass with
  | .constify =>
      let headers := (config.listing config.headers).walk tree
      let entries := SymbolIndex.buildEntries tree headers
      match SymbolIndex.build tree headers with
      | .error error => (Work.stop tree (.source error)).after entries
      | .ok index =>
          (task.edit (constify index) launch config tree).after (entries ++ [.indexReady index])
  | .pruneIncludes => task.edit pruneIncludes launch config tree
  | .checkGuards => task.check checkGuards config tree
  | .checkLicense => task.check (checkLicense config.licenseMarker) config tree
  | .checkIncludes => task.check (checkIncludes config.projects) config tree
  | .normalize => task.tidy config tree

end Task

/-- What a run leaves behind: its log lines, its output, its messages after the log,
the tree, and whether it succeeded. -/
structure Ending where
  log : List Text
  output : Text
  messages : Text
  tree : Tree
  succeeded : Bool

namespace Ending

def textOf (lines : List Text) : Text :=
  lines.flatMap (· ++ ['\n'])

/-- The end of a run that only tells something. -/
def told (tree : Tree) (text : String) : Ending :=
  ⟨[], text.toList, [], tree, true⟩

/-- The end of a run that cannot start. -/
def failed (tree : Tree) (message : String) : Ending :=
  ⟨[], [], message.toList ++ ['\n'], tree, false⟩

/-- The end of a run that did some work. -/
def ofWork (filter : LogFilter) (format : LogFormat) (work : Work) : Ending :=
  let log := (work.entries.filter filter.passes).map (LogEntry.line format)
  match work.result with
  | .ok succeeded => ⟨log, textOf work.transcript, [], work.tree, succeeded⟩
  | .error error =>
      ⟨log, textOf work.transcript, error.message.toList ++ ['\n'], work.tree, false⟩

end Ending

/-- The filter of a log that a run opens.  A log that is open keeps its own filter and
gets no lines that are this run's to give. -/
def openFilter (logIsOpen : Bool) (config : Config) : Except FilterError LogFilter :=
  if logIsOpen then .ok [] else LogFilter.ofText config.logFilter

/-- Run the program with its arguments, its name first. -/
def runProgram
    (launch : Launcher) (logIsOpen : Bool) (environment : Environment)
    (arguments : List Text) (tree : Tree) :
    Ending :=
  let (flags, others) := splitArguments arguments
  let program := String.ofList (calledName (arguments.headD "mender".toList))
  match Request.read program others with
  | .error error => .failed tree error.text
  | .ok (.tell text) => .told tree text
  | .ok (.work task) =>
      match Config.load environment tree flags with
      | .error error => .failed tree (RunError.config error).message
      | .ok config =>
          match openFilter logIsOpen config with
          | .error error => .failed tree (RunError.logFilter config.logFilter error).message
          | .ok filter => .ofWork filter config.logFormat (task.work launch config tree)

end Upkeep
