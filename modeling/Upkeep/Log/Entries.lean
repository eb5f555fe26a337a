import Upkeep.Check.Survey
import Upkeep.Log.Basic
import Upkeep.Trial.Run
import Upkeep.SymbolIndex
import Upkeep.Whitespace.Files

/-!
What the log says about the work of the program.
-/

namespace Upkeep

namespace LogEntry

/-- An entry about a project that is passed over. -/
def skippedRoot (target : String) (path : Text) : LogEntry :=
  ⟨.warn, target, "skipping missing project root".toList, [("root", .bare path)]⟩

/-- An entry about the index that a run uses. -/
def indexReady (index : SymbolIndex) : LogEntry :=
  ⟨.info, "mender-cli::commands", "symbol index ready".toList, [("symbols", .count index.size)]⟩

end LogEntry

namespace SymbolIndex

/-- Where the log entries about an index come from. -/
def logTarget : String := "mender-scan::index"

/-- The entry about a declaration that replaces one of another project. -/
def replacedEntry? (index : SymbolIndex) (name project : Text) : Option LogEntry :=
  match index.provenance? name with
  | some previous =>
      if previous = project then none
      else
        some ⟨.debug, logTarget, "duplicate declaration; keeping the later project".toList,
          [("symbol", .bare name), ("previous", .bare previous), ("project", .bare project)]⟩
  | none => none

/-- The entries about declarations of one project. -/
def declarationEntries (project : Text) (index : SymbolIndex) : List Declaration → List LogEntry
  | [] => []
  | declaration :: rest =>
      let later := declarationEntries project (record project index declaration) rest
      if declaration.kind.isType then
        (index.replacedEntry? declaration.name project).toList ++ later
      else later

/-- The entries about the index of listed files, after those that it holds and that
were counted. -/
def extendEntries (tree : Tree) (index : SymbolIndex) (count : Nat) : List Listed → List LogEntry
  | [] =>
      [⟨.debug, logTarget, "symbol index built".toList,
        [("files", .count count), ("symbols", .count index.size),
          ("namespaces", .count index.scopes.length)]⟩]
  | .error _ :: _ => []
  | .ok entry :: rest =>
      match SourceFile.read tree entry.path with
      | .error _ => []
      | .ok file =>
          declarationEntries entry.project index (scan file.content) ++
            extendEntries tree (index.recordText entry.project file.content) (count + 1) rest

/-- The entries about the index of listed files. -/
def buildEntries (tree : Tree) (listed : List Listed) : List LogEntry :=
  extendEntries tree empty 0 listed

end SymbolIndex

namespace Survey

/-- Where the log entries about checks come from. -/
def logTarget : String := "mender-checks::check"

/-- The entries about a finding. -/
def findingEntries (check : String) : Finding → List LogEntry
  | .skippedRoot path => [.skippedRoot logTarget path]
  | .checked warnings => warnings.map fun warning =>
      ⟨.warn, logTarget, warning.display, [("check", .quoted check.toList)]⟩

/-- The entries about a survey by a check. -/
def entries (check : String) (survey : Survey) : List LogEntry :=
  survey.findings.flatMap (findingEntries check) ++
    match survey.report with
    | .error _ => []
    | .ok report =>
        [⟨.debug, logTarget, "check finished".toList,
          [("check", .quoted check.toList), ("files", .count report.filesChecked),
            ("warnings", .count report.count)]⟩]

end Survey

namespace Tidying

/-- Where the log entries about white space come from. -/
def logTarget : String := "mender-checks::whitespace"

/-- The entries about one step. -/
def stepEntries : Tidied → List LogEntry
  | .skippedRoot path => [.skippedRoot logTarget path]
  | .unchanged _ => []
  | .changed path =>
      [⟨.debug, logTarget, "normalised".toList, [("path", .bare (Path.normalize path))]⟩]

/-- The entries about bringing files into normal form. -/
def entries (tidying : Tidying) : List LogEntry :=
  tidying.steps.flatMap stepEntries ++
    match tidying.report with
    | .error _ => []
    | .ok report =>
        [⟨.info, logTarget, "whitespace normalised".toList,
          [("files", .count report.filesSeen), ("changed", .count report.changed.length)]⟩]

end Tidying

namespace Run

/-- Where the log entries about trials come from. -/
def logTarget : String := "mender-harness::rewriter"

/-- The entries about an event. -/
def eventEntries : Event → List LogEntry
  | .built .. | .fileStarted _ => []
  | .found candidate =>
      [⟨.debug, logTarget, "candidate found".toList,
        [("path", .bare candidate.path), ("line", .count (candidate.line + 1)),
          ("original", .quoted candidate.before)]⟩]
  | .attempted path attempt _ =>
      let fields := [("path", .bare path), ("line", .count (attempt.line + 1))]
      if attempt.isCommitted then [⟨.info, logTarget, "edit committed".toList, fields⟩]
      else [⟨.warn, logTarget, "edit broke the build; reverted".toList, fields⟩]
  | .fileFinished report =>
      [⟨.debug, logTarget, "file done".toList,
        [("path", .bare report.path), ("committed", .count report.committed),
          ("reverted", .count report.reverted)]⟩]

/-- The entries about a run by a rule. -/
def entries {State : Type} (rule : String) (run : Run State RunReport) : List LogEntry :=
  run.events.flatMap eventEntries ++
    match run.result with
    | .error _ => []
    | .ok report =>
        [⟨.info, logTarget, "rewrite run finished".toList,
          [("rule", .quoted rule.toList), ("files", .count report.files.length),
            ("committed", .count report.committed), ("reverted", .count report.reverted)]⟩]

end Run

end Upkeep
