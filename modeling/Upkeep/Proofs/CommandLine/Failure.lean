import Upkeep.Command.Launch
import Upkeep.Proofs.Build.Command
import Upkeep.Proofs.Check.Survey
import Upkeep.Proofs.CommandLine.Start
import Upkeep.Proofs.SymbolIndex
import Upkeep.Proofs.Tree.Walk
import Upkeep.Proofs.Trial.Run
import Upkeep.Proofs.Whitespace.Files

/-!
Runs that fail before an edit is tried.  What has to be right before the first build is looked at
before anything is written, the build log included; and a first build that does not pass leaves
nothing behind but the log.
-/

namespace Upkeep

namespace Task

/-- What keeps a task that tries edits from its first build. -/
inductive Unready (task : Task) (config : Config) (tree : Tree) : Prop where
  | missingRoot {project} :
      task.files = [] →
      project ∈ config.projects →
      tree.isFolder (Path.join config.baseDir project) = false →
      Unready task config tree
  | refusedFolder {project place fault} :
      task.files = [] →
      project ∈ config.projects →
      tree.Refuses (Path.join config.baseDir project) place fault →
      Unready task config tree
  | unlisted {error} :
      .error error ∈ task.targets config tree →
      Unready task config tree
  | command {error} :
      config.command = .error error →
      Unready task config tree
  | missingHeaders {project} :
      task.pass = .constify →
      project ∈ config.projects →
      tree.isFolder (Path.join config.baseDir project) = false →
      Unready task config tree
  | refusedHeaders {project place fault} :
      task.pass = .constify →
      project ∈ config.projects →
      tree.Refuses (Path.join config.baseDir project) place fault →
      Unready task config tree
  | unreadableHeader {entry error} :
      task.pass = .constify →
      .ok entry ∈ (config.listing config.headers).walk tree →
      SourceFile.read tree entry.path = .error error →
      Unready task config tree

end Task

section

variable {task : Task} {config : Config} {tree : Tree} {launch : Launcher} {rule : Rule}

/-- A project that is no folder is listed as missing. -/
theorem missingRoot_mem_walk
    {listing : Listing} {project : Text}
    (isProject : project ∈ listing.projects)
    (missing : tree.isFolder (Path.join listing.base project) = false) :
    .error (.missingRoot (Path.join listing.base project)) ∈ listing.walk tree := by
  apply List.mem_flatMap.2 ⟨project, isProject, _⟩
  rw [Tree.isFolder] at missing
  rw [Listing.walkProject]
  split
  next found => simp [found] at missing
  · exact List.mem_singleton_self _

/-- Whether nothing comes of trying edits: files cannot be listed, or the command is faulty. -/
def Task.CannotEdit (task : Task) (config : Config) (tree : Tree) : Prop :=
  (∃ error, .error error ∈ task.targets config tree) ∨ ∃ error, config.command = .error error

theorem exists_stop_of_cannotEdit
    (cannot : task.CannotEdit config tree) :
    ∃ error, ∀ rule launch, task.edit rule launch config tree = .stop tree error := by
  cases found : allFound (task.targets config tree) with
  | error error =>
      refine ⟨.source error, ?_⟩
      intro rule launch
      rw [Task.edit, found]
  | ok files =>
      rcases cannot with ⟨error, listed⟩ | ⟨error, faulty⟩
      · rw [allFound_eq_ok_iff.1 found] at listed
        simp at listed
      · refine ⟨.buildCommand error, ?_⟩
        intro rule launch
        rw [Task.edit, found, faulty]

theorem fault?_eq_none_of_build
    {listed : List Listed} {index : SymbolIndex}
    (built : SymbolIndex.build tree listed = .ok index) :
    ∀ item ∈ listed, SymbolIndex.fault? tree item = none := by
  rw [SymbolIndex.build_eq] at built
  split at built
  · simp at built
  next faultless => exact List.findSome?_eq_none_iff.1 faultless

/-- With an index, if it takes one, an unready task cannot edit. -/
theorem cannotEdit_of_unready
    (unready : task.Unready config tree)
    (indexed : task.pass = .constify → ∃ index,
      SymbolIndex.build tree ((config.listing config.headers).walk tree) = .ok index) :
    task.CannotEdit config tree := by
  have targets : task.files = [] →
      task.targets config tree = (config.listing (config.passExtensions task.pass)).walk tree := by
    intro noFiles
    rw [Task.targets, noFiles]
    rfl
  cases unready with
  | missingRoot noFiles isProject missing =>
      exact .inl ⟨_, targets noFiles ▸ missingRoot_mem_walk isProject missing⟩
  | refusedFolder noFiles isProject refuses =>
      exact .inl ⟨_, targets noFiles ▸ Listing.refusal_mem_walk isProject refuses⟩
  | unlisted listed => exact .inl ⟨_, listed⟩
  | command faulty => exact .inr ⟨_, faulty⟩
  | missingHeaders isConstify isProject missing =>
      obtain ⟨index, built⟩ := indexed isConstify
      have listed : _ ∈ (config.listing config.headers).walk tree :=
        missingRoot_mem_walk isProject missing
      have none_ := fault?_eq_none_of_build built _ listed
      simp [SymbolIndex.fault?] at none_
  | refusedHeaders isConstify isProject refuses =>
      obtain ⟨index, built⟩ := indexed isConstify
      have listed : _ ∈ (config.listing config.headers).walk tree :=
        Listing.refusal_mem_walk isProject refuses
      have none_ := fault?_eq_none_of_build built _ listed
      simp [SymbolIndex.fault?] at none_
  | unreadableHeader isConstify listed unread =>
      obtain ⟨index, built⟩ := indexed isConstify
      have none_ := fault?_eq_none_of_build built _ listed
      simp [SymbolIndex.fault?, unread] at none_

/-- An unready task ends with an error, whatever a launch would have done. -/
theorem exists_work_of_unready
    (builds : task.pass.builds = true)
    (unready : task.Unready config tree) :
    ∃ work : Work, work.transcript = [] ∧ work.tree = tree ∧ (∃ error, work.result = .error error) ∧
      ∀ launch, task.work launch config tree = work := by
  cases pass : task.pass with
  | constify =>
      cases built : SymbolIndex.build tree ((config.listing config.headers).walk tree) with
      | error error =>
          refine ⟨(Work.stop tree (.source error)).after
            (SymbolIndex.buildEntries tree ((config.listing config.headers).walk tree)),
            rfl, rfl, ⟨_, rfl⟩, ?_⟩
          intro launch
          simp only [Task.work, pass, built]
      | ok index =>
          obtain ⟨error, stops⟩ :=
            exists_stop_of_cannotEdit (cannotEdit_of_unready unready fun _ => ⟨index, built⟩)
          refine ⟨(Work.stop tree error).after
            (SymbolIndex.buildEntries tree ((config.listing config.headers).walk tree) ++
              [.indexReady index]), rfl, rfl, ⟨_, rfl⟩, ?_⟩
          intro launch
          simp only [Task.work, pass, built, stops]
  | pruneIncludes =>
      obtain ⟨error, stops⟩ :=
        exists_stop_of_cannotEdit (cannotEdit_of_unready unready (by simp [pass]))
      refine ⟨.stop tree error, rfl, rfl, ⟨_, rfl⟩, ?_⟩
      intro launch
      simp only [Task.work, pass, stops]
  | checkGuards => simp [pass, Pass.builds] at builds
  | checkLicense => simp [pass, Pass.builds] at builds
  | checkIncludes => simp [pass, Pass.builds] at builds
  | normalize => simp [pass, Pass.builds] at builds

namespace Config

def build (config : Config) (command : BuildCommand) : CommandBuild :=
  ⟨command, config.buildFolder, config.logPath⟩

/-- Whether the first build does not pass, as far as there is one: it fails or cannot be
started. -/
def BaselineFails (config : Config) (launch : Launcher) (tree : Tree) : Prop :=
  ∀ command start, config.command = .ok command →
    (config.build command).prepareLog tree = .ok start →
    ((config.build command).run launch start).1 ≠ .ok .pass

/-- Whether the build command, if it can be read, does no more to the files than to print. -/
def BuildPrints (config : Config) (launch : Launcher) : Prop :=
  ∀ command, config.command = .ok command → OnlyPrints launch command

end Config

/-- A first build that does not pass ends the run and leaves what the build left. -/
theorem tryEdits_of_not_pass
    {State : Type} (oracle : Oracle State) (world : World State)
    (notPass : (oracle.build world).1 ≠ .ok .pass) (rule : Rule) (paths : List Text) :
    (tryEdits rule oracle paths world).transcript = [] ∧
      (∃ error, (tryEdits rule oracle paths world).result = .error error) ∧
      (tryEdits rule oracle paths world).world = (oracle.build world).2 := by
  cases answer : (oracle.build world).1 with
  | error error =>
      rw [tryEdits_of_error answer]
      exact ⟨rfl, ⟨_, rfl⟩, rfl⟩
  | ok verdict =>
      cases verdict with
      | pass => exact absurd answer notPass
      | fail =>
          rw [tryEdits_of_fail answer]
          exact ⟨rfl, ⟨_, rfl⟩, rfl⟩

theorem edit_of_baselineFails
    (prints : config.BuildPrints launch)
    (fails : config.BaselineFails launch tree) :
    (task.edit rule launch config tree).transcript = [] ∧
      (∃ error, (task.edit rule launch config tree).result = .error error) ∧
      tree.ChangedWithin (tree.LogAt config.logPath) (task.edit rule launch config tree).tree := by
  unfold Task.edit
  cases allFound (task.targets config tree) with
  | error error => exact ⟨rfl, ⟨_, rfl⟩, .refl _ tree⟩
  | ok files =>
      cases read : config.command with
      | error error => exact ⟨rfl, ⟨_, rfl⟩, .refl _ tree⟩
      | ok command =>
          dsimp only
          cases prepared : CommandBuild.prepareLog
              ⟨command, config.buildFolder, config.logPath⟩ tree with
          | error error => exact ⟨rfl, ⟨_, rfl⟩, .refl _ tree⟩
          | ok start =>
              have notPass := fails command start read prepared
              obtain ⟨silent, ⟨error, failed⟩, left⟩ := tryEdits_of_not_pass
                ((config.build command).oracle launch) ⟨(), start⟩ notPass rule
                (files.map ProjectFile.path)
              obtain ⟨changed, _, isLog⟩ := CommandBuild.prepareLog_changedWithin prepared
              have built := (config.build command).run_changedWithin (prints command read) start
              refine ⟨silent, ⟨.trial error, ?_⟩, ?_⟩
              · rw [Config.build] at failed
                simp only [failed]
                rfl
              · rw [Config.build] at left
                simp only [left]
                exact changed.trans (built.mono isLog)

theorem work_of_baselineFails
    (builds : task.pass.builds = true)
    (prints : config.BuildPrints launch)
    (fails : config.BaselineFails launch tree) :
    (task.work launch config tree).transcript = [] ∧
      (∃ error, (task.work launch config tree).result = .error error) ∧
      tree.ChangedWithin (tree.LogAt config.logPath) (task.work launch config tree).tree := by
  unfold Task.work
  cases pass : task.pass with
  | constify =>
      dsimp only
      split
      · exact ⟨rfl, ⟨_, rfl⟩, .refl _ tree⟩
      · exact edit_of_baselineFails prints fails
  | pruneIncludes => exact edit_of_baselineFails prints fails
  | checkGuards => simp [pass, Pass.builds] at builds
  | checkLicense => simp [pass, Pass.builds] at builds
  | checkIncludes => simp [pass, Pass.builds] at builds
  | normalize => simp [pass, Pass.builds] at builds

/-- Whether a run fails and tells nothing on its output. -/
def Ending.FailsSilently (ending : Ending) : Prop :=
  ending.succeeded = false ∧ ending.output = []

theorem failsSilently_ofWork
    {work : Work} {error : RunError} (filter : LogFilter) (format : LogFormat)
    (silent : work.transcript = [])
    (failed : work.result = .error error) :
    (Ending.ofWork filter format work).FailsSilently := by
  simp [Ending.ofWork, Ending.FailsSilently, failed, silent, Ending.textOf]

/-- The check that a pass makes. -/
def Config.check? (config : Config) : Pass → Option Check
  | .checkGuards => some checkGuards
  | .checkLicense => some (checkLicense config.licenseMarker)
  | .checkIncludes => some (checkIncludes config.projects)
  | _ => none

/-- What a task that builds nothing tells, leaves and comes to as it goes through a list. -/
def Task.outcome (task : Task) (config : Config) (tree : Tree) (listed : List Listed) :
    List Text × Tree × Except SourceError Bool :=
  match config.check? task.pass with
  | some check =>
      match (check.survey tree listed).report with
      | .error error => ([], tree, .error error)
      | .ok report => (report.transcript, tree, .ok (!task.isStrict || report.isClean))
  | none =>
      match (tidyFiles tree listed).report with
      | .error error => ([], (tidyFiles tree listed).tree, .error error)
      | .ok report => (report.transcript, (tidyFiles tree listed).tree, .ok true)

theorem outcome_withoutMissing (task : Task) (config : Config) (tree : Tree)
    (listed : List Listed) :
    task.outcome config tree (withoutMissing listed) = task.outcome config tree listed := by
  simp only [Task.outcome, Check.report_withoutMissing, report_tidyFiles_withoutMissing,
    tree_tidyFiles_withoutMissing]

theorem outcome_nil (task : Task) (config : Config) (tree : Tree) :
    (task.outcome config tree []).2 = (tree, .ok true) := by
  unfold Task.outcome
  cases config.check? task.pass with
  | none => rfl
  | some check => simp [Check.survey, Survey.report, CheckReport.ofFindings, CheckReport.isClean]

/-- A task that builds nothing does to the files that it goes through what its outcome says. -/
theorem work_eq_outcome
    (config : Config) (tree : Tree)
    (builds : task.pass.builds = false) (launch : Launcher) :
    let work := task.work launch config tree
    let outcome := task.outcome config tree (task.targets config tree)
    work.transcript = outcome.1 ∧ work.tree = outcome.2.1 ∧
      work.result = outcome.2.2.mapError .source := by
  have checked : ∀ check : Check, config.check? task.pass = some check →
      (task.check check config tree).transcript =
          (task.outcome config tree (task.targets config tree)).1 ∧
        (task.check check config tree).tree =
          (task.outcome config tree (task.targets config tree)).2.1 ∧
        (task.check check config tree).result =
          (task.outcome config tree (task.targets config tree)).2.2.mapError .source := by
    intro check isCheck
    unfold Task.check Task.outcome
    rw [isCheck]
    dsimp only
    cases (check.survey tree (task.targets config tree)).report <;> exact ⟨rfl, rfl, rfl⟩
  simp only [Task.work]
  cases pass : task.pass with
  | constify => simp [pass, Pass.builds] at builds
  | pruneIncludes => simp [pass, Pass.builds] at builds
  | checkGuards => exact checked _ (by rw [pass]; rfl)
  | checkLicense => exact checked _ (by rw [pass]; rfl)
  | checkIncludes => exact checked _ (by rw [pass]; rfl)
  | normalize =>
      have noCheck : config.check? task.pass = none := by rw [pass]; rfl
      unfold Task.tidy Task.outcome
      rw [noCheck]
      dsimp only
      cases (tidyFiles tree (task.targets config tree)).report <;> exact ⟨rfl, rfl, rfl⟩

theorem succeeded_ofWork_iff (filter : LogFilter) (format : LogFormat) (work : Work) :
    (Ending.ofWork filter format work).succeeded = true ↔ work.result = .ok true := by
  unfold Ending.ofWork
  dsimp only
  split
  next succeeded finished => simp [finished]
  next error failed => simp [failed]

@[simp]
theorem output_ofWork (filter : LogFilter) (format : LogFormat) (work : Work) :
    (Ending.ofWork filter format work).output = Ending.textOf work.transcript := by
  unfold Ending.ofWork
  dsimp only
  split <;> rfl

section

variable {environment : Environment} {arguments : List Text}
  (starts : Starts environment arguments tree task config) (logIsOpen : Bool)

include starts

/-- An unready run fails before anything is launched. -/
theorem exists_ending_of_unready
    (builds : task.pass.builds = true)
    (unready : task.Unready config tree) :
    ∃ ending : Ending, ending.FailsSilently ∧ ending.tree = tree ∧
      ∀ launch, runProgram launch logIsOpen environment arguments tree = ending := by
  obtain ⟨work, silent, sameTree, ⟨error, failed⟩, works⟩ := exists_work_of_unready builds unready
  cases opened : openFilter logIsOpen config with
  | error error =>
      refine ⟨.failed tree (RunError.logFilter config.logFilter error).message, ⟨rfl, rfl⟩, rfl, ?_⟩
      intro launch
      rw [starts.runProgram_eq, opened]
  | ok filter =>
      refine ⟨.ofWork filter config.logFormat work, failsSilently_ofWork _ _ silent failed, ?_, ?_⟩
      · rw [tree_ofWork, sameTree]
      · intro launch
        rw [starts.runProgram_eq, opened, works]

theorem runProgram_of_baselineFails
    (builds : task.pass.builds = true)
    (prints : config.BuildPrints launch)
    (fails : config.BaselineFails launch tree) :
    (runProgram launch logIsOpen environment arguments tree).FailsSilently ∧
      tree.ChangedWithin (tree.LogAt config.logPath)
        (runProgram launch logIsOpen environment arguments tree).tree := by
  obtain ⟨silent, ⟨error, failed⟩, changed⟩ := work_of_baselineFails builds prints fails
  rw [starts.runProgram_eq]
  cases openFilter logIsOpen config with
  | error error => exact ⟨⟨rfl, rfl⟩, .refl _ tree⟩
  | ok filter =>
      dsimp only
      rw [tree_ofWork]
      exact ⟨failsSilently_ofWork _ _ silent failed, changed⟩

/-- A run that builds nothing ends as the outcome of its task says. -/
theorem runProgram_of_outcome
    {filter : LogFilter} (launch : Launcher)
    (builds : task.pass.builds = false)
    (opened : openFilter logIsOpen config = .ok filter) :
    let ending := runProgram launch logIsOpen environment arguments tree
    let outcome := task.outcome config tree (task.targets config tree)
    ending.output = Ending.textOf outcome.1 ∧ ending.tree = outcome.2.1 ∧
      (ending.succeeded = true ↔ outcome.2.2 = .ok true) := by
  obtain ⟨told, left, result⟩ := work_eq_outcome config tree builds launch
  have succeeds : ∀ outcome : Except SourceError Bool,
      outcome.mapError RunError.source = .ok true ↔ outcome = .ok true := by
    intro outcome
    cases outcome <;> simp
  dsimp only
  rw [starts.runProgram_eq, opened]
  dsimp only
  rw [output_ofWork, tree_ofWork, succeeded_ofWork_iff, told, left, result, succeeds]
  exact ⟨rfl, rfl, .rfl⟩

end

/-- A run that tries edits looks at its targets, its command and, if it takes them, its headers
before it writes or starts anything: if one of them is at fault, as where a project is missing or
a folder below one cannot be listed, it fails without a word on its output and leaves the tree as
it was, whatever a launch would have done.  If it is only that the first build does not pass, it
fails likewise and nothing differs but the log.

For the passes that build nothing a missing project is as good as not listed. -/
theorem run_fails_without_trace
    {environment : Environment} {arguments : List Text} {tree : Tree} {task : Task}
    {config : Config}
    (starts : Starts environment arguments tree task config) (logIsOpen : Bool) :
    (task.pass.builds = true → task.Unready config tree →
      ∃ ending : Ending, ending.FailsSilently ∧ ending.tree = tree ∧
        ∀ launch, runProgram launch logIsOpen environment arguments tree = ending) ∧
    (task.pass.builds = true → ∀ launch, config.BuildPrints launch →
      config.BaselineFails launch tree →
      (runProgram launch logIsOpen environment arguments tree).FailsSilently ∧
      tree.ChangedWithin (tree.LogAt config.logPath)
        (runProgram launch logIsOpen environment arguments tree).tree) ∧
    (task.pass.builds = false → ∀ launch filter, openFilter logIsOpen config = .ok filter →
      let ending := runProgram launch logIsOpen environment arguments tree
      let found := withoutMissing (task.targets config tree)
      let outcome := task.outcome config tree found
      ending.output = Ending.textOf outcome.1 ∧ ending.tree = outcome.2.1 ∧
        (ending.succeeded = true ↔ outcome.2.2 = .ok true) ∧
        (found = [] → ending.succeeded = true)) := by
  refine ⟨exists_ending_of_unready starts logIsOpen, ?_, ?_⟩
  · intro builds launch prints fails
    exact runProgram_of_baselineFails starts logIsOpen builds prints fails
  · intro builds launch filter opened
    dsimp only
    rw [outcome_withoutMissing]
    obtain ⟨told, left, succeeds⟩ := runProgram_of_outcome starts logIsOpen launch builds opened
    refine ⟨told, left, succeeds, ?_⟩
    intro none_
    apply succeeds.2
    rw [← outcome_withoutMissing, none_, outcome_nil]

/-- A command that never ends well never passes. -/
theorem run_ne_pass
    {build : CommandBuild}
    (fails : ∀ streams session, ∃ status left,
      launch build.command streams session = .ok (status, left) ∧ status ≠ 0) :
    (build.run launch tree).1 ≠ .ok .pass := by
  unfold CommandBuild.run
  cases build.openLog tree with
  | error error => simp
  | ok opened =>
      obtain ⟨sink, tree⟩ := opened
      dsimp only
      cases build.folderPlace tree with
      | error fault => simp
      | ok workingDir =>
          obtain ⟨status, left, ends, bad⟩ :=
            fails ⟨sink, sink⟩ ⟨{ tree with workingDir }, .empty, []⟩
          simp [ends, bad]

end

/-- The arguments for a pass over one project with a build that fails and a log. -/
def failingArguments (project pass : String) : List Text :=
  ["mender", "--roots", project, "--build-command", "false", "--build-log", "log", pass].map
    String.toList

def failingConfig (project : String) : Config :=
  { Config.default with
    roots := [project.toList], buildCommand := "false".toList, buildLog := some "log".toList }

theorem command_failingConfig (project : String) :
    (failingConfig project).command = .ok ⟨"false".toList, []⟩ := by
  have read : BuildCommand.ofLine "false".toList = .ok ⟨"false".toList, []⟩ := by decide +kernel
  exact read

theorem buildPrints_failingConfig (project : String) :
    (failingConfig project).BuildPrints (launch launchDepth) := by
  intro command read sink session status left launched
  rw [command_failingConfig, Except.ok.injEq] at read
  have ends : launch launchDepth ⟨"false".toList, []⟩ ⟨sink, sink⟩ session = .ok (1, session) := rfl
  rw [← read, ends, Except.ok.injEq, Prod.mk.injEq] at launched
  rw [← launched.2]
  exact .refl _ _

theorem baselineFails_failingConfig (project : String) (tree : Tree) :
    (failingConfig project).BaselineFails (launch launchDepth) tree := by
  intro command start read prepared
  rw [command_failingConfig, Except.ok.injEq] at read
  subst read
  apply run_ne_pass
  intro streams session
  exact ⟨1, session, rfl, by simp⟩

theorem run_fails_without_trace_of_failingArguments :
    (∃ ending : Ending, ending.FailsSilently ∧ ending.tree = Listing.nestedTree ∧
      ∀ launch, runProgram launch false [] (failingArguments "q" "prune-includes")
        Listing.nestedTree = ending) ∧
    (∃ ending : Ending, ending.FailsSilently ∧ ending.tree = Listing.nestedTree ∧
      ∀ launch, runProgram launch false [] (failingArguments "r" "prune-includes")
        Listing.nestedTree = ending) ∧
    (runProgram (launch launchDepth) false [] (failingArguments "p" "constify")
      Listing.nestedTree).FailsSilently ∧
    (runProgram (launch launchDepth) false [] (failingArguments "q" "check-guards")
      Listing.nestedTree).succeeded = true := by
  have starts : Starts [] (failingArguments "q" "prune-includes") Listing.nestedTree
      ⟨.pruneIncludes, false, []⟩ (failingConfig "q") := ⟨by decide +kernel, rfl⟩
  have startsRefused : Starts [] (failingArguments "r" "prune-includes") Listing.nestedTree
      ⟨.pruneIncludes, false, []⟩ (failingConfig "r") := ⟨by decide +kernel, rfl⟩
  have startsToo : Starts [] (failingArguments "p" "constify") Listing.nestedTree
      ⟨.constify, false, []⟩ (failingConfig "p") := ⟨by decide +kernel, rfl⟩
  have startsCheck : Starts [] (failingArguments "q" "check-guards") Listing.nestedTree
      ⟨.checkGuards, false, []⟩ (failingConfig "q") := ⟨by decide +kernel, rfl⟩
  refine ⟨?_, ?_, ?_, ?_⟩
  · apply (run_fails_without_trace starts false).1 rfl
    have missing : Listing.nestedTree.isFolder (Path.join (failingConfig "q").baseDir "q".toList) =
        false := by
      decide +kernel
    exact .missingRoot rfl (List.mem_singleton_self _) missing
  · apply (run_fails_without_trace startsRefused false).1 rfl
    have reached : (Node.folder Node.folderMode Listing.closedEntries).Reaches ["d".toList]
        (.folder ⟨0o300, some .permissionDenied⟩ [("y.h".toList, .file ⟨.empty, 0o644⟩)]) :=
      Node.reaches_folder_cons_iff.2 ⟨rfl, _, by rfl, Node.reaches_nil_iff.2 rfl⟩
    have refuses : Listing.nestedTree.Refuses (Path.join (failingConfig "r").baseDir "r".toList)
        ["d".toList] .permissionDenied :=
      ⟨_, _, _, _, by rfl, reached, rfl⟩
    exact .refusedFolder rfl (List.mem_singleton_self _) refuses
  · exact ((run_fails_without_trace startsToo false).2.1 rfl (launch launchDepth)
      (buildPrints_failingConfig "p") (baselineFails_failingConfig "p" _)).1
  · have opened : ∃ filter, openFilter false (failingConfig "q") = .ok filter := ⟨_, rfl⟩
    obtain ⟨filter, opened⟩ := opened
    obtain ⟨_, _, _, succeeds⟩ :=
      (run_fails_without_trace startsCheck false).2.2 rfl (launch launchDepth) filter opened
    exact succeeds (by decide +kernel)

end Upkeep
