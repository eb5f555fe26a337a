import Upkeep.Command.Launch
import Upkeep.Proofs.Build.Command
import Upkeep.Proofs.CommandLine.Start
import Upkeep.Proofs.Tree.Below
import Upkeep.Proofs.Tree.Listed
import Upkeep.Proofs.Trial.Within

/-!
What a run without given files leaves as it was.  Checks change nothing, and the other passes
change no more than the bytes of listed files and, if they build, the build log.
-/

namespace Upkeep

/-- The places that a task without given files can change. -/
def Task.MayTouch (task : Task) (config : Config) (tree : Tree) (place : Place) : Prop :=
  (config.listing (config.passExtensions task.pass)).FileAt tree place ∨
    task.pass.builds = true ∧ tree.LogAt config.logPath place

/-- Writes to regular files keep changes within the places of these files. -/
theorem writesKeep_changedWithin
    {paths : List Text} {touched : Place → Prop} {tree : Tree}
    (regular : ∀ path ∈ paths, '\x00' ∉ Path.normalize path →
      ∃ place content, touched place ∧ tree.IsRegular (Path.normalize path) place content) :
    WritesKeep paths (tree.ChangedWithin touched) := by
  intro path text now left member changed written
  obtain ⟨place, content, isTouched, isRegular⟩ :=
    regular path member (Tree.noNul_of_writeText written)
  obtain ⟨bytes, stillRegular⟩ := changed.isRegular isRegular
  apply changed.trans
  apply (stillRegular.changedWithin written).mono
  rintro _ rfl
  exact isTouched

theorem Task.tree_edit
    {task : Task} {rule : Rule} {launch : Launcher} {config : Config} {tree start : Tree}
    {files : List ProjectFile} {command : BuildCommand}
    (found : allFound (task.targets config tree) = .ok files)
    (read : config.command = .ok command)
    (prepared : CommandBuild.prepareLog ⟨command, config.buildFolder, config.logPath⟩ tree =
      .ok start) :
    (task.edit rule launch config tree).tree =
      (tryEdits rule (CommandBuild.oracle launch ⟨command, config.buildFolder, config.logPath⟩)
        (files.map ProjectFile.path) ⟨(), start⟩).world.tree := by
  simp only [Task.edit, found, read, prepared]

section

variable {task : Task} {config : Config} {tree : Tree} {launch : Launcher} {rule : Rule}
  (noFiles : task.files = [])
  (ordered : tree.top.Ordered)
  (named : tree.top.Named)
  (inside : (config.listing (config.passExtensions task.pass)).StaysInside)

include noFiles ordered named inside

theorem exists_isRegular_of_mem_targets
    {entry : ProjectFile}
    (listed : .ok entry ∈ task.targets config tree)
    (noNul : '\x00' ∉ Path.normalize entry.path) :
    ∃ place content, task.MayTouch config tree place ∧
      tree.IsRegular (Path.normalize entry.path) place content := by
  rw [Task.targets, noFiles] at listed
  obtain ⟨place, content, fileAt, regular⟩ :=
    Listing.exists_isRegular_of_mem_walk ordered named inside listed noNul
  exact ⟨place, content, .inl fileAt, regular⟩

/-- Trying edits on listed files changes these files and the log. -/
theorem edit_changedWithin
    (builds : task.pass.builds = true)
    (onlyPrints : ∀ command, config.command = .ok command → OnlyPrints launch command) :
    tree.ChangedWithin (task.MayTouch config tree) (task.edit rule launch config tree).tree := by
  unfold Task.edit
  cases found : allFound (task.targets config tree) with
  | error error => exact .refl _ tree
  | ok files =>
      cases read : config.command with
      | error error => exact .refl _ tree
      | ok command =>
          dsimp only
          cases prepared : CommandBuild.prepareLog
              ⟨command, config.buildFolder, config.logPath⟩ tree with
          | error error => exact .refl _ tree
          | ok start =>
              obtain ⟨changed, ready, isLog⟩ := CommandBuild.prepareLog_changedWithin prepared
              have first : tree.ChangedWithin (task.MayTouch config tree) start :=
                changed.mono fun place logAt => .inr ⟨builds, logAt⟩
              -- Changes are counted from the log's start on: there the log is a file, so that no
              -- write to a target can lead its path elsewhere.
              refine first.trans (tryEdits_holds ?_ ?_ (.refl _ start))
              · apply writesKeep_changedWithin
                intro path member noNul
                obtain ⟨entry, isFile, rfl⟩ := List.mem_map.1 member
                have listed : .ok entry ∈ task.targets config tree := by
                  rw [allFound_eq_ok_iff.1 found]
                  exact List.mem_map_of_mem isFile
                obtain ⟨place, content, may, regular⟩ :=
                  exists_isRegular_of_mem_targets noFiles ordered named inside listed noNul
                obtain ⟨bytes, stillRegular⟩ := changed.isRegular regular
                exact ⟨place, _, may, stillRegular⟩
              · exact CommandBuild.oracle_keeps (onlyPrints command read) ready
                  fun place logAt => .inr ⟨builds, isLog place logAt⟩

theorem tidy_changedWithin :
    tree.ChangedWithin (task.MayTouch config tree) (task.tidy config tree).tree := by
  have writes : WritesKeep (pathsOf (task.targets config tree))
      (tree.ChangedWithin (task.MayTouch config tree)) := by
    apply writesKeep_changedWithin
    intro path member noNul
    obtain ⟨entry, listed, rfl⟩ := mem_pathsOf_iff.1 member
    exact exists_isRegular_of_mem_targets noFiles ordered named inside listed noNul
  apply tidyFiles_holds writes _ (.refl _ tree)
  intro entry listed
  exact mem_pathsOf_iff.2 ⟨entry, listed, rfl⟩

theorem work_changedWithin
    (onlyPrints : ∀ command, config.command = .ok command → OnlyPrints launch command) :
    tree.ChangedWithin (task.MayTouch config tree) (task.work launch config tree).tree := by
  have edited : ∀ rule, task.pass.builds = true → tree.ChangedWithin (task.MayTouch config tree)
      (task.edit rule launch config tree).tree := fun _ builds =>
    edit_changedWithin noFiles ordered named inside builds onlyPrints
  unfold Task.work
  split
  next isPass =>
    dsimp only
    split
    · exact .refl _ tree
    next index _ => exact edited (constify index) (by rw [isPass]; rfl)
  next isPass => exact edited pruneIncludes (by rw [isPass]; rfl)
  · exact .refl _ tree
  · exact .refl _ tree
  · exact .refl _ tree
  · exact tidy_changedWithin noFiles ordered named inside

end

/-- A run without given files leaves everything as it was but for the bytes of regular files below
a project that have an extension of the pass, and for the log of a pass that builds: nothing else is
made, removed or given other permissions, however the run ends.  A check leaves the whole tree.

The projects and their base folder do not go up, and the build command does no more to the files
than to print to the log. -/
theorem run_without_files_touches_listed_files_only
    {environment : Environment} {arguments : List Text} {tree : Tree} {task : Task}
    {config : Config} (launch : Launcher) (logIsOpen : Bool)
    (starts : Starts environment arguments tree task config)
    (noFiles : task.files = [])
    (ordered : tree.top.Ordered)
    (named : tree.top.Named)
    (inside : (config.listing (config.passExtensions task.pass)).StaysInside)
    (onlyPrints : ∀ command, config.command = .ok command → OnlyPrints launch command) :
    (task.pass.isCheck = true →
      (runProgram launch logIsOpen environment arguments tree).tree = tree) ∧
    tree.ChangedWithin (task.MayTouch config tree)
      (runProgram launch logIsOpen environment arguments tree).tree := by
  rcases starts.tree_runProgram launch logIsOpen with same | same
  · rw [same]
    exact ⟨fun _ => rfl, .refl _ tree⟩
  · rw [same]
    refine ⟨?_, work_changedWithin noFiles ordered named inside onlyPrints⟩
    intro isCheck
    unfold Task.work
    cases pass : task.pass with
    | constify => simp [pass, Pass.isCheck] at isCheck
    | pruneIncludes => simp [pass, Pass.isCheck] at isCheck
    | normalize => simp [pass, Pass.isCheck] at isCheck
    | checkGuards => rfl
    | checkLicense => rfl
    | checkIncludes => rfl

theorem Session.send_changedWithin (session : Session) (sink : Sink) (bytes : ByteArray) :
    session.tree.top.ChangedWithin (fun place => sink = .file place)
      (session.send sink bytes).tree.top := by
  unfold send
  split
  · exact .refl _ _
  · exact .refl _ _
  next place =>
    split
    next file there =>
      apply (Node.changedWithin_put _ there).mono
      rintro _ rfl
      rfl
    · exact .refl _ _

theorem onlyPrints_echo : OnlyPrints (launch launchDepth) ⟨"echo".toList, ["built".toList]⟩ := by
  intro sink session status left launched
  have echoes : ∃ text, launch launchDepth ⟨"echo".toList, ["built".toList]⟩ ⟨sink, sink⟩ session =
      .ok (0, session.sayBytes sink text) := ⟨_, rfl⟩
  obtain ⟨text, ends⟩ := echoes
  rw [ends, Except.ok.injEq, Prod.mk.injEq] at launched
  rw [← launched.2]
  exact session.send_changedWithin sink _

/-- The arguments for a run that builds by `echo` and keeps a log. -/
def echoArguments : List Text :=
  ["mender", "--roots", "p", "--build-command", "echo built", "--build-log", "log",
    "prune-includes"].map String.toList

def echoConfig : Config :=
  { Config.default with
    roots := ["p".toList], buildCommand := "echo built".toList, buildLog := some "log".toList }

theorem starts_echoArguments :
    Starts [] echoArguments Listing.nestedTree ⟨.pruneIncludes, false, []⟩ echoConfig :=
  ⟨by decide +kernel, rfl⟩

theorem command_echoConfig : echoConfig.command = .ok ⟨"echo".toList, ["built".toList]⟩ := by
  decide +kernel

def echoBuild : CommandBuild :=
  ⟨⟨"echo".toList, ["built".toList]⟩, echoConfig.buildFolder, echoConfig.logPath⟩

/-- An include is taken out of the file of the project that has one. -/
theorem readText_work_echoConfig :
    (Task.work ⟨.pruneIncludes, false, []⟩ (launch launchDepth) echoConfig
      Listing.nestedTree).tree.readText "p/a.h".toList = .ok "int a;\n".toList := by
  have found : allFound (Task.targets ⟨.pruneIncludes, false, []⟩ echoConfig Listing.nestedTree) =
      .ok [⟨"p".toList, "./p/a/x.H".toList⟩, ⟨"p".toList, "./p/a.h".toList⟩] := by
    decide +kernel
  have ran : ((echoBuild.prepareLog Listing.nestedTree).toOption.any fun start =>
      (tryEditsWithin 9 pruneIncludes (echoBuild.oracle (launch launchDepth))
        ["./p/a/x.H".toList, "./p/a.h".toList] ⟨(), start⟩).any fun run =>
          run.world.tree.readText "p/a.h".toList == .ok "int a;\n".toList) = true := by
    decide +kernel
  cases prepared : echoBuild.prepareLog Listing.nestedTree with
  | error error =>
      rw [prepared] at ran
      exact absurd ran Bool.false_ne_true
  | ok start =>
      rw [prepared, Except.toOption, Option.any_some] at ran
      obtain ⟨run, ended, content⟩ := (Option.any_eq_true _ _).1 ran
      refine Eq.trans
        (congrArg (Tree.readText · _) (Task.tree_edit found command_echoConfig prepared)) ?_
      rw [List.map_cons, List.map_singleton]
      exact tryEdits_of_within ended ▸ eq_of_beq content

/-- The file with an include loses it and nothing else, and one of another kind keeps it. -/
theorem run_without_files_touches_listed_files_only_of_echoArguments :
    (runProgram (launch launchDepth) false [] echoArguments Listing.nestedTree).tree.readText
      "p/a.h".toList = .ok "int a;\n".toList ∧
    (∃ bytes,
      (runProgram (launch launchDepth) false [] echoArguments Listing.nestedTree).tree.top.get?
        ["p".toList, "a.h".toList] = some (.file ⟨bytes, 0o644⟩)) ∧
    (runProgram (launch launchDepth) false [] echoArguments Listing.nestedTree).tree.top.get?
      ["p".toList, "c.txt".toList] = some (.file Listing.includingFile) := by
  have inside : (echoConfig.listing (echoConfig.passExtensions .pruneIncludes)).StaysInside := by
    rintro folder (rfl | member)
    · decide
    · obtain rfl := List.mem_singleton.1 member
      decide
  have onlyPrints : ∀ command, echoConfig.command = .ok command →
      OnlyPrints (launch launchDepth) command := by
    intro command read
    rw [command_echoConfig, Except.ok.injEq] at read
    exact read ▸ onlyPrints_echo
  obtain ⟨_, changed⟩ := run_without_files_touches_listed_files_only (launch launchDepth) false
    starts_echoArguments rfl Listing.ordered_nestedTree Listing.named_nestedTree inside onlyPrints
  refine ⟨?_, ?_, ?_⟩
  · obtain ⟨filter, opened⟩ : ∃ filter, openFilter false echoConfig = .ok filter := ⟨_, rfl⟩
    rw [starts_echoArguments.runProgram_eq, opened]
    exact (congrArg (Tree.readText · _) (tree_ofWork _ _ _)).trans readText_work_echoConfig
  · have before : Listing.nestedTree.top.get? ["p".toList, "a.h".toList] =
        some (.file Listing.includingFile) := rfl
    exact changed.top.keeps.file before
  · have before : Listing.nestedTree.top.get? ["p".toList, "c.txt".toList] =
        some (.file Listing.includingFile) := rfl
    rw [← Node.map_bare_eq_file_iff, changed.top.others, before]
    · rfl
    · rintro (⟨_, _, root, _, _, names, name, _, _, place, last, accepted, _⟩ |
        ⟨_, path, node?, log, located⟩)
      · have isLast := congrArg List.getLast? place
        have nonempty : names ≠ [] := by
          rintro rfl
          simp at last
        rw [List.getLast?_append_of_ne_nil _ nonempty, last] at isLast
        obtain rfl := Option.some.inj isLast
        have other : ¬ HasExtension (echoConfig.passExtensions .pruneIncludes) "c.txt".toList := by
          have named : Path.fileName? "c.txt".toList = some "c.txt".toList := by decide
          rw [← acceptsPath_iff named]
          decide
        exact other accepted
      · obtain rfl := Option.some.inj log
        have there : Listing.nestedTree.locate true "./log".toList =
            .ok ⟨["log".toList], none⟩ := rfl
        have same : ["log".toList] = ["p".toList, "c.txt".toList] :=
          congrArg Target.place (Except.ok.inj (there.symm.trans located))
        exact absurd same (by decide)

end Upkeep
