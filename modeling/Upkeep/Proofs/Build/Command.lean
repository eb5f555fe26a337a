import Upkeep.Build.Command
import Upkeep.Proofs.Tree.Change
import Upkeep.Proofs.Trial.Steady

/-!
What builds by a command leave as it was.  A command that only prints changes the build log and
nothing else, and the log stays where its path led when it was prepared.
-/

namespace Upkeep

/-- Whether a command leaves everything as it is but for the file that its output goes to. -/
def OnlyPrints (launch : Launcher) (command : BuildCommand) : Prop :=
  ∀ sink session status left, launch command ⟨sink, sink⟩ session = .ok (status, left) →
    session.tree.top.ChangedWithin (fun place => sink = .file place) left.tree.top

/-- Whether the path of a log, if there is one, leads to a place. -/
def Tree.LogAt (tree : Tree) (log : Option Text) (place : Place) : Prop :=
  ∃ path node?, log = some path ∧ tree.locate true path = .ok ⟨place, node?⟩

/-- Whether a log, if there is one, is a file. -/
def Tree.LogReady (tree : Tree) (log : Option Text) : Prop :=
  ∀ path, log = some path →
    ∃ place file, tree.locate true path = .ok ⟨place, some (.file file)⟩

variable {tree left : Tree} {log : Option Text} {place : Place} {build : CommandBuild}
  {launch : Launcher} {touched : Place → Prop} {sink : Sink}

/-- A log that is a file stays where it is. -/
theorem Tree.LogReady.logAt
    (ready : tree.LogReady log)
    (changed : tree.ChangedWithin touched left)
    (logAt : left.LogAt log place) :
    tree.LogAt log place := by
  obtain ⟨path, node?, isLog, located⟩ := logAt
  obtain ⟨there, file, locatedBefore⟩ := ready path isLog
  obtain ⟨bytes, locatedAfter⟩ := changed.locate_file locatedBefore
  rw [locatedAfter, Except.ok.injEq, Target.mk.injEq] at located
  rw [← located.1]
  exact ⟨path, _, isLog, locatedBefore⟩

namespace CommandBuild

theorem prepareLog_changedWithin
    (prepared : build.prepareLog tree = .ok left) :
    tree.ChangedWithin (tree.LogAt build.log) left ∧ left.LogReady build.log ∧
      ∀ place, left.LogAt build.log place → tree.LogAt build.log place := by
  unfold prepareLog at prepared
  cases isLog : build.log with
  | none =>
      rw [isLog, Except.ok.injEq] at prepared
      subst prepared
      exact ⟨.refl _ tree, by simp [Tree.LogReady], fun _ logAt => logAt⟩
  | some path =>
      rw [isLog] at prepared
      cases truncated : tree.truncate path with
      | error fault => simp [truncated] at prepared
      | ok after =>
          simp only [truncated, mapError_ok, Except.ok.injEq] at prepared
          subst prepared
          obtain ⟨place, node?, file, located, locatedAfter, changed⟩ :=
            Tree.exists_changedWithin_of_writeThrough truncated
          have logAt : tree.LogAt (some path) place := ⟨path, node?, rfl, located⟩
          refine ⟨changed.mono ?_, ?_, ?_⟩
          · rintro _ rfl
            exact logAt
          · rintro other same
            obtain rfl := Option.some.inj same
            exact ⟨place, file, locatedAfter⟩
          · rintro other ⟨otherPath, otherNode?, same, located⟩
            obtain rfl := Option.some.inj same
            rw [locatedAfter, Except.ok.injEq, Target.mk.injEq] at located
            exact located.1 ▸ logAt

theorem openLog_changedWithin
    (opened : build.openLog tree = .ok (sink, left)) :
    tree.ChangedWithin (tree.LogAt build.log) left ∧
      ∀ place, sink = .file place → tree.LogAt build.log place := by
  unfold openLog at opened
  cases isLog : build.log with
  | none =>
      rw [isLog, Except.ok.injEq, Prod.mk.injEq] at opened
      obtain ⟨rfl, rfl⟩ := opened
      exact ⟨.refl _ tree, by simp⟩
  | some path =>
      rw [isLog] at opened
      cases appended : tree.append path .empty with
      | error fault => simp [appended] at opened
      | ok after =>
          obtain ⟨place, node?, file, located, locatedAfter, changed⟩ :=
            Tree.exists_changedWithin_of_writeThrough appended
          simp only [appended, locatedAfter, Except.ok.injEq, Prod.mk.injEq] at opened
          obtain ⟨rfl, rfl⟩ := opened
          have logAt : tree.LogAt (some path) place := ⟨path, node?, rfl, located⟩
          refine ⟨changed.mono ?_, ?_⟩
          · rintro _ rfl
            exact logAt
          · rintro other same
            exact Sink.file.inj same ▸ logAt

/-- A build by a command that only prints changes the log alone. -/
theorem run_changedWithin
    (build : CommandBuild)
    (onlyPrints : OnlyPrints launch build.command) (tree : Tree) :
    tree.ChangedWithin (tree.LogAt build.log) (build.run launch tree).2 := by
  unfold run
  cases opened : build.openLog tree with
  | error error => exact .refl _ tree
  | ok done =>
      obtain ⟨sink, after⟩ := done
      obtain ⟨changed, isLog⟩ := openLog_changedWithin opened
      dsimp only
      split
      next status fault => exact changed
      next started status session isStarted =>
        apply changed.trans
        cases folder : build.folderPlace after with
        | error fault => simp [folder] at isStarted
        | ok workingDir =>
            rw [folder] at isStarted
            have printed := onlyPrints _ _ _ _ isStarted
            exact ⟨printed.mono isLog, rfl⟩

/-- Builds by a command that only prints keep to a log that was prepared. -/
theorem oracle_keeps
    (onlyPrints : OnlyPrints launch build.command)
    (ready : tree.LogReady build.log)
    (within : ∀ place, tree.LogAt build.log place → touched place) :
    (build.oracle launch).Keeps (tree.ChangedWithin touched) := by
  intro world changed
  apply changed.trans
  apply (build.run_changedWithin onlyPrints world.tree).mono
  intro place logAt
  exact within place (ready.logAt changed logAt)

end CommandBuild

end Upkeep
