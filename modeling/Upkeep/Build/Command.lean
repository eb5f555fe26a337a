import Upkeep.Build.Oracle
import Upkeep.Command.Launch

/-!
Builds by a command.  The command runs in its own folder; its exit status is the
verdict.  Its output is appended to the build log, or lost if there is none.
-/

namespace Upkeep

/-- A build command, the folder in which it runs, and its log. -/
structure CommandBuild where
  command : BuildCommand
  folder : Text
  log : Option Text
  deriving DecidableEq, Repr

namespace CommandBuild

/-- Empty the log, or create it. -/
def prepareLog (build : CommandBuild) (tree : Tree) : Except BuildError Tree :=
  match build.log with
  | none => .ok tree
  | some path => (tree.truncate path).mapError (.log path)

/-- Open the log for appending. -/
def openLog (build : CommandBuild) (tree : Tree) : Except BuildError (Sink × Tree) :=
  match build.log with
  | none => .ok (.nowhere, tree)
  | some path =>
      match tree.append path .empty with
      | .error fault => .error (.log path fault)
      | .ok tree =>
          match tree.locate true path with
          | .error fault => .error (.log path fault)
          | .ok target => .ok (.file target.place, tree)

/-- The place of the folder in which the command runs. -/
def folderPlace (build : CommandBuild) (tree : Tree) : Except Fault Place :=
  match tree.locate true build.folder with
  | .error fault => .error fault
  | .ok ⟨_, none⟩ => .error .notFound
  | .ok ⟨place, some (.folder ..)⟩ => .ok place
  | .ok _ => .error .notADirectory

/-- Run the command once. -/
def run (launch : Launcher) (build : CommandBuild) (tree : Tree) : Answer × Tree :=
  match build.openLog tree with
  | .error error => (.error error, tree)
  | .ok (sink, tree) =>
      let started : Except Fault (Status × Session) :=
        match build.folderPlace tree with
        | .error fault => .error fault
        | .ok workingDir =>
            launch build.command ⟨sink, sink⟩ ⟨{ tree with workingDir }, .empty, []⟩
      match started with
      | .error fault => (.error (.unavailable build.command.program fault), tree)
      | .ok (status, session) =>
          (.ok (if status = 0 then .pass else .fail), { tree with top := session.tree.top })

/-- The oracle that runs a command. -/
def oracle (launch : Launcher) (build : CommandBuild) : Oracle Unit where
  build := fun world =>
    let (answer, tree) := build.run launch world.tree
    (answer, ⟨(), tree⟩)

end CommandBuild

end Upkeep
