import Upkeep.CommandLine.Run

/-!
A run that starts its work: its arguments ask for a task, and its settings can be loaded.
-/

namespace Upkeep

/-- Whether a pass asks the build command. -/
def Pass.builds : Pass → Bool
  | .constify | .pruneIncludes => true
  | _ => false

/-- Whether arguments ask for a task and give the settings for it. -/
structure Starts (environment : Environment) (arguments : List Text) (tree : Tree)
    (task : Task) (config : Config) : Prop where
  asks : Request.read (String.ofList (calledName (arguments.headD "mender".toList)))
    (splitArguments arguments).2 = .ok (.work task)
  loads : Config.load environment tree (splitArguments arguments).1 = .ok config

variable {environment : Environment} {arguments : List Text} {tree : Tree} {task : Task}
  {config : Config}

theorem Starts.runProgram_eq
    (starts : Starts environment arguments tree task config)
    (launch : Launcher) (logIsOpen : Bool) :
    runProgram launch logIsOpen environment arguments tree =
      match openFilter logIsOpen config with
      | .error error => .failed tree (RunError.logFilter config.logFilter error).message
      | .ok filter => .ofWork filter config.logFormat (task.work launch config tree) := by
  cases opened : openFilter logIsOpen config with
  | error error => simp only [runProgram, starts.asks, starts.loads, opened]
  | ok filter => simp only [runProgram, starts.asks, starts.loads, opened]

@[simp]
theorem tree_ofWork (filter : LogFilter) (format : LogFormat) (work : Work) :
    (Ending.ofWork filter format work).tree = work.tree := by
  unfold Ending.ofWork
  dsimp only
  split <;> rfl

/-- A run leaves the tree as it is or as its work leaves it. -/
theorem Starts.tree_runProgram
    (starts : Starts environment arguments tree task config)
    (launch : Launcher) (logIsOpen : Bool) :
    (runProgram launch logIsOpen environment arguments tree).tree = tree ∨
      (runProgram launch logIsOpen environment arguments tree).tree =
        (task.work launch config tree).tree := by
  rw [starts.runProgram_eq]
  cases openFilter logIsOpen config with
  | error error => exact .inl rfl
  | ok filter => exact .inr (tree_ofWork _ _ _)

end Upkeep
