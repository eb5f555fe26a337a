import Upkeep.Build.Oracle
import Upkeep.Trial.Report
import Upkeep.Rule.Progress
import Upkeep.Tree.SourceFile

/-!
Trying edits under the eye of a build oracle.  An edit is written to the tree,
the oracle is asked, and the edit stays only if the build passes.  At each build
the tree holds the kept edits and at most the one edit that is on trial.

Each kept edit leaves one line less that the rule accepts, and each edit that is
not kept moves the search on, so the trials on a file end.
-/

namespace Upkeep

/-- Why a run of edits stops early. -/
inductive TrialError where
  | baselineFails
  | build (error : BuildError)
  | edit (candidate : Candidate) (error : EditError)
  | source (error : SourceError)
  deriving DecidableEq, Repr

def TrialError.message : TrialError → String
  | .baselineFails =>
      "the baseline build fails; refusing to edit a tree that does not build"
  | .build error => error.message
  | .edit candidate error => candidate.errorMessage error
  | .source error => error.message

/-- What happens in a run.  A build is told with the tree that it found, an
attempt with the tree that it left. -/
inductive Event where
  | built (answer : Answer) (tree : Tree)
  | fileStarted (path : Text)
  | found (candidate : Candidate)
  | attempted (path : Text) (attempt : Attempt) (tree : Tree)
  | fileFinished (report : FileReport)

/-- A finished run: what happened, what it left behind, and what came of it. -/
structure Run (State Value : Type) where
  events : List Event
  world : World State
  result : Except TrialError Value

namespace Run

variable {State Value Other : Type}

/-- A run that does nothing. -/
def pure (value : Value) (world : World State) : Run State Value :=
  ⟨[], world, .ok value⟩

/-- A run that does nothing but fail. -/
def stop (error : TrialError) (world : World State) : Run State Value :=
  ⟨[], world, .error error⟩

/-- Go on from a run, unless it failed. -/
def andThen
    (run : Run State Value)
    (next : Value → World State → Run State Other) :
    Run State Other :=
  match run.result with
  | .error error => ⟨run.events, run.world, .error error⟩
  | .ok value =>
      let later := next value run.world
      ⟨run.events ++ later.events, later.world, later.result⟩

/-- A run with events before it. -/
def after (events : List Event) (run : Run State Value) : Run State Value :=
  { run with events := events ++ run.events }

def map (change : Value → Other) (run : Run State Value) : Run State Other :=
  ⟨run.events, run.world, run.result.map change⟩

end Run

variable {State : Type}

def askBuild (oracle : Oracle State) (world : World State) : Run State Verdict :=
  let (answer, left) := oracle.build world
  ⟨[.built answer world.tree], left, answer.mapError .build⟩

/-- Write a text to a path of the tree. -/
def writeRun (path content : Text) (world : World State) : Run State Unit :=
  match writeText world.tree path content with
  | .error error => .stop (.source error) world
  | .ok tree => .pure () { world with tree }

/-- Put the content of a file back, then fail. -/
def restoreAfter
    (file : SourceFile) (error : TrialError) (world : World State) :
    Run State Outcome :=
  (writeRun file.path file.content world).andThen fun _ world => .stop error world

/-- Let the oracle judge another content of a file.  Unless the build passes, the
content of the file is put back. -/
def tryContent
    (oracle : Oracle State) (file : SourceFile) (content : Text) (world : World State) :
    Run State Outcome :=
  (writeRun file.path content world).andThen fun _ world =>
    let asked := askBuild oracle world
    match asked.result with
    | .error error => (restoreAfter file error asked.world).after asked.events
    | .ok .pass => ⟨asked.events, asked.world, .ok .committed⟩
    | .ok .fail =>
        ((writeRun file.path file.content asked.world).map fun _ => Outcome.reverted).after
          asked.events

/-- Try the candidates of a file, the first one at or after a line first.  After a
kept edit the search starts again at the top. -/
def tryFrom
    (rule : Rule) (oracle : Oracle State)
    (file : SourceFile) (start : Nat) (world : World State) :
    Run State (List Attempt) :=
  match _found : rule.findIn? file.path file.content start with
  | none => .pure [] world
  | some candidate =>
      match _applied : candidate.apply file.content with
      | .error error => .after [.found candidate] (.stop (.edit candidate error) world)
      | .ok content =>
          let tried := tryContent oracle file content world
          let settled := fun (outcome : Outcome) =>
            .found candidate :: tried.events ++
              [.attempted file.path (candidate.attempt outcome) tried.world.tree]
          match tried.result with
          | .error error => ⟨.found candidate :: tried.events, tried.world, .error error⟩
          | .ok .committed =>
              ((tryFrom rule oracle (file.replaceContent content) 0 tried.world).map
                (candidate.attempt .committed :: ·)).after (settled .committed)
          | .ok .reverted =>
              ((tryFrom rule oracle file (candidate.line + 1) tried.world).map
                (candidate.attempt .reverted :: ·)).after (settled .reverted)
termination_by (rule.acceptedLines file.path file.content, (lines file.content).length - start)
decreasing_by
  · refine Prod.Lex.left _ _ ?_
    have taken := Rule.acceptedLines_of_apply _found _applied
    simp only [SourceFile.replaceContent]
    omega
  · refine Prod.Lex.right _ ?_
    have inside := Rule.line_lt_of_findIn? _found
    omega

/-- Try the candidates of one file. -/
def tryFile
    (rule : Rule) (oracle : Oracle State) (path : Text) (world : World State) :
    Run State FileReport :=
  match SourceFile.read world.tree path with
  | .error error => .stop (.source error) world
  | .ok file => (tryFrom rule oracle file 0 world).map (FileReport.mk file.path)

/-- Try the candidates of files one after the other. -/
def tryFiles (rule : Rule) (oracle : Oracle State) :
    List Text → World State → Run State (List FileReport)
  | [], world => .pure [] world
  | path :: paths, world =>
      ((tryFile rule oracle path world).andThen fun report world =>
        ((tryFiles rule oracle paths world).map (report :: ·)).after
          [.fileFinished report]).after [.fileStarted path]

/-- Ask whether the tree builds as it is. -/
def checkBaseline (oracle : Oracle State) (world : World State) : Run State Unit :=
  (askBuild oracle world).andThen fun verdict world =>
    match verdict with
    | .pass => .pure () world
    | .fail => .stop .baselineFails world

/-- Try the candidates of files of a tree that builds. -/
def tryEdits
    (rule : Rule) (oracle : Oracle State) (paths : List Text) (world : World State) :
    Run State RunReport :=
  (checkBaseline oracle world).andThen fun _ world =>
    (tryFiles rule oracle paths world).map RunReport.mk

end Upkeep
