import Upkeep.Tree.Walk
import Upkeep.Whitespace.Basic

/-!
Bringing listed files into normal form.  A file is written only if it changes.  A
missing project is passed over; any other error ends the work and leaves what was
written before it.
-/

namespace Upkeep

/-- What was done about one entry of the list. -/
inductive Tidied where
  | skippedRoot (path : Text)
  | unchanged (path : Text)
  | changed (path : Text)
  deriving DecidableEq, Repr

/-- The changed paths, as they were listed, and the number of files looked at. -/
structure TidyReport where
  changed : List Text
  filesSeen : Nat
  deriving DecidableEq, Repr

def Tidied.changedPath? : Tidied → Option Text
  | .changed path => some path
  | _ => none

/-- Whether a file was looked at. -/
def Tidied.isFile : Tidied → Bool
  | .skippedRoot _ => false
  | _ => true

/-- The report on what was done. -/
def TidyReport.ofSteps (steps : List Tidied) : TidyReport :=
  ⟨steps.filterMap Tidied.changedPath?, steps.countP Tidied.isFile⟩

/-- What was done until the end of the list or the first error, and the tree then. -/
structure Tidying where
  steps : List Tidied
  tree : Tree
  error? : Option SourceError

namespace Tidying

/-- Work with a step before it. -/
def after (step : Tidied) (tidying : Tidying) : Tidying :=
  { tidying with steps := step :: tidying.steps }

/-- The report, unless the work ended early. -/
def report (tidying : Tidying) : Except SourceError TidyReport :=
  match tidying.error? with
  | some error => .error error
  | none => .ok (.ofSteps tidying.steps)

end Tidying

/-- Bring one file into normal form, and tell whether it changed. -/
def tidyFile (tree : Tree) (path : Text) : Except SourceError (Bool × Tree) :=
  match SourceFile.read tree path with
  | .error error => .error error
  | .ok file =>
      let content := normalizeText file.content
      if content = file.content then .ok (false, tree)
      else
        match (file.replaceContent content).write tree with
        | .error error => .error error
        | .ok tree => .ok (true, tree)

/-- Bring listed files into normal form. -/
def tidyFiles (tree : Tree) : List Listed → Tidying
  | [] => ⟨[], tree, none⟩
  | .error (.missingRoot path) :: rest => (tidyFiles tree rest).after (.skippedRoot path)
  | .error error :: _ => ⟨[], tree, some error⟩
  | .ok entry :: rest =>
      match tidyFile tree entry.path with
      | .error error => ⟨[], tree, some error⟩
      | .ok (isChanged, tree) =>
          (tidyFiles tree rest).after
            (if isChanged then .changed entry.path else .unchanged entry.path)

end Upkeep
