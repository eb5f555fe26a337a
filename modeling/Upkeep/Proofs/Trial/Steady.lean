import Upkeep.Proofs.Tree.Read
import Upkeep.Proofs.Trial.Course
import Upkeep.Whitespace.Files

/-!
What writes and builds keep true of the tree is true when a run is over, however it ends.
-/

namespace Upkeep

variable {State Value Other : Type}

/-- Whether writes to some paths keep something true. -/
def WritesKeep (paths : List Text) (holds : Tree → Prop) : Prop :=
  ∀ {path text : Text} {tree left : Tree}, path ∈ paths → holds tree →
    writeText tree (Path.normalize path) text = .ok left → holds left

/-- Whether builds keep something true. -/
def Oracle.Keeps (oracle : Oracle State) (holds : Tree → Prop) : Prop :=
  ∀ world : World State, holds world.tree → holds (oracle.build world).2.tree

variable {holds : Tree → Prop} {oracle : Oracle State} {world : World State} {rule : Rule}
  {path text : Text} {paths : List Text} {file : SourceFile} {start : Nat}

theorem andThen_holds
    {run : Run State Value} {next : Value → World State → Run State Other}
    (first : holds run.world.tree)
    (later : ∀ value world, holds world.tree → holds (next value world).world.tree) :
    holds (run.andThen next).world.tree := by
  unfold Run.andThen
  cases run.result with
  | error error => exact first
  | ok value => exact later value run.world first

theorem writeRun_holds
    (writes : WritesKeep paths holds)
    (member : path ∈ paths)
    (initially : holds world.tree) :
    holds (writeRun (Path.normalize path) text world).world.tree := by
  unfold writeRun
  cases written : writeText world.tree (Path.normalize path) text with
  | error error => exact initially
  | ok tree => exact writes member initially written

/-- One trial keeps true what writes and builds keep true, whatever the build answers. -/
theorem tryContent_holds
    (writes : WritesKeep paths holds)
    (builds : oracle.Keeps holds)
    (member : path ∈ paths)
    (here : file.path = Path.normalize path)
    (initially : holds world.tree) :
    holds (tryContent oracle file text world).world.tree := by
  obtain ⟨_, content⟩ := file
  subst here
  apply andThen_holds (writeRun_holds writes member initially)
  intro _ written shown
  have asked : holds (askBuild oracle written).world.tree := builds written shown
  have restored : holds (writeRun (Path.normalize path) content
      (askBuild oracle written).world).world.tree := writeRun_holds writes member asked
  dsimp only
  split
  · exact andThen_holds restored fun _ _ after => after
  · exact asked
  · exact restored

theorem tryFrom_holds
    (writes : WritesKeep paths holds)
    (builds : oracle.Keeps holds)
    (member : path ∈ paths)
    (here : file.path = Path.normalize path)
    (initially : holds world.tree) :
    holds (tryFrom rule oracle file start world).world.tree := by
  induction file, start, world using tryFrom.induct rule oracle with
  | case1 file start world none_ =>
      rw [tryFrom_of_none none_]
      exact initially
  | case2 file start world candidate found error applied =>
      rw [Rule.apply_of_findIn? found] at applied
      simp at applied
  | case3 file start world candidate found text applied tried error failed =>
      have same : tryContent oracle file text world = tried := rfl
      rw [tryFrom_of_some found applied same, failed, ← same]
      exact tryContent_holds writes builds member here initially
  | case4 file start world candidate found text applied tried kept inductionHypothesis =>
      have same : tryContent oracle file text world = tried := rfl
      rw [tryFrom_of_some found applied same, kept]
      exact inductionHypothesis here (tryContent_holds writes builds member here initially)
  | case5 file start world candidate found text applied tried undone inductionHypothesis =>
      have same : tryContent oracle file text world = tried := rfl
      rw [tryFrom_of_some found applied same, undone]
      exact inductionHypothesis here (tryContent_holds writes builds member here initially)

theorem tryFiles_holds
    (writes : WritesKeep paths holds)
    (builds : oracle.Keeps holds)
    {some_ : List Text} (within : some_ ⊆ paths)
    (initially : holds world.tree) :
    holds (tryFiles rule oracle some_ world).world.tree := by
  induction some_ generalizing world with
  | nil => exact initially
  | cons path rest inductionHypothesis =>
      rw [List.cons_subset] at within
      have tried : holds (tryFile rule oracle path world).world.tree := by
        unfold tryFile
        cases read : SourceFile.read world.tree path with
        | error error => exact initially
        | ok file =>
            have here := (SourceFile.read_eq_ok_iff.1 read).1
            exact tryFrom_holds writes builds within.1 here initially
      exact andThen_holds tried fun report left after => inductionHypothesis within.2 after

/-- A run of edits keeps true what writes and builds keep true, also if it ends early. -/
theorem tryEdits_holds
    (writes : WritesKeep paths holds)
    (builds : oracle.Keeps holds)
    (initially : holds world.tree) :
    holds (tryEdits rule oracle paths world).world.tree := by
  have baseline : holds (checkBaseline oracle world).world.tree := by
    apply andThen_holds (builds world initially)
    rintro (_ | _) left after <;> exact after
  exact andThen_holds baseline fun _ left after =>
    tryFiles_holds writes builds (List.Subset.refl _) after

theorem tidyFile_holds
    {tree left : Tree} {isChanged : Bool}
    (writes : WritesKeep paths holds)
    (member : path ∈ paths)
    (initially : holds tree)
    (tidied : tidyFile tree path = .ok (isChanged, left)) :
    holds left := by
  unfold tidyFile at tidied
  cases read : SourceFile.read tree path with
  | error error => simp [read] at tidied
  | ok file =>
      have here := (SourceFile.read_eq_ok_iff.1 read).1
      obtain ⟨_, content⟩ := file
      subst here
      rw [read] at tidied
      dsimp only at tidied
      split at tidied
      · rw [Except.ok.injEq, Prod.mk.injEq] at tidied
        exact tidied.2 ▸ initially
      split at tidied
      · simp at tidied
      next after written =>
        rw [Except.ok.injEq, Prod.mk.injEq] at tidied
        rw [← tidied.2]
        exact writes member initially written

/-- Bringing files into normal form keeps true what writes keep true. -/
theorem tidyFiles_holds
    {tree : Tree} {listed : List Listed}
    (writes : WritesKeep paths holds)
    (within : ∀ entry, .ok entry ∈ listed → entry.path ∈ paths)
    (initially : holds tree) :
    holds (tidyFiles tree listed).tree := by
  induction listed generalizing tree with
  | nil => exact initially
  | cons item rest inductionHypothesis =>
      have later : ∀ entry, .ok entry ∈ rest → entry.path ∈ paths :=
        fun entry member => within entry (List.mem_cons_of_mem _ member)
      cases item with
      | error error =>
          cases error with
          | missingRoot path => exact inductionHypothesis later initially
          | walk root fault => exact initially
          | read path fault => exact initially
          | write path fault => exact initially
      | ok entry =>
          rw [tidyFiles]
          cases tidied : tidyFile tree entry.path with
          | error error => exact initially
          | ok done =>
              apply inductionHypothesis later
              exact tidyFile_holds writes (within entry List.mem_cons_self) initially tidied

end Upkeep
