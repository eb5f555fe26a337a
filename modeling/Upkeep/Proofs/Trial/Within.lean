import Upkeep.Proofs.Trial.Machine

/-!
Runs that can be computed.  The loop over the candidates stops because its measure goes down,
and a proof of that does not evaluate.  The machine of the trials takes a given number of steps,
and if it is at rest by then it has done what the loop does.
-/

namespace Upkeep

variable {State : Type} {rule : Rule} {oracle : Oracle State} {steps : Nat}

namespace Machine

/-- The work on the file of a path that is over: what happened, and what came of it. -/
def run? (path : Text) (machine : Machine State) : Option (Run State (List Attempt)) :=
  match machine.phase with
  | .done => some ⟨machine.events, machine.world, .ok (attemptsOn path machine.events)⟩
  | .failed error => some ⟨machine.events, machine.world, .error error⟩
  | _ => none

/-- When the work is over, no step changes anything. -/
theorem advance_of_run?
    {path : Text} {machine : Machine State} {run : Run State (List Attempt)}
    (ended : machine.run? path = some run) (rule : Rule) (oracle : Oracle State) (steps : Nat) :
    advance rule oracle steps machine = machine := by
  have still : machine.step rule oracle = machine := by
    obtain ⟨phase, file, world, events⟩ := machine
    cases phase <;> first | rfl | simp [run?] at ended
  induction steps with
  | zero => rfl
  | succ steps inductionHypothesis => rw [advance, still, inductionHypothesis]

/-- A machine whose work is over has done what the loop does. -/
theorem tryFrom_of_run?
    {file : SourceFile} {start : Nat} {world : World State} {run : Run State (List Attempt)}
    (ended : (advance rule oracle steps ⟨.scanning start, file, world, []⟩).run? file.path =
      some run) :
    tryFrom rule oracle file start world = run := by
  obtain ⟨enough, last, _, rests⟩ := exists_advance_eq_tryFrom rule oracle file start world
  obtain ⟨_, stop, _, result, _⟩ :=
    tryFrom_trials rule start (writtenRelation_follows oracle file.path) trivial
  -- Both numbers of steps lead to rest, and so to where their sum leads.
  have whole : advance rule oracle steps ⟨.scanning start, file, world, []⟩ =
      advance rule oracle enough ⟨.scanning start, file, world, []⟩ := by
    have atRest : ∃ last,
        (advance rule oracle enough ⟨.scanning start, file, world, []⟩).run? file.path =
          some last := by
      rw [rests]
      cases (tryFrom rule oracle file start world).result <;> exact ⟨_, rfl⟩
    obtain ⟨_, atRest⟩ := atRest
    rw [← advance_of_run? ended rule oracle enough, ← advance_add, Nat.add_comm, advance_add,
      advance_of_run? atRest]
  rw [whole, rests, List.nil_append] at ended
  generalize tryFrom rule oracle file start world = tried at ended result
  obtain ⟨events, left, value⟩ := tried
  dsimp only at result
  subst result
  cases stop with
  | none => exact Option.some.inj ended
  | some error => exact Option.some.inj ended

end Machine

/-- The work on one file, if it is over within a number of steps. -/
def tryFileWithin
    (steps : Nat) (rule : Rule) (oracle : Oracle State) (path : Text) (world : World State) :
    Option (Run State FileReport) :=
  match SourceFile.read world.tree path with
  | .error error => some (.stop (.source error) world)
  | .ok file =>
      ((Machine.advance rule oracle steps ⟨.scanning 0, file, world, []⟩).run? file.path).map
        (Run.map (FileReport.mk file.path))

theorem tryFile_of_within
    {path : Text} {world : World State} {run : Run State FileReport}
    (ended : tryFileWithin steps rule oracle path world = some run) :
    tryFile rule oracle path world = run := by
  unfold tryFileWithin at ended
  unfold tryFile
  cases read : SourceFile.read world.tree path with
  | error error =>
      rw [read] at ended
      exact Option.some.inj ended
  | ok file =>
      rw [read, Option.map_eq_some_iff] at ended
      obtain ⟨tried, ended, rfl⟩ := ended
      dsimp only
      rw [Machine.tryFrom_of_run? ended]

theorem tryFile_eq_get
    (steps : Nat) {path : Text} {world : World State}
    (enough : (tryFileWithin steps rule oracle path world).isSome) :
    tryFile rule oracle path world = (tryFileWithin steps rule oracle path world).get enough :=
  tryFile_of_within (Option.some_get enough).symm

/-- The work on files, if it is over within a number of steps on each. -/
def tryFilesWithin (steps : Nat) (rule : Rule) (oracle : Oracle State) :
    List Text → World State → Option (Run State (List FileReport))
  | [], world => some (.pure [] world)
  | path :: paths, world =>
      (tryFileWithin steps rule oracle path world).bind fun first =>
        match first.result with
        | .error error => some ⟨.fileStarted path :: first.events, first.world, .error error⟩
        | .ok report =>
            (tryFilesWithin steps rule oracle paths first.world).map fun rest =>
              (rest.map (report :: ·)).after
                (.fileStarted path :: first.events ++ [.fileFinished report])

theorem tryFiles_of_within
    {paths : List Text} {world : World State} {run : Run State (List FileReport)}
    (ended : tryFilesWithin steps rule oracle paths world = some run) :
    tryFiles rule oracle paths world = run := by
  induction paths generalizing world run with
  | nil => exact Option.some.inj ended
  | cons path paths inductionHypothesis =>
      rw [tryFilesWithin, Option.bind_eq_some_iff] at ended
      obtain ⟨first, worked, ended⟩ := ended
      rw [tryFiles, tryFile_of_within worked]
      cases result : first.result with
      | error error =>
          rw [result] at ended
          obtain rfl := Option.some.inj ended
          simp [Run.andThen, Run.after, result]
      | ok report =>
          rw [result, Option.map_eq_some_iff] at ended
          obtain ⟨rest, later, rfl⟩ := ended
          simp [Run.andThen, Run.after, Run.map, result, inductionHypothesis later]

/-- A run, if it is over within a number of steps on each file. -/
def tryEditsWithin
    (steps : Nat) (rule : Rule) (oracle : Oracle State) (paths : List Text)
    (world : World State) : Option (Run State RunReport) :=
  let first := checkBaseline oracle world
  match first.result with
  | .error error => some ⟨first.events, first.world, .error error⟩
  | .ok _ =>
      (tryFilesWithin steps rule oracle paths first.world).map fun rest =>
        (rest.map RunReport.mk).after first.events

theorem tryEdits_of_within
    {paths : List Text} {world : World State} {run : Run State RunReport}
    (ended : tryEditsWithin steps rule oracle paths world = some run) :
    tryEdits rule oracle paths world = run := by
  unfold tryEditsWithin at ended
  unfold tryEdits Run.andThen
  dsimp only at ended ⊢
  cases result : (checkBaseline oracle world).result with
  | error error =>
      rw [result] at ended
      exact Option.some.inj ended
  | ok _ =>
      rw [result, Option.map_eq_some_iff] at ended
      obtain ⟨rest, later, rfl⟩ := ended
      dsimp only
      rw [tryFiles_of_within later]
      rfl

/-- A run is what it is within any number of steps that is enough for it. -/
theorem tryEdits_eq_get
    (steps : Nat) {paths : List Text} {world : World State}
    (enough : (tryEditsWithin steps rule oracle paths world).isSome) :
    tryEdits rule oracle paths world = (tryEditsWithin steps rule oracle paths world).get enough :=
  tryEdits_of_within (Option.some_get enough).symm

/-- The build at a place among events: the events before it, its answer, and the tree that it
found. -/
def buildAt? (events : List Event) (place : Nat) : Option (List Event × Answer × Tree) :=
  match events[place]? with
  | some (.built answer tree) => some (events.take place, answer, tree)
  | _ => none

theorem exists_after_of_buildAt?
    {events before : List Event} {place : Nat} {answer : Answer} {tree : Tree}
    (at_ : (before, answer, tree) ∈ buildAt? events place) :
    ∃ after, events = before ++ .built answer tree :: after := by
  rw [Option.mem_def, buildAt?] at at_
  split at at_
  next there =>
    obtain ⟨rfl, rfl, rfl⟩ : _ ∧ _ ∧ _ := by simpa using at_
    obtain ⟨inside, same⟩ := List.getElem?_eq_some_iff.1 there
    refine ⟨events.drop (place + 1), ?_⟩
    rw [← same, ← List.drop_eq_getElem_cons inside, List.take_append_drop]
  · simp at at_

end Upkeep
