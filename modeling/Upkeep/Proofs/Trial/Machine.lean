import Upkeep.Proofs.Trial.Course

/-!
The trials on one file as a machine that takes one step after the other: it scans for a
candidate, writes it, asks the oracle, and keeps the edit or takes it back.  The loop
over the candidates is where this machine comes to rest, and it gets there in five
steps for each build and two more.
-/

namespace Upkeep

/-- What the work on a file is about to do. -/
inductive Phase where
  | scanning (start : Nat)
  | found (candidate : Candidate)
  | applied (candidate : Candidate) (text : Text)
  | verifying (candidate : Candidate) (text : Text)
  | committed
  | reverted (line : Nat)
  | done
  | failed (error : TrialError)

/-- The work on a file between two steps. -/
structure Machine (State : Type) where
  phase : Phase
  file : SourceFile
  world : World State
  events : List Event

namespace Machine

variable {State : Type}

/-- Write the kept text back and go on, unless the write fails. -/
def restore (machine : Machine State) (next : Machine State → Machine State) : Machine State :=
  match machine.file.write machine.world.tree with
  | .error error => { machine with phase := .failed (.source error) }
  | .ok tree => next { machine with world := { machine.world with tree } }

/-- Tell of an attempt that is over. -/
def settle (attempt : Attempt) (next : Phase) (machine : Machine State) : Machine State :=
  { machine with
    phase := next
    events := machine.events ++ [.attempted machine.file.path attempt machine.world.tree] }

/-- Act on an answer about the text that is written. -/
def judge (candidate : Candidate) (text : Text) (answer : Answer)
    (machine : Machine State) : Machine State :=
  match answer with
  | .error error =>
      machine.restore fun restored => { restored with phase := .failed (.build error) }
  | .ok .pass =>
      settle (candidate.attempt .committed) .committed
        { machine with file := machine.file.replaceContent text }
  | .ok .fail => machine.restore (settle (candidate.attempt .reverted) (.reverted candidate.line))

def ask (oracle : Oracle State) (machine : Machine State) : Machine State :=
  { machine with
    world := (oracle.build machine.world).2
    events := machine.events ++ [.built (oracle.build machine.world).1 machine.world.tree] }

/-- One step of the work on a file. -/
def step (rule : Rule) (oracle : Oracle State) (machine : Machine State) : Machine State :=
  match machine.phase with
  | .scanning start =>
      match rule.findIn? machine.file.path machine.file.content start with
      | none => { machine with phase := .done }
      | some candidate =>
          { machine with phase := .found candidate, events := machine.events ++ [.found candidate] }
  | .found candidate =>
      match candidate.apply machine.file.content with
      | .error error => { machine with phase := .failed (.edit candidate error) }
      | .ok text =>
          match machine.file.writeContent machine.world.tree text with
          | .error error => { machine with phase := .failed (.source error) }
          | .ok tree =>
              { machine with
                phase := .applied candidate text, world := { machine.world with tree } }
  | .applied candidate text => { machine with phase := .verifying candidate text }
  | .verifying candidate text =>
      (machine.ask oracle).judge candidate text (oracle.build machine.world).1
  | .committed => { machine with phase := .scanning 0 }
  | .reverted line => { machine with phase := .scanning (line + 1) }
  | .done => machine
  | .failed _ => machine

def advance (rule : Rule) (oracle : Oracle State) : Nat → Machine State → Machine State
  | 0, machine => machine
  | steps + 1, machine => advance rule oracle steps (machine.step rule oracle)

/-- Where the trial of a candidate takes a machine. -/
def afterTrial (candidate : Candidate) (file : SourceFile) (text : Text) (events : List Event)
    (tried : Run State Outcome) : Machine State :=
  match tried.result with
  | .error error => ⟨.failed error, file, tried.world, events ++ tried.events⟩
  | .ok .committed =>
      ⟨.committed, file.replaceContent text, tried.world, events ++ (tried.events ++
        [.attempted file.path (candidate.attempt .committed) tried.world.tree])⟩
  | .ok .reverted =>
      ⟨.reverted candidate.line, file, tried.world, events ++ (tried.events ++
        [.attempted file.path (candidate.attempt .reverted) tried.world.tree])⟩

/-- The machine tries a candidate as the loop does. -/
theorem advance_found
    (rule : Rule) (oracle : Oracle State) {file : SourceFile} (world : World State)
    {candidate : Candidate} {text : Text}
    (applied : candidate.apply file.content = .ok text) :
    ∃ steps ≤ 2 * (tryContent oracle file text world).events.countP Event.isBuild + 1,
      (∀ outcome, (tryContent oracle file text world).result = .ok outcome →
        0 < (tryContent oracle file text world).events.countP Event.isBuild) ∧
      ∀ events, advance rule oracle steps ⟨.found candidate, file, world, events⟩ =
        afterTrial candidate file text events (tryContent oracle file text world) := by
  unfold tryContent writeRun
  cases written : writeText world.tree file.path text with
  | error error =>
      refine ⟨1, by simp, by simp [Run.andThen, Run.stop], fun events => ?_⟩
      simp [advance, step, applied, SourceFile.writeContent, written, Run.andThen, Run.stop,
        afterTrial]
  | ok tree =>
      refine ⟨3, ?_⟩
      simp only [advance, step, applied, SourceFile.writeContent, written, ask, Run.andThen,
        Run.pure, List.nil_append, askBuild_eq]
      generalize oracle.build ⟨world.state, tree⟩ = built
      obtain ⟨answer, left⟩ := built
      cases answer with
      | error error =>
          simp only [judge, restore, SourceFile.write, SourceFile.writeContent, mapError_error,
            restoreAfter, writeRun]
          cases restored : writeText left.tree file.path file.content with
          | error fault => simp [afterTrial, Run.stop, Run.after, Run.andThen, Event.isBuild]
          | ok settled =>
              simp [afterTrial, Run.stop, Run.after, Run.andThen, Run.pure, Event.isBuild]
      | ok verdict =>
          cases verdict with
          | pass => simp [afterTrial, judge, settle, Event.isBuild]
          | fail =>
              simp only [judge, restore, SourceFile.write, SourceFile.writeContent,
                mapError_ok]
              cases restored : writeText left.tree file.path file.content with
              | error fault =>
                  simp [afterTrial, Run.stop, Run.after, Run.map, Except.map, Event.isBuild]
              | ok settled =>
                  simp [afterTrial, Run.after, Run.map, Except.map, settle, Event.isBuild]

theorem advance_add
    (rule : Rule) (oracle : Oracle State) (first second : Nat) (machine : Machine State) :
    advance rule oracle (first + second) machine =
      advance rule oracle second (advance rule oracle first machine) := by
  induction first generalizing machine with
  | zero => rw [Nat.zero_add, advance]
  | succ first inductionHypothesis => rw [Nat.succ_add, advance, advance, inductionHypothesis]

/-- The phase in which the work on a file ends. -/
def phaseOf {Value : Type} : Except TrialError Value → Phase
  | .ok _ => .done
  | .error error => .failed error

@[simp]
theorem phaseOf_map {Value Other : Type} (change : Value → Other)
    (result : Except TrialError Value) : phaseOf (result.map change) = phaseOf result := by
  cases result <;> rfl

/-- A machine that finds a candidate, tries it and goes on scanning has gone through a
round of the loop. -/
theorem advance_round
    {rule : Rule} {oracle : Oracle State} {file next last : SourceFile} {start line : Nat}
    {world left after : World State} {candidate : Candidate} {steps more : Nat}
    {settled ended : Phase} {told later : List Event}
    (found : rule.findIn? file.path file.content start = some candidate)
    (tried : ∀ events, advance rule oracle steps ⟨.found candidate, file, world, events⟩ =
      ⟨settled, next, left, events ++ told⟩)
    (goesOn : ∀ events, step rule oracle ⟨settled, next, left, events⟩ =
      ⟨.scanning line, next, left, events⟩)
    (rest : ∀ events, advance rule oracle more ⟨.scanning line, next, left, events⟩ =
      ⟨ended, last, after, events ++ later⟩)
    (events : List Event) :
    advance rule oracle (1 + steps + 1 + more) ⟨.scanning start, file, world, events⟩ =
      ⟨ended, last, after, events ++ (.found candidate :: (told ++ later))⟩ := by
  have scanned : advance rule oracle 1 ⟨.scanning start, file, world, events⟩ =
      ⟨.found candidate, file, world, events ++ [.found candidate]⟩ := by
    simp only [advance, step, found]
  have wentOn : ∀ events, advance rule oracle 1 ⟨settled, next, left, events⟩ =
      ⟨.scanning line, next, left, events⟩ := goesOn
  rw [advance_add, advance_add, advance_add, scanned, tried, wentOn, rest]
  simp

/-- The loop over the candidates is where the machine comes to rest. -/
theorem exists_advance_eq_tryFrom
    (rule : Rule) (oracle : Oracle State) (file : SourceFile) (start : Nat)
    (world : World State) :
    ∃ steps last,
      steps ≤ 5 * (tryFrom rule oracle file start world).events.countP Event.isBuild + 2 ∧
      ∀ events, advance rule oracle steps ⟨.scanning start, file, world, events⟩ =
        ⟨phaseOf (tryFrom rule oracle file start world).result, last,
          (tryFrom rule oracle file start world).world,
          events ++ (tryFrom rule oracle file start world).events⟩ := by
  induction file, start, world using tryFrom.induct rule oracle with
  | case1 file start world none_ =>
      rw [tryFrom_of_none none_]
      refine ⟨1, file, by simp, fun events => ?_⟩
      simp [advance, step, none_, Run.pure, phaseOf]
  | case2 file start world candidate found error applied =>
      rw [Rule.apply_of_findIn? found] at applied
      simp at applied
  | case3 file start world candidate found text applied tried error failed =>
      have same : tryContent oracle file text world = tried := rfl
      obtain ⟨steps, few, builds, advanced⟩ :=
        advance_found rule oracle world applied
      rw [same] at few builds advanced
      clear_value tried
      rw [tryFrom_of_some found applied same, failed]
      refine ⟨1 + steps, file, ?_, fun events => ?_⟩
      · simp only [List.countP_cons, Event.isBuild]
        omega
      · rw [advance_add]
        simp only [advance, step, found]
        rw [advanced]
        simp [afterTrial, failed, phaseOf]
  | case4 file start world candidate found text applied tried kept inductionHypothesis =>
      have same : tryContent oracle file text world = tried := rfl
      obtain ⟨steps, few, builds, advanced⟩ :=
        advance_found rule oracle world applied
      rw [same] at few builds advanced
      clear_value tried
      obtain ⟨more, last, bounded, rest⟩ := inductionHypothesis
      have built := builds _ kept
      simp only [afterTrial, kept] at advanced
      rw [tryFrom_of_some found applied same, kept]
      refine ⟨1 + steps + 1 + more, last, ?_, fun events => ?_⟩
      · simp only [Run.after, Run.map, List.cons_append, List.append_assoc, List.countP_cons,
          List.countP_append, Event.isBuild]
        omega
      · rw [advance_round found advanced (fun _ => rfl) rest]
        simp [Run.after, Run.map]
  | case5 file start world candidate found text applied tried undone inductionHypothesis =>
      have same : tryContent oracle file text world = tried := rfl
      obtain ⟨steps, few, builds, advanced⟩ :=
        advance_found rule oracle world applied
      rw [same] at few builds advanced
      clear_value tried
      obtain ⟨more, last, bounded, rest⟩ := inductionHypothesis
      have built := builds _ undone
      simp only [afterTrial, undone] at advanced
      rw [tryFrom_of_some found applied same, undone]
      refine ⟨1 + steps + 1 + more, last, ?_, fun events => ?_⟩
      · simp only [Run.after, Run.map, List.cons_append, List.append_assoc, List.countP_cons,
          List.countP_append, Event.isBuild]
        omega
      · rw [advance_round found advanced (fun _ => rfl) rest]
        simp [Run.after, Run.map]

end Machine

/-- Whether what is about to be done was found in the text that is kept. -/
def Phase.Fits (rule : Rule) (file : SourceFile) : Phase → Prop
  | .found candidate => ∃ start, rule.findIn? file.path file.content start = some candidate
  | .applied candidate text | .verifying candidate text =>
      (∃ start, rule.findIn? file.path file.content start = some candidate) ∧
        candidate.apply file.content = .ok text
  | _ => True

namespace Machine

variable {State : Type} {rule : Rule} {path : Text} {holds : List Attempt → Text → Prop}
  {machine : Machine State}

/-- A machine at work on a file, at a time when something holds of the attempts it has made
and the text it keeps. -/
structure Keeping (rule : Rule) (path : Text) (holds : List Attempt → Text → Prop)
    (machine : Machine State) : Prop where
  here : machine.file.path = path
  fits : machine.phase.Fits rule machine.file
  now : holds (attemptsOn path machine.events) machine.file.content

theorem Keeping.restore
    {next : Machine State → Machine State}
    (keeping : machine.Keeping rule path holds)
    (goesOn : ∀ tree, Keeping rule path holds
      (next { machine with world := { machine.world with tree } })) :
    Keeping rule path holds (machine.restore next) := by
  unfold Machine.restore
  split
  · exact ⟨keeping.here, trivial, keeping.now⟩
  next tree _ => exact goesOn tree

theorem keeping_settle
    (here : machine.file.path = path) (attempt : Attempt) {next : Phase}
    (fits : next.Fits rule machine.file)
    (now : holds (attemptsOn path machine.events ++ [attempt]) machine.file.content) :
    Keeping rule path holds (machine.settle attempt next) := by
  subst here
  exact ⟨rfl, fits, by simpa [settle] using now⟩

theorem Keeping.judge
    {candidate : Candidate} {text : Text}
    (keeps : rule.Keeps path holds)
    (keeping : machine.Keeping rule path holds)
    (found : ∃ start, rule.findIn? machine.file.path machine.file.content start = some candidate)
    (applied : candidate.apply machine.file.content = .ok text) (answer : Answer) :
    Keeping rule path holds (machine.judge candidate text answer) := by
  obtain ⟨start, found⟩ := found
  have here := keeping.here
  rw [here] at found
  unfold Machine.judge
  cases answer with
  | error error => exact keeping.restore fun _ => ⟨here, trivial, keeping.now⟩
  | ok verdict =>
      cases verdict with
      | pass =>
          refine keeping_settle ?_ _ trivial ?_
          · exact here
          · exact keeps.committed keeping.now found applied
      | fail =>
          refine keeping.restore fun _ => keeping_settle ?_ _ trivial ?_
          · exact here
          · exact keeps.reverted keeping.now found

theorem Keeping.step
    (keeps : rule.Keeps path holds) (oracle : Oracle State)
    (keeping : machine.Keeping rule path holds) :
    Keeping rule path holds (machine.step rule oracle) := by
  obtain ⟨phase, file, world, events⟩ := machine
  obtain ⟨here, fits, now⟩ := keeping
  cases phase with
  | scanning start =>
      simp only [Machine.step]
      split
      · exact ⟨here, trivial, now⟩
      next candidate found => exact ⟨here, ⟨start, found⟩, by simpa using now⟩
  | found candidate =>
      simp only [Machine.step]
      split
      · exact ⟨here, trivial, now⟩
      next text applied =>
        split
        · exact ⟨here, trivial, now⟩
        · exact ⟨here, ⟨fits, applied⟩, now⟩
  | applied candidate text => exact ⟨here, fits, now⟩
  | verifying candidate text =>
      have asked : Keeping rule path holds
          (ask oracle ⟨.verifying candidate text, file, world, events⟩) :=
        ⟨here, fits, by simpa [ask] using now⟩
      exact asked.judge keeps fits.1 fits.2 _
  | committed => exact ⟨here, trivial, now⟩
  | reverted line => exact ⟨here, trivial, now⟩
  | done => exact ⟨here, trivial, now⟩
  | failed error => exact ⟨here, trivial, now⟩

/-- What each trial keeps holds at any time. -/
theorem Keeping.advance
    (keeps : rule.Keeps path holds) (oracle : Oracle State)
    (keeping : machine.Keeping rule path holds) (steps : Nat) :
    Keeping rule path holds (machine.advance rule oracle steps) := by
  induction steps generalizing machine with
  | zero => exact keeping
  | succ steps inductionHypothesis => exact inductionHypothesis (keeping.step keeps oracle)

end Machine

end Upkeep
