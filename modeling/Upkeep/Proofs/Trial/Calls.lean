import Upkeep.Proofs.Trial.Course

/-!
The events of a run tell of each call of the oracle and of no other.  Nothing but the
oracle itself changes its state, so that the calls hang together as the oracle made them.
-/

namespace Upkeep

variable {State : Type}

/-- Events in which an oracle is called from one state on, with the answers that it gives to
the trees it sees, and the state that the last call leaves. -/
inductive Calls (oracle : Oracle State) : State → List Event → State → Prop where
  | done {state} : Calls oracle state [] state
  | build {state tree events last} :
      Calls oracle (oracle.build ⟨state, tree⟩).2.state events last →
      Calls oracle state (.built (oracle.build ⟨state, tree⟩).1 tree :: events) last
  | other {state event events last} :
      event.isBuild = false →
      Calls oracle state events last →
      Calls oracle state (event :: events) last

def Event.answer? : Event → Option Answer
  | .built answer _ => some answer
  | _ => none

/-- The answers of the oracle, in order. -/
def answersIn (events : List Event) : List Answer :=
  events.filterMap Event.answer?

@[simp]
theorem answersIn_nil : answersIn [] = [] :=
  rfl

@[simp]
theorem answersIn_built (answer : Answer) (tree : Tree) (events : List Event) :
    answersIn (.built answer tree :: events) = answer :: answersIn events :=
  rfl

theorem answersIn_cons_of_not_isBuild
    {event : Event}
    (notBuilt : event.isBuild = false) (events : List Event) :
    answersIn (event :: events) = answersIn events := by
  cases event with
  | built => simp [Event.isBuild] at notBuilt
  | fileStarted => rfl
  | found => rfl
  | attempted => rfl
  | fileFinished => rfl

@[simp]
theorem answersIn_append (first second : List Event) :
    answersIn (first ++ second) = answersIn first ++ answersIn second :=
  List.filterMap_append

section

variable {Value Other : Type} {oracle : Oracle State} {state middle last : State}
  {first second : List Event}

theorem Calls.append
    (calls : Calls oracle state first middle)
    (later : Calls oracle middle second last) :
    Calls oracle state (first ++ second) last := by
  induction calls with
  | done => exact later
  | build _ inductionHypothesis => exact .build (inductionHypothesis later)
  | other notBuilt _ inductionHypothesis => exact .other notBuilt (inductionHypothesis later)

theorem Calls.andThen
    {run : Run State Value} {next : Value → World State → Run State Other}
    (calls : Calls oracle state run.events run.world.state)
    (later : ∀ value, run.result = .ok value →
      Calls oracle run.world.state (next value run.world).events (next value run.world).world.state) :
    Calls oracle state (run.andThen next).events (run.andThen next).world.state := by
  unfold Run.andThen
  cases result : run.result with
  | error error => exact calls
  | ok value => exact calls.append (later value result)

theorem askBuild_calls (oracle : Oracle State) (world : World State) :
    Calls oracle world.state (askBuild oracle world).events (askBuild oracle world).world.state :=
  .build .done

theorem writeRun_calls (oracle : Oracle State) (path text : Text) (world : World State) :
    Calls oracle world.state (writeRun path text world).events
      (writeRun path text world).world.state := by
  unfold writeRun
  split <;> exact .done

theorem tryContent_calls
    (oracle : Oracle State) (file : SourceFile) (text : Text) (world : World State) :
    Calls oracle world.state (tryContent oracle file text world).events
      (tryContent oracle file text world).world.state := by
  apply (writeRun_calls oracle file.path text world).andThen
  intro _ _
  generalize (writeRun file.path text world).world = written
  have asked := askBuild_calls oracle written
  simp only
  split
  · refine asked.append (Calls.andThen (writeRun_calls oracle _ _ _) fun _ _ => .done)
  · exact asked
  · exact asked.append (writeRun_calls oracle _ _ _)

theorem tryFrom_calls
    (rule : Rule) (oracle : Oracle State) (file : SourceFile) (start : Nat)
    (world : World State) :
    Calls oracle world.state (tryFrom rule oracle file start world).events
      (tryFrom rule oracle file start world).world.state := by
  induction file, start, world using tryFrom.induct rule oracle with
  | case1 file start world none_ =>
      rw [tryFrom_of_none none_]
      exact .done
  | case2 file start world candidate found error applied =>
      rw [Rule.apply_of_findIn? found] at applied
      simp at applied
  | case3 file start world candidate found text applied tried error failed =>
      have same : tryContent oracle file text world = tried := rfl
      rw [tryFrom_of_some found applied same, failed]
      exact .other rfl (tryContent_calls oracle file text world)
  | case4 file start world candidate found text applied tried kept inductionHypothesis =>
      have same : tryContent oracle file text world = tried := rfl
      rw [tryFrom_of_some found applied same, kept]
      refine .other rfl (.append (.append (tryContent_calls oracle file text world) ?_)
        inductionHypothesis)
      exact .other rfl .done
  | case5 file start world candidate found text applied tried undone inductionHypothesis =>
      have same : tryContent oracle file text world = tried := rfl
      rw [tryFrom_of_some found applied same, undone]
      refine .other rfl (.append (.append (tryContent_calls oracle file text world) ?_)
        inductionHypothesis)
      exact .other rfl .done

theorem tryFile_calls
    (rule : Rule) (oracle : Oracle State) (path : Text) (world : World State) :
    Calls oracle world.state (tryFile rule oracle path world).events
      (tryFile rule oracle path world).world.state := by
  unfold tryFile
  split
  · exact .done
  · exact tryFrom_calls rule oracle _ 0 world

theorem tryFiles_calls
    (rule : Rule) (oracle : Oracle State) (paths : List Text) (world : World State) :
    Calls oracle world.state (tryFiles rule oracle paths world).events
      (tryFiles rule oracle paths world).world.state := by
  induction paths generalizing world with
  | nil => exact .done
  | cons path paths inductionHypothesis =>
      rw [tryFiles]
      refine .other rfl (Calls.andThen (tryFile_calls rule oracle path world) fun report _ => ?_)
      exact .other rfl (inductionHypothesis _)

/-- The events of a run tell of the calls of the oracle. -/
theorem tryEdits_calls
    (rule : Rule) (oracle : Oracle State) (paths : List Text) (world : World State) :
    Calls oracle world.state (tryEdits rule oracle paths world).events
      (tryEdits rule oracle paths world).world.state := by
  have baseline : Calls oracle world.state (checkBaseline oracle world).events
      (checkBaseline oracle world).world.state := by
    refine Calls.andThen (askBuild_calls oracle world) fun verdict _ => ?_
    cases verdict <;> exact .done
  exact baseline.andThen fun _ _ => tryFiles_calls rule oracle paths _

end

/-- Each answer that is told of was given to the tree that it is told of. -/
theorem Calls.exists_state_of_built
    {oracle : Oracle State} {state last : State} {events : List Event} {answer : Answer}
    {tree : Tree}
    (calls : Calls oracle state events last)
    (built : .built answer tree ∈ events) :
    ∃ state, answer = (oracle.build ⟨state, tree⟩).1 := by
  induction calls with
  | done => simp at built
  | @build state _ _ _ _ inductionHypothesis =>
      rcases List.mem_cons.1 built with here | later
      · obtain ⟨rfl, rfl⟩ := Event.built.inj here
        exact ⟨state, rfl⟩
      · exact inductionHypothesis later
  | other notBuilt _ inductionHypothesis =>
      rcases List.mem_cons.1 built with here | later
      · simp [← here, Event.isBuild] at notBuilt
      · exact inductionHypothesis later

/-- Where every tree passes, each build of a file's trials does. -/
theorem tryFile_passes
    {oracle : Oracle State} (rule : Rule) (path : Text) (world : World State)
    (passes : ∀ world : World State, (oracle.build world).1 = .ok .pass)
    (answer : Answer) (tree : Tree)
    (built : .built answer tree ∈ (tryFile rule oracle path world).events) :
    answer = .ok .pass := by
  obtain ⟨state, rfl⟩ := (tryFile_calls rule oracle path world).exists_state_of_built built
  exact passes ⟨state, tree⟩

/-- An oracle that follows a sequence is called for one answer of it after the other. -/
theorem Calls.answersIn_eq
    {answers : Nat → Answer} {first last : Nat} {events : List Event}
    (calls : Calls (.ofAnswers answers) first events last) :
    last = first + (answersIn events).length ∧
      answersIn events = (List.range' first (answersIn events).length).map answers := by
  induction calls with
  | done => simp
  | @build state tree events last _ inductionHypothesis =>
      obtain ⟨ends, same⟩ := inductionHypothesis
      have next : ((Oracle.ofAnswers answers).build ⟨state, tree⟩).2.state = state + 1 := rfl
      rw [next] at ends same
      rw [answersIn_built, List.length_cons, List.range'_succ, List.map_cons, ← same]
      exact ⟨by omega, rfl⟩
  | other notBuilt _ inductionHypothesis =>
      rw [answersIn_cons_of_not_isBuild notBuilt]
      exact inductionHypothesis

end Upkeep
