import Upkeep.Proofs.Trial.Attempts

/-!
The course that the trials on one file take, told by what happens and not by how
it is computed.  Each trial starts from the kept text: a passed build makes the
text on trial the kept one and the search starts again, a failed build moves the
search on, and anything else ends the trials.
-/

namespace Upkeep

/-- How a text and the tree go together between two events, and while the oracle
is asked. -/
structure Relation where
  shows : Text → Tree → Prop
  asks : Text → Answer → Tree → Prop

/-- The ways in which the trial of a text ends all trials. -/
inductive Stops (path : Text) (relation : Relation) (content text : Text) :
    List Event → TrialError → Prop where
  | unwritten {tree error} :
      relation.shows content tree →
      writeText tree path text = .error error →
      Stops path relation content text [] (.source error)
  | unanswered {tree error} :
      relation.asks text (.error error) tree →
      Stops path relation content text [.built (.error error) tree] (.build error)
  | unrestored {answer tree left error} :
      relation.asks text answer tree →
      answer ≠ .ok .pass →
      relation.shows text left →
      writeText left path content = .error error →
      Stops path relation content text [.built answer tree] (.source error)

/-- The trials on one file: the kept text and the place of the search, what happens
from there, the text kept in the end, and the error that ended the trials early. -/
inductive Trials (rule : Rule) (path : Text) (relation : Relation) :
    Text → Nat → List Event → Text → Option TrialError → Prop where
  | done {content start} :
      rule.findIn? path content start = none →
      Trials rule path relation content start [] content none
  | kept {content start candidate text tree settled events final stop} :
      rule.findIn? path content start = some candidate →
      candidate.apply content = .ok text →
      relation.asks text (.ok .pass) tree →
      relation.shows text settled →
      Trials rule path relation text 0 events final stop →
      Trials rule path relation content start
        (.found candidate :: .built (.ok .pass) tree ::
          .attempted path (candidate.attempt .committed) settled :: events)
        final stop
  | reverted {content start candidate text tree settled events final stop} :
      rule.findIn? path content start = some candidate →
      candidate.apply content = .ok text →
      relation.asks text (.ok .fail) tree →
      relation.shows content settled →
      Trials rule path relation content (candidate.line + 1) events final stop →
      Trials rule path relation content start
        (.found candidate :: .built (.ok .fail) tree ::
          .attempted path (candidate.attempt .reverted) settled :: events)
        final stop
  | stopped {content start candidate text events stop} :
      rule.findIn? path content start = some candidate →
      candidate.apply content = .ok text →
      Stops path relation content text events stop →
      Trials rule path relation content start (.found candidate :: events) content (some stop)

/-- Whether something goes on to hold of the attempts made so far and the text kept by then,
whatever comes of the next candidate. -/
structure Rule.Keeps (rule : Rule) (path : Text) (holds : List Attempt → Text → Prop) : Prop where
  committed : ∀ {attempts content start candidate text},
    holds attempts content →
    rule.findIn? path content start = some candidate →
    candidate.apply content = .ok text →
    holds (attempts ++ [candidate.attempt .committed]) text
  reverted : ∀ {attempts content start candidate},
    holds attempts content →
    rule.findIn? path content start = some candidate →
    holds (attempts ++ [candidate.attempt .reverted]) content

section

variable {rule : Rule} {path : Text} {relation : Relation} {content final : Text} {start : Nat}
  {stop : Option TrialError} {events : List Event}

theorem Trials.replay_eq
    (trials : Trials rule path relation content start events final stop) :
    replay path content (attemptsOn path events) = .ok final := by
  induction trials with
  | done => rfl
  | kept found applied _ _ _ inductionHypothesis =>
      simp only [attemptsOn_found, attemptsOn_built, attemptsOn_attempted_self]
      rw [replay_committed (Rule.findIn?_spec found).1 applied]
      exact inductionHypothesis
  | reverted _ _ _ _ _ inductionHypothesis => simpa using inductionHypothesis
  | stopped _ _ stops => cases stops <;> rfl

/-- Each attempt is the trial of a candidate that was found in the text kept by then. -/
theorem Trials.exists_found_of_attempt
    {before after : List Attempt} {attempt : Attempt}
    (trials : Trials rule path relation content start events final stop)
    (split : attemptsOn path events = before ++ attempt :: after) :
    ∃ baseline from_ candidate text,
      replay path content before = .ok baseline ∧
      rule.findIn? path baseline from_ = some candidate ∧
      candidate.apply baseline = .ok text ∧
      attempt = candidate.attempt attempt.outcome := by
  induction trials generalizing before with
  | done => simp at split
  | @kept content start candidate text _ _ _ _ _ found applied _ _ _ inductionHypothesis =>
      simp only [attemptsOn_found, attemptsOn_built, attemptsOn_attempted_self] at split
      cases before with
      | nil =>
          obtain ⟨rfl, _⟩ := List.cons.inj split
          exact ⟨content, start, candidate, text, rfl, found, applied, rfl⟩
      | cons first front =>
          obtain ⟨rfl, rest⟩ := List.cons.inj split
          rw [replay_committed (Rule.findIn?_spec found).1 applied]
          exact inductionHypothesis rest
  | @reverted content start candidate text _ _ _ _ _ found applied _ _ _ inductionHypothesis =>
      simp only [attemptsOn_found, attemptsOn_built, attemptsOn_attempted_self] at split
      cases before with
      | nil =>
          obtain ⟨rfl, _⟩ := List.cons.inj split
          exact ⟨content, start, candidate, text, rfl, found, applied, rfl⟩
      | cons first front =>
          obtain ⟨rfl, rest⟩ := List.cons.inj split
          rw [replay_reverted]
          exact inductionHypothesis rest
  | stopped _ _ stops => cases stops <;> simp at split

/-- What each trial keeps holds when the trials are over. -/
theorem Trials.holds_of_keeps
    {holds : List Attempt → Text → Prop}
    (trials : Trials rule path relation content start events final stop)
    (keeps : rule.Keeps path holds) (attempts : List Attempt)
    (initially : holds attempts content) :
    holds (attempts ++ attemptsOn path events) final := by
  induction trials generalizing attempts with
  | done => simpa using initially
  | kept found applied _ _ _ inductionHypothesis =>
      simpa using inductionHypothesis _ (keeps.committed initially found applied)
  | reverted found _ _ _ _ inductionHypothesis =>
      simpa using inductionHypothesis _ (keeps.reverted initially found)
  | stopped _ _ stops => cases stops <;> simpa using initially

theorem Trials.attemptsOn_of_ne
    {other : Text}
    (different : path ≠ other)
    (trials : Trials rule path relation content start events final stop) :
    attemptsOn other events = [] := by
  induction trials with
  | done => rfl
  | kept _ _ _ _ _ inductionHypothesis =>
      simp [attemptsOn_attempted_of_ne different, inductionHypothesis]
  | reverted _ _ _ _ _ inductionHypothesis =>
      simp [attemptsOn_attempted_of_ne different, inductionHypothesis]
  | stopped _ _ stops => cases stops <;> rfl

theorem Trials.startedFiles_eq
    (trials : Trials rule path relation content start events final stop) :
    startedFiles events = [] := by
  induction trials with
  | done => rfl
  | kept _ _ _ _ _ inductionHypothesis =>
      simpa [startedFiles, Event.started?] using inductionHypothesis
  | reverted _ _ _ _ _ inductionHypothesis =>
      simpa [startedFiles, Event.started?] using inductionHypothesis
  | stopped _ _ stops => cases stops <;> rfl

end

variable {State : Type}

/-- Texts and trees stay together over writes and builds. -/
structure Relation.Follows (relation : Relation) (oracle : Oracle State) (path : Text) : Prop where
  write : ∀ {tree left content text},
    relation.shows content tree → writeText tree path text = .ok left → relation.shows text left
  build : ∀ (world : World State) {tree text},
    writeText tree path text = .ok world.tree →
    relation.shows text world.tree →
      relation.asks text (oracle.build world).1 world.tree ∧
        relation.shows text (oracle.build world).2.tree

/-- What the trial of a text comes to. -/
inductive Tried (path : Text) (relation : Relation) (content text : Text) :
    Run State Outcome → Prop where
  | committed {tree} {left : World State} :
      relation.asks text (.ok .pass) tree →
      relation.shows text left.tree →
      Tried path relation content text ⟨[.built (.ok .pass) tree], left, .ok .committed⟩
  | reverted {tree} {left : World State} :
      relation.asks text (.ok .fail) tree →
      relation.shows content left.tree →
      Tried path relation content text ⟨[.built (.ok .fail) tree], left, .ok .reverted⟩
  | stopped {events} {left : World State} {error} :
      Stops path relation content text events error →
      ((∀ fault, error ≠ .source fault) → relation.shows content left.tree) →
      Tried path relation content text ⟨events, left, .error error⟩

@[simp]
theorem mapError_ok
    {Fault Other Value : Type} (change : Fault → Other) (value : Value) :
    (Except.ok value).mapError change = .ok value :=
  rfl

@[simp]
theorem mapError_error
    {Fault Other Value : Type} (change : Fault → Other) (fault : Fault) :
    (Except.error fault : Except Fault Value).mapError change = .error (change fault) :=
  rfl

theorem askBuild_eq (oracle : Oracle State) (world : World State) :
    askBuild oracle world =
      ⟨[.built (oracle.build world).1 world.tree], (oracle.build world).2,
        (oracle.build world).1.mapError .build⟩ :=
  rfl

theorem tryContent_tried
    {relation : Relation} {oracle : Oracle State} {file : SourceFile} {world : World State}
    (follows : relation.Follows oracle file.path)
    (shown : relation.shows file.content world.tree) (text : Text) :
    Tried file.path relation file.content text (tryContent oracle file text world) := by
  unfold tryContent writeRun
  cases written : writeText world.tree file.path text with
  | error error => exact .stopped (.unwritten shown written) fun other => absurd rfl (other error)
  | ok tree =>
      have asked := follows.build ⟨world.state, tree⟩ written
        (follows.write shown written)
      simp only [Run.andThen, Run.pure, List.nil_append, askBuild_eq]
      cases built : oracle.build ⟨world.state, tree⟩ with
      | mk answer left =>
          rw [built] at asked
          obtain ⟨asked, shownAfter⟩ := asked
          cases answer with
          | error error =>
              simp only [mapError_error, restoreAfter, writeRun]
              cases restored : writeText left.tree file.path file.content with
              | error fault =>
                  exact .stopped (.unrestored asked (by simp) shownAfter restored)
                    fun other => absurd rfl (other fault)
              | ok settled =>
                  exact .stopped (.unanswered asked) fun _ => follows.write shownAfter restored
          | ok verdict =>
              cases verdict with
              | pass => exact .committed asked shownAfter
              | fail =>
                  simp only [mapError_ok]
                  cases restored : writeText left.tree file.path file.content with
                  | error fault =>
                      exact .stopped (.unrestored asked (by simp) shownAfter restored)
                        fun other => absurd rfl (other fault)
                  | ok settled => exact .reverted asked (follows.write shownAfter restored)

/-- The oracle is asked about a tree to which the text has been written.  Nothing else is
said about texts and trees. -/
def writtenRelation (path : Text) : Relation where
  shows := fun _ _ => True
  asks := fun text _ tree => ∃ earlier, writeText earlier path text = .ok tree

theorem writtenRelation_follows (oracle : Oracle State) (path : Text) :
    (writtenRelation path).Follows oracle path where
  write := fun _ _ => trivial
  build := fun _ _ _ written _ => ⟨⟨_, written⟩, trivial⟩

@[simp]
theorem SourceFile.path_replaceContent (file : SourceFile) (text : Text) :
    (file.replaceContent text).path = file.path :=
  rfl

section

variable {rule : Rule} {oracle : Oracle State} {file : SourceFile} {start : Nat}
  {world left : World State} {candidate : Candidate} {text : Text}

theorem tryFrom_of_none
    (none_ : rule.findIn? file.path file.content start = none) :
    tryFrom rule oracle file start world = .pure [] world := by
  rw [tryFrom]
  split
  · rfl
  next found => simp [none_] at found

theorem tryFrom_of_some
    (found : rule.findIn? file.path file.content start = some candidate)
    (applied : candidate.apply file.content = .ok text)
    {tried : Run State Outcome}
    (same : tryContent oracle file text world = tried) :
    tryFrom rule oracle file start world =
      match tried.result with
      | .error error => ⟨.found candidate :: tried.events, tried.world, .error error⟩
      | .ok .committed =>
          ((tryFrom rule oracle (file.replaceContent text) 0 tried.world).map
            (candidate.attempt .committed :: ·)).after
              (.found candidate :: tried.events ++
                [.attempted file.path (candidate.attempt .committed) tried.world.tree])
      | .ok .reverted =>
          ((tryFrom rule oracle file (candidate.line + 1) tried.world).map
            (candidate.attempt .reverted :: ·)).after
              (.found candidate :: tried.events ++
                [.attempted file.path (candidate.attempt .reverted) tried.world.tree]) := by
  rw [tryFrom]
  split
  next none_ => simp [found] at none_
  next other found' =>
    obtain rfl : candidate = other := by simpa [found] using found'
    split
    next fault applied' => simp [applied] at applied'
    next otherText applied' =>
      obtain rfl : text = otherText := by simpa [applied] using applied'
      subst same
      rfl

/-- Of the tree in which an edit is tried no more is seen than what writing makes of it. -/
theorem tryFrom_eq_of_written
    {file : SourceFile} {start : Nat} {state : State} {first second : Tree} {candidate : Candidate}
    (found : rule.findIn? file.path file.content start = some candidate)
    (written : ∀ text, ∃ left,
      writeText first file.path text = .ok left ∧ writeText second file.path text = .ok left) :
    tryFrom rule oracle file start ⟨state, first⟩ =
      tryFrom rule oracle file start ⟨state, second⟩ := by
  have applied := Rule.apply_of_findIn? found
  have same : ∀ text,
      tryContent oracle file text ⟨state, first⟩ = tryContent oracle file text ⟨state, second⟩ := by
    intro text
    obtain ⟨left, writtenFirst, writtenSecond⟩ := written text
    simp only [tryContent, writeRun, writtenFirst, writtenSecond]
  rw [tryFrom_of_some found applied (same _), tryFrom_of_some found applied rfl]

/-- The result of trials: the attempts that were made, or the error that ended them. -/
def trialResult (path : Text) (events : List Event) :
    Option TrialError → Except TrialError (List Attempt)
  | none => .ok (attemptsOn path events)
  | some error => .error error

theorem trialResult_cons
    {path : Text} {attempt : Attempt} {front events : List Event}
    (one : attemptsOn path front = [attempt]) (stop : Option TrialError) :
    trialResult path (front ++ events) stop =
      (trialResult path events stop).map (attempt :: ·) := by
  cases stop with
  | none => simp [trialResult, one, Except.map]
  | some error => rfl

/-- The loop takes the course of trials, as long as texts and trees stay together. -/
theorem tryFrom_trials
    (rule : Rule) (start : Nat) {relation : Relation}
    (follows : relation.Follows oracle file.path)
    (shown : relation.shows file.content world.tree) :
    ∃ final stop,
      Trials rule file.path relation file.content start
        (tryFrom rule oracle file start world).events final stop ∧
      (tryFrom rule oracle file start world).result =
        trialResult file.path (tryFrom rule oracle file start world).events stop ∧
      ((∀ fault, stop ≠ some (.source fault)) →
        relation.shows final (tryFrom rule oracle file start world).world.tree) := by
  induction file, start, world using tryFrom.induct rule oracle with
  | case1 file start world none_ =>
      rw [tryFrom_of_none none_]
      exact ⟨_, none, .done none_, rfl, fun _ => shown⟩
  | case2 file start world candidate found error applied =>
      rw [Rule.apply_of_findIn? found] at applied
      simp at applied
  | case3 file start world candidate found text applied tried error failed =>
      have same : tryContent oracle file text world = tried := rfl
      have trial := tryContent_tried follows shown text
      rw [same] at trial
      clear_value tried
      cases trial with
      | committed asked shownAfter => simp at failed
      | reverted asked shownAfter => simp at failed
      | stopped stops shownAfter =>
          rw [tryFrom_of_some found applied same]
          refine ⟨_, _, .stopped found applied stops, rfl, fun noFault => shownAfter ?_⟩
          rintro fault rfl
          exact noFault fault rfl
  | case4 file start world candidate found text applied tried kept inductionHypothesis =>
      have same : tryContent oracle file text world = tried := rfl
      have trial := tryContent_tried follows shown text
      rw [same] at trial
      clear_value tried
      cases trial with
      | reverted asked shownAfter => simp at kept
      | stopped stops shownAfter => simp at kept
      | committed asked shownAfter =>
          obtain ⟨final, stop, trials, result, shownLast⟩ := inductionHypothesis follows shownAfter
          rw [tryFrom_of_some found applied same]
          refine ⟨final, stop, .kept found applied asked shownAfter trials, ?_, shownLast⟩
          simp only [Run.after, Run.map]
          rw [result]
          exact (trialResult_cons (by simp) stop).symm
  | case5 file start world candidate found text applied tried undone inductionHypothesis =>
      have same : tryContent oracle file text world = tried := rfl
      have trial := tryContent_tried follows shown text
      rw [same] at trial
      clear_value tried
      cases trial with
      | committed asked shownAfter => simp at undone
      | stopped stops shownAfter => simp at undone
      | reverted asked shownAfter =>
          obtain ⟨final, stop, trials, result, shownLast⟩ := inductionHypothesis follows shownAfter
          rw [tryFrom_of_some found applied same]
          refine ⟨final, stop, .reverted found applied asked shownAfter trials, ?_, shownLast⟩
          simp only [Run.after, Run.map]
          rw [result]
          exact (trialResult_cons (by simp) stop).symm

theorem tryFile_of_read
    (rule : Rule) (oracle : Oracle State) {path : Text}
    (read : SourceFile.read world.tree path = .ok file) :
    tryFile rule oracle path world =
      (tryFrom rule oracle file 0 world).map (FileReport.mk file.path) := by
  rw [tryFile, read]

theorem tryFile_of_none
    {path : Text}
    (read : SourceFile.read world.tree path = .ok file)
    (none_ : rule.findIn? file.path file.content 0 = none) :
    tryFile rule oracle path world = ⟨[], world, .ok ⟨file.path, []⟩⟩ := by
  rw [tryFile_of_read rule oracle read, tryFrom_of_none none_]
  rfl

theorem tryFile_trials
    (rule : Rule) {path : Text} {relation : Relation}
    (read : SourceFile.read world.tree path = .ok file)
    (follows : relation.Follows oracle file.path)
    (shown : relation.shows file.content world.tree) :
    ∃ final stop,
      Trials rule file.path relation file.content 0
        (tryFile rule oracle path world).events final stop ∧
      (tryFile rule oracle path world).result =
        (trialResult file.path (tryFile rule oracle path world).events stop).map
          (FileReport.mk file.path) ∧
      ((∀ fault, stop ≠ some (.source fault)) →
        relation.shows final (tryFile rule oracle path world).world.tree) := by
  obtain ⟨final, stop, trials, result, shownLast⟩ :=
    tryFrom_trials rule 0 follows shown
  rw [tryFile_of_read rule oracle read]
  refine ⟨final, stop, trials, ?_, shownLast⟩
  simp only [Run.map]
  rw [result]

theorem eq_none_of_trialResult
    {path : Text} {events : List Event} {stop : Option TrialError} {report : FileReport}
    (finished : (trialResult path events stop).map (FileReport.mk path) = .ok report) :
    stop = none ∧ report = ⟨path, attemptsOn path events⟩ := by
  cases stop with
  | none => exact ⟨rfl, (Except.ok.inj finished).symm⟩
  | some error => simp [trialResult, Except.map] at finished

end

end Upkeep
