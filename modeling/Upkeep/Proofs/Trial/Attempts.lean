import Upkeep.Trial.Run

/-!
What is read off the events of a run: the attempts on a file, the files that were
started, and the text that the kept attempts make of a file.
-/

namespace Upkeep

def Event.attemptOn? (path : Text) : Event → Option Attempt
  | .attempted other attempt _ => if other = path then some attempt else none
  | _ => none

/-- The attempts on a file, in order. -/
def attemptsOn (path : Text) (events : List Event) : List Attempt :=
  events.filterMap (Event.attemptOn? path)

def Event.started? : Event → Option Text
  | .fileStarted path => some path
  | _ => none

/-- The files that were started, in order. -/
def startedFiles (events : List Event) : List Text :=
  events.filterMap Event.started?

def Event.isBuild : Event → Bool
  | .built .. => true
  | _ => false

/-- What the kept attempts make of a text, one after the other. -/
def replay (path : Text) : Text → List Attempt → Except EditError Text
  | content, [] => .ok content
  | content, attempt :: rest =>
      if attempt.isCommitted then
        match (attempt.candidate path).apply content with
        | .error error => .error error
        | .ok text => replay path text rest
      else replay path content rest

@[simp]
theorem attemptsOn_nil (path : Text) : attemptsOn path [] = [] :=
  rfl

@[simp]
theorem attemptsOn_found (path : Text) (candidate : Candidate) (events : List Event) :
    attemptsOn path (.found candidate :: events) = attemptsOn path events :=
  rfl

@[simp]
theorem attemptsOn_built (path : Text) (answer : Answer) (tree : Tree) (events : List Event) :
    attemptsOn path (.built answer tree :: events) = attemptsOn path events :=
  rfl

@[simp]
theorem attemptsOn_fileStarted (path other : Text) (events : List Event) :
    attemptsOn path (.fileStarted other :: events) = attemptsOn path events :=
  rfl

@[simp]
theorem attemptsOn_fileFinished (path : Text) (report : FileReport) (events : List Event) :
    attemptsOn path (.fileFinished report :: events) = attemptsOn path events :=
  rfl

@[simp]
theorem attemptsOn_attempted_self
    (path : Text) (attempt : Attempt) (tree : Tree) (events : List Event) :
    attemptsOn path (.attempted path attempt tree :: events) =
      attempt :: attemptsOn path events := by
  rw [attemptsOn, List.filterMap_cons_some (b := attempt) (by simp [Event.attemptOn?])]
  rfl

theorem attemptsOn_attempted_of_ne
    {path other : Text}
    (different : other ≠ path) (attempt : Attempt) (tree : Tree) (events : List Event) :
    attemptsOn path (.attempted other attempt tree :: events) = attemptsOn path events := by
  rw [attemptsOn, List.filterMap_cons_none (by simp [Event.attemptOn?, different])]
  rfl

@[simp]
theorem attemptsOn_append (path : Text) (first second : List Event) :
    attemptsOn path (first ++ second) = attemptsOn path first ++ attemptsOn path second :=
  List.filterMap_append

@[simp]
theorem startedFiles_append (first second : List Event) :
    startedFiles (first ++ second) = startedFiles first ++ startedFiles second :=
  List.filterMap_append

@[simp]
theorem attempt_candidate
    {candidate : Candidate} {path : Text}
    (same : candidate.path = path) (outcome : Outcome) :
    (candidate.attempt outcome).candidate path = candidate := by
  subst same
  rfl

theorem replay_committed
    {path content text : Text} {candidate : Candidate}
    (same : candidate.path = path)
    (applied : candidate.apply content = .ok text) (rest : List Attempt) :
    replay path content (candidate.attempt .committed :: rest) = replay path text rest := by
  simp [replay, Candidate.attempt, Attempt.isCommitted, ← same, Attempt.candidate, applied]

@[simp]
theorem replay_reverted
    (path content : Text) (candidate : Candidate) (rest : List Attempt) :
    replay path content (candidate.attempt .reverted :: rest) = replay path content rest :=
  rfl

theorem replay_append
    {path content middle : Text} {first : List Attempt}
    (replayed : replay path content first = .ok middle) (second : List Attempt) :
    replay path content (first ++ second) = replay path middle second := by
  induction first generalizing content with
  | nil =>
      rw [replay, Except.ok.injEq] at replayed
      rw [replayed, List.nil_append]
  | cons attempt rest inductionHypothesis =>
      rw [replay] at replayed
      rw [List.cons_append, replay]
      split at replayed
      next kept =>
        rw [if_pos kept]
        split at replayed
        · simp at replayed
        next text applied => exact inductionHypothesis replayed
      next refused =>
        rw [if_neg refused]
        exact inductionHypothesis replayed

end Upkeep
