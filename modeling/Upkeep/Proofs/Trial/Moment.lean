import Upkeep.Proofs.Trial.Course

/-!
What the trials on one file say of any one of their builds: which text is kept at
that time, which edit is on trial, and what the answer brings about.
-/

namespace Upkeep

/-- A build among the trials on a file.  The events before it make `baseline` of the
content, `text` is on trial, and `after` begins with what comes of the answer. -/
structure TrialMoment
    (rule : Rule) (path : Text) (relation : Relation) (content final : Text)
    (stop : Option TrialError)
    (before : List Event) (answer : Answer) (tree : Tree) (after : List Event)
    (baseline : Text) (candidate : Candidate) (text : Text) : Prop where
  started : startedFiles before = []
  kept : replay path content (attemptsOn path before) = .ok baseline
  proposed : ∃ start, rule.findIn? path baseline start = some candidate
  applied : candidate.apply baseline = .ok text
  asked : relation.asks text answer tree
  passed : answer = .ok .pass → ∃ settled rest,
    after = .attempted path (candidate.attempt .committed) settled :: rest ∧
      relation.shows text settled
  failed : answer = .ok .fail → ∃ settled rest,
    after = .attempted path (candidate.attempt .reverted) settled :: rest ∧
      relation.shows baseline settled
  broken : ∀ error, answer = .error error →
    after = [] ∧ stop = some (.build error) ∧ final = baseline

section

variable {rule : Rule} {path : Text} {relation : Relation} {content text final : Text} {start : Nat}
  {stop : Option TrialError} {events before after : List Event} {answer : Answer} {tree : Tree}
  {baseline trial : Text} {candidate other : Candidate}

/-- An event that is no build stands before the build at which events are split. -/
theorem exists_front_of_split
    {event : Event} {rest : List Event}
    (notBuilt : event.isBuild = false)
    (split : event :: rest = before ++ .built answer tree :: after) :
    ∃ front, before = event :: front ∧ rest = front ++ .built answer tree :: after := by
  cases before with
  | nil =>
      rw [List.nil_append, List.cons.injEq] at split
      rw [split.1] at notBuilt
      simp [Event.isBuild] at notBuilt
  | cons first front =>
      rw [List.cons_append, List.cons.injEq] at split
      exact ⟨front, by rw [split.1], split.2⟩

/-- Events that begin with a trial are split at the build of this trial or later. -/
theorem split_at_build
    {first : Answer} {tried : Tree} {rest : List Event}
    (split : .found other :: .built first tried :: rest =
      before ++ .built answer tree :: after) :
    (before = [.found other] ∧ first = answer ∧ tried = tree ∧ rest = after) ∨
      ∃ front, before = .found other :: .built first tried :: front ∧
        rest = front ++ .built answer tree :: after := by
  obtain ⟨front, rfl, splitRest⟩ := exists_front_of_split rfl split
  cases front with
  | nil =>
      rw [List.nil_append, List.cons.injEq, Event.built.injEq] at splitRest
      exact .inl ⟨rfl, splitRest.1.1, splitRest.1.2, splitRest.2⟩
  | cons second front =>
      rw [List.cons_append, List.cons.injEq] at splitRest
      exact .inr ⟨front, by rw [splitRest.1], splitRest.2⟩

theorem TrialMoment.cons
    {otherAnswer : Answer} {otherTree settled : Tree} {outcome : Outcome}
    (moment : TrialMoment rule path relation text final stop before answer tree after
      baseline candidate trial)
    (replayed : ∀ rest,
      replay path content (other.attempt outcome :: rest) = replay path text rest) :
    TrialMoment rule path relation content final stop
      (.found other :: .built otherAnswer otherTree ::
        .attempted path (other.attempt outcome) settled :: before)
      answer tree after baseline candidate trial where
  started := moment.started
  kept := by
    simp only [attemptsOn_found, attemptsOn_built, attemptsOn_attempted_self]
    rw [replayed]
    exact moment.kept
  proposed := moment.proposed
  applied := moment.applied
  asked := moment.asked
  passed := moment.passed
  failed := moment.failed
  broken := moment.broken

/-- Each build among trials on a file that can be written is such a moment. -/
theorem Trials.exists_moment
    (trials : Trials rule path relation content start events final stop)
    (written : ∀ fault, stop ≠ some (.source fault))
    (split : events = before ++ .built answer tree :: after) :
    ∃ baseline candidate trial,
      TrialMoment rule path relation content final stop before answer tree after
        baseline candidate trial := by
  induction trials generalizing before with
  | done => simp at split
  | @kept content start found text tried settled events final stop
      proposed applied asked shown _ inductionHypothesis =>
      rcases split_at_build split with ⟨rfl, rfl, rfl, rfl⟩ | ⟨front, rfl, later⟩
      · exact ⟨content, found, text, rfl, rfl, ⟨start, proposed⟩, applied, asked,
          fun _ => ⟨settled, events, rfl, shown⟩, by simp, by simp⟩
      · obtain ⟨front, rfl, rest⟩ := exists_front_of_split rfl later
        obtain ⟨baseline, candidate, trial, moment⟩ := inductionHypothesis written rest
        exact ⟨baseline, candidate, trial,
          moment.cons (replay_committed (Rule.findIn?_spec proposed).1 applied)⟩
  | @reverted content start found text tried settled events final stop
      proposed applied asked shown _ inductionHypothesis =>
      rcases split_at_build split with ⟨rfl, rfl, rfl, rfl⟩ | ⟨front, rfl, later⟩
      · exact ⟨content, found, text, rfl, rfl, ⟨start, proposed⟩, applied, asked,
          by simp, fun _ => ⟨settled, events, rfl, shown⟩, by simp⟩
      · obtain ⟨front, rfl, rest⟩ := exists_front_of_split rfl later
        obtain ⟨baseline, candidate, trial, moment⟩ := inductionHypothesis written rest
        exact ⟨baseline, candidate, trial, moment.cons (replay_reverted path content found)⟩
  | @stopped content start found text events error proposed applied stops =>
      cases stops with
      | unwritten shown failed => exact absurd rfl (written _)
      | unrestored asked notPassed shown failed => exact absurd rfl (written _)
      | @unanswered tried error asked =>
          rcases split_at_build split with ⟨rfl, rfl, rfl, rfl⟩ | ⟨front, rfl, later⟩
          · exact ⟨content, found, text, rfl, rfl, ⟨start, proposed⟩, applied, asked,
              by simp, by simp, fun _ same => ⟨rfl, by rw [Except.error.inj same], rfl⟩⟩
          · simp at later

theorem Trials.exists_build_of_found
    (found : rule.findIn? path content start = some candidate)
    (trials : Trials rule path relation content start events final stop)
    (written : ∀ fault, stop ≠ some (.source fault)) :
    ∃ answer tree after, events = .found candidate :: .built answer tree :: after := by
  cases trials with
  | done none_ => simp [found] at none_
  | kept first =>
      obtain rfl := Option.some.inj (found.symm.trans first)
      exact ⟨_, _, _, rfl⟩
  | reverted first =>
      obtain rfl := Option.some.inj (found.symm.trans first)
      exact ⟨_, _, _, rfl⟩
  | stopped first _ stops =>
      obtain rfl := Option.some.inj (found.symm.trans first)
      cases stops with
      | unwritten => exact absurd rfl (written _)
      | unanswered => exact ⟨_, _, _, rfl⟩
      | unrestored => exact absurd rfl (written _)

end

end Upkeep
