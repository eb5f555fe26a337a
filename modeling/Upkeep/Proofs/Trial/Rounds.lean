import Upkeep.Proofs.Rule.Candidates
import Upkeep.Proofs.Trial.Course

/-!
The trials on a file, round by round.  A round goes through the candidates of the kept
text from the top until one of them is kept; the last round goes through all of them
and keeps none, so that what the rule would still edit has been refused.
-/

namespace Upkeep

/-- Attempts that go through the candidates of one kept text after the other. -/
inductive Rounds (rule : Rule) (path : Text) : Text → List Attempt → Text → Prop where
  | last {content} :
      Rounds rule path content
        ((rule.candidates path content).map (·.attempt .reverted)) content
  | kept {content text final tried candidate untried attempts} :
      rule.candidates path content = tried ++ candidate :: untried →
      candidate.apply content = .ok text →
      Rounds rule path text attempts final →
      Rounds rule path content
        (tried.map (·.attempt .reverted) ++ candidate.attempt .committed :: attempts) final

/-- A candidate was tried on a text, and the build failed. -/
def Refused (path : Text) (sees : Text → Tree → Prop) (content : Text) (events : List Event)
    (candidate : Candidate) : Prop :=
  ∃ text tree settled before after,
    candidate.apply content = .ok text ∧
    sees text tree ∧
    events = before ++ .found candidate :: .built (.ok .fail) tree ::
      .attempted path (candidate.attempt .reverted) settled :: after

/-- From some time on no edit is kept, and each candidate of the final text is refused. -/
def Exhausted (rule : Rule) (path : Text) (sees : Text → Tree → Prop) (content final : Text)
    (events : List Event) : Prop :=
  ∃ front back, events = front ++ back ∧
    replay path content (attemptsOn path front) = .ok final ∧
    (∀ attempt ∈ attemptsOn path back, attempt.isCommitted = false) ∧
    ∀ candidate ∈ rule.candidates path final, Refused path sees final back candidate

section

variable {rule : Rule} {path : Text} {relation : Relation} {content final : Text} {start : Nat}
  {stop : Option TrialError} {events : List Event} {sees : Text → Tree → Prop}

theorem Refused.append
    {candidate : Candidate}
    (refused : Refused path sees content events candidate) (front : List Event) :
    Refused path sees content (front ++ events) candidate := by
  obtain ⟨text, tree, settled, before, after, applied, seen, rfl⟩ := refused
  exact ⟨text, tree, settled, front ++ before, after, applied, seen, by simp⟩

theorem Exhausted.mono
    {more : Text → Tree → Prop}
    (exhausted : Exhausted rule path sees content final events)
    (weaker : ∀ {text tree}, sees text tree → more text tree) :
    Exhausted rule path more content final events := by
  obtain ⟨front, back, split, replayed, reverted, refused⟩ := exhausted
  refine ⟨front, back, split, replayed, reverted, fun candidate member => ?_⟩
  obtain ⟨text, tree, settled, before, after, applied, seen, same⟩ := refused candidate member
  exact ⟨text, tree, settled, before, after, applied, weaker seen, same⟩

/-- Finished trials are such rounds, whatever part of the first round is over. -/
theorem Trials.rounds_of_skipped
    (skipped : List Candidate)
    (trials : Trials rule path relation content start events final stop)
    (finished : stop = none)
    (split : rule.candidates path content =
      skipped ++ rule.candidatesFrom path content start) :
    Rounds rule path content (skipped.map (·.attempt .reverted) ++ attemptsOn path events)
      final := by
  induction trials generalizing skipped with
  | done none_ =>
      rw [Rule.candidatesFrom_of_none none_, List.append_nil] at split
      rw [attemptsOn_nil, List.append_nil, ← split]
      exact .last
  | kept found applied _ _ _ inductionHypothesis =>
      rw [Rule.candidatesFrom_of_findIn? found] at split
      simp only [attemptsOn_found, attemptsOn_built, attemptsOn_attempted_self]
      exact .kept split applied (inductionHypothesis [] finished rfl)
  | @reverted _ _ candidate _ _ _ _ _ _ found _ _ _ _ inductionHypothesis =>
      rw [Rule.candidatesFrom_of_findIn? found] at split
      simp only [attemptsOn_found, attemptsOn_built, attemptsOn_attempted_self]
      have further := inductionHypothesis (skipped ++ [candidate]) finished
        (by rw [split, List.append_assoc, List.singleton_append])
      simpa using further
  | stopped => simp at finished

theorem Trials.rounds
    (trials : Trials rule path relation content 0 events final none) :
    Rounds rule path content (attemptsOn path events) final :=
  trials.rounds_of_skipped [] rfl rfl

/-- Either no edit is kept and the candidates from here on are refused, or one is kept
and all candidates are refused after the last one. -/
theorem Trials.refused_or_kept
    (trials : Trials rule path relation content start events final stop)
    (finished : stop = none) :
    (final = content ∧ (∀ attempt ∈ attemptsOn path events, attempt.isCommitted = false) ∧
      ∀ candidate ∈ rule.candidatesFrom path content start,
        Refused path (relation.asks · (.ok .fail) ·) content events candidate) ∨
    Exhausted rule path (relation.asks · (.ok .fail) ·) content final events := by
  induction trials with
  | done none_ => exact .inl ⟨rfl, by simp, by simp [Rule.candidatesFrom_of_none none_]⟩
  | @kept content start candidate text tree settled events final stop
      found applied _ _ _ inductionHypothesis =>
      have same := (Rule.findIn?_spec found).1
      right
      rcases inductionHypothesis finished with
        ⟨rfl, reverted, refused⟩ | ⟨front, back, rfl, replayed, reverted, refused⟩
      · refine ⟨[.found candidate, .built (.ok .pass) tree,
          .attempted path (candidate.attempt .committed) settled], events, rfl, ?_, reverted,
          refused⟩
        simp only [attemptsOn_found, attemptsOn_built, attemptsOn_attempted_self, attemptsOn_nil]
        exact replay_committed same applied []
      · refine ⟨.found candidate :: .built (.ok .pass) tree ::
          .attempted path (candidate.attempt .committed) settled :: front, back, rfl, ?_, reverted,
          refused⟩
        simp only [attemptsOn_found, attemptsOn_built, attemptsOn_attempted_self]
        rw [replay_committed same applied]
        exact replayed
  | @reverted content start candidate text tree settled events final stop
      found applied asked _ _ inductionHypothesis =>
      rcases inductionHypothesis finished with
        ⟨rfl, reverted, refused⟩ | ⟨front, back, rfl, replayed, reverted, refused⟩
      · left
        refine ⟨rfl, ?_, ?_⟩
        · simpa [Candidate.attempt, Attempt.isCommitted] using reverted
        · rw [Rule.candidatesFrom_of_findIn? found]
          intro other member
          rcases List.mem_cons.1 member with rfl | later
          · exact ⟨text, tree, settled, [], events, applied, asked, rfl⟩
          · exact (refused other later).append [.found candidate, .built (.ok .fail) tree,
              .attempted path (candidate.attempt .reverted) settled]
      · right
        exact ⟨.found candidate :: .built (.ok .fail) tree ::
          .attempted path (candidate.attempt .reverted) settled :: front, back, rfl,
          by simpa using replayed, reverted, refused⟩
  | stopped => simp at finished

theorem Trials.exhausted
    (trials : Trials rule path relation content 0 events final none) :
    Exhausted rule path (relation.asks · (.ok .fail) ·) content final events := by
  rcases trials.refused_or_kept rfl with ⟨rfl, reverted, refused⟩ | exhausted
  · exact ⟨[], events, rfl, rfl, reverted, refused⟩
  · exact exhausted

/-- Where the oracle refuses each candidate, nothing is kept. -/
theorem Trials.of_refused
    (trials : Trials rule path relation content start events final stop)
    (written : ∀ fault, stop ≠ some (.source fault))
    (refused : ∀ candidate ∈ rule.candidatesFrom path content start, ∀ text answer tree,
      candidate.apply content = .ok text → relation.asks text answer tree →
        answer = .ok .fail) :
    stop = none ∧ final = content ∧
      attemptsOn path events =
        (rule.candidatesFrom path content start).map (·.attempt .reverted) := by
  induction trials with
  | done none_ => simp [Rule.candidatesFrom_of_none none_]
  | kept found applied asked =>
      rw [Rule.candidatesFrom_of_findIn? found] at refused
      have refusedFirst := refused _ List.mem_cons_self _ _ _ applied asked
      simp at refusedFirst
  | reverted found _ _ _ _ inductionHypothesis =>
      rw [Rule.candidatesFrom_of_findIn? found] at refused ⊢
      obtain ⟨finished, same, attempts⟩ := inductionHypothesis written fun candidate member =>
        refused candidate (List.mem_cons_of_mem _ member)
      refine ⟨finished, same, ?_⟩
      simp [attempts]
  | stopped found applied stops =>
      rw [Rule.candidatesFrom_of_findIn? found] at refused
      cases stops with
      | unwritten => exact absurd rfl (written _)
      | unrestored => exact absurd rfl (written _)
      | unanswered asked =>
          have refusedFirst := refused _ List.mem_cons_self _ _ _ applied asked
          simp at refusedFirst

theorem Trials.final_asked
    (trials : Trials rule path relation content start events final stop) :
    final = content ∨ ∃ tree, relation.asks final (.ok .pass) tree := by
  induction trials with
  | done => exact .inl rfl
  | kept _ _ asked _ _ inductionHypothesis =>
      rcases inductionHypothesis with same | built
      · subst same
        exact .inr ⟨_, asked⟩
      · exact .inr built
  | reverted _ _ _ _ _ inductionHypothesis => exact inductionHypothesis
  | stopped => exact .inl rfl

end

end Upkeep
