import Upkeep.Rule.Progress

/-!
All candidates of a text, one for each line that the rule edits.  The search for a
candidate goes through them in the order of their lines.
-/

namespace Upkeep

/-- Numbered items stand in the order of their numbers. -/
theorem pairwise_zipIdx {Item : Type} (items : List Item) (start : Nat) :
    (items.zipIdx start).Pairwise fun first second => first.2 < second.2 := by
  rw [← List.pairwise_map, List.zipIdx_map_snd]
  exact List.pairwise_lt_range' 1

namespace Rule

/-- The candidates of a text at or after a line. -/
def candidatesFrom (rule : Rule) (path content : Text) (start : Nat) : List Candidate :=
  ((((lines content).zip (classify (lines content))).drop start).zipIdx start).filterMap
    (rule.candidate? path)

/-- The candidates of a text. -/
def candidates (rule : Rule) (path content : Text) : List Candidate :=
  rule.candidatesFrom path content 0

variable {rule : Rule} {path content : Text} {start : Nat} {candidate : Candidate}

theorem line_of_candidate?
    {entry : (Text × LineKind) × Nat}
    (proposed : rule.candidate? path entry = some candidate) :
    candidate.line = entry.2 := by
  unfold candidate? at proposed
  split at proposed
  · obtain ⟨edit, _, rfl⟩ := Option.map_eq_some_iff.1 proposed
    rfl
  · simp at proposed

theorem findIn?_eq_head? (rule : Rule) (path content : Text) (start : Nat) :
    rule.findIn? path content start = (rule.candidatesFrom path content start).head? := by
  rw [candidatesFrom, List.head?_filterMap]
  rfl

theorem candidatesFrom_of_none
    (none_ : rule.findIn? path content start = none) :
    rule.candidatesFrom path content start = [] := by
  rw [findIn?_eq_head?, List.head?_eq_none_iff] at none_
  exact none_

/-- The first of some numbered lines that gives rise to a candidate, and the rest. -/
theorem filterMap_candidate?_of_findSome?
    {entries : List (Text × LineKind)}
    (found : (entries.zipIdx start).findSome? (rule.candidate? path) = some candidate) :
    (entries.zipIdx start).filterMap (rule.candidate? path) =
      candidate ::
        ((entries.drop (candidate.line + 1 - start)).zipIdx (candidate.line + 1)).filterMap
          (rule.candidate? path) := by
  induction entries generalizing start with
  | nil => simp at found
  | cons entry rest inductionHypothesis =>
      rw [List.zipIdx_cons] at found ⊢
      cases proposed : rule.candidate? path (entry, start) with
      | some first =>
          rw [List.findSome?_cons_of_isSome (by simp [proposed]), proposed,
            Option.some.injEq] at found
          subst found
          have line : first.line = start := line_of_candidate? proposed
          have next : first.line + 1 - start = 1 := by omega
          rw [List.filterMap_cons_some proposed, next, List.drop_one, List.tail_cons, line]
      | none =>
          rw [List.findSome?_cons_of_isNone (by simp [proposed])] at found
          have later := inductionHypothesis found
          obtain ⟨⟨_, number⟩, member, same⟩ := List.exists_of_findSome?_eq_some found
          have line : candidate.line = number := line_of_candidate? same
          have after : start + 1 ≤ number := List.le_snd_of_mem_zipIdx member
          have next : candidate.line + 1 - start = candidate.line + 1 - (start + 1) + 1 := by omega
          rw [List.filterMap_cons_none proposed, later, next, List.drop_succ_cons]

/-- A found candidate is followed by the candidates of the lines after it. -/
theorem candidatesFrom_of_findIn?
    (found : rule.findIn? path content start = some candidate) :
    rule.candidatesFrom path content start =
      candidate :: rule.candidatesFrom path content (candidate.line + 1) := by
  have later := (line_lt_of_findIn? found).1
  have split : candidate.line + 1 = start + (candidate.line + 1 - start) := by omega
  have whole := filterMap_candidate?_of_findSome? found
  rw [List.drop_drop, ← split] at whole
  exact whole

/-- The candidates of a text stand in the order of their lines, one to a line. -/
theorem pairwise_candidates (rule : Rule) (path content : Text) :
    (rule.candidates path content).Pairwise fun first second => first.line < second.line := by
  rw [candidates, candidatesFrom, List.pairwise_filterMap]
  apply (pairwise_zipIdx _ 0).imp
  intro first second before one proposed other proposedToo
  rw [line_of_candidate? proposed, line_of_candidate? proposedToo]
  exact before

/-- The candidates of a text are the edits that the rule proposes for its lines of the
right kind. -/
theorem mem_candidatesFrom_iff :
    candidate ∈ rule.candidatesFrom path content start ↔
      start ≤ candidate.line ∧
      candidate.path = path ∧
      (lines content)[candidate.line]? = some candidate.before ∧
      (classify (lines content))[candidate.line]? = some rule.kind ∧
      rule.edit? path candidate.before = some candidate.edit := by
  rw [candidatesFrom, List.mem_filterMap]
  constructor
  · rintro ⟨⟨⟨text, kind⟩, number⟩, member, proposed⟩
    obtain ⟨later, at_⟩ := List.mem_zipIdx_iff_le_and_getElem?_sub.1 member
    rw [List.getElem?_drop, Nat.add_sub_cancel' later, List.getElem?_zip_eq_some] at at_
    unfold candidate? at proposed
    split at proposed
    next sameKind =>
      obtain ⟨edit, edited, rfl⟩ := Option.map_eq_some_iff.1 proposed
      exact ⟨later, rfl, at_.1, sameKind ▸ at_.2, edited⟩
    · simp at proposed
  · rintro ⟨later, rfl, atLine, atKind, edited⟩
    refine ⟨((candidate.before, rule.kind), candidate.line), ?_, ?_⟩
    · rw [List.mem_zipIdx_iff_le_and_getElem?_sub, List.getElem?_drop,
        Nat.add_sub_cancel' later]
      exact ⟨later, List.getElem?_zip_eq_some.2 ⟨atLine, atKind⟩⟩
    · simp [candidate?, edited]

theorem mem_candidates_iff :
    candidate ∈ rule.candidates path content ↔
      candidate.path = path ∧
      (lines content)[candidate.line]? = some candidate.before ∧
      (classify (lines content))[candidate.line]? = some rule.kind ∧
      rule.edit? path candidate.before = some candidate.edit := by
  rw [candidates, mem_candidatesFrom_iff]
  exact and_iff_right (Nat.zero_le _)

theorem mem_candidates_of_findIn?
    (found : rule.findIn? path content start = some candidate) :
    candidate ∈ rule.candidates path content := by
  have member : candidate ∈ rule.candidatesFrom path content start := by
    rw [candidatesFrom_of_findIn? found]
    exact List.mem_cons_self
  exact mem_candidates_iff.2 (mem_candidatesFrom_iff.1 member).2

end Rule

end Upkeep
