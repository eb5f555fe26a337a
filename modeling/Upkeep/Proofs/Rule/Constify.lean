import Mathlib.Data.List.Sort
import Mathlib.Data.List.TakeWhile
import Upkeep.Proofs.Rule.Candidates
import Upkeep.Proofs.Source.Carry
import Upkeep.Proofs.Text.Name
import Upkeep.Rule.Constify.Rule

/-!
The word `const` in a line of code is nothing to the other lines.  It opens and closes
neither a comment nor a continuation, so that all lines keep their kinds and an edit takes
its own candidate away and no other.
-/

namespace Upkeep

open Unicode

theorem commentOpenAfter_append_of_isPlain
    {lead : Text}
    (plain : ∀ c ∈ lead, isPlain c = true) (rest : Text) :
    commentOpenAfter .code (lead ++ rest) = commentOpenAfter .code rest := by
  induction lead with
  | nil => rfl
  | cons c lead inductionHypothesis =>
      have plainHead := plain c (by simp)
      simp only [isPlain, Bool.and_eq_true, Bool.not_eq_true', bne_iff_ne, ne_eq] at plainHead
      rw [List.cons_append, commentOpenAfter, if_neg (by simp [plainHead.1.1])]
      · exact inductionHypothesis fun d member => plain d (by simp [member])
      · intro tail isSlash
        exact absurd isSlash plainHead.1.2
      · intro tail isSlash
        exact absurd isSlash plainHead.1.2

theorem StartsName.endsInBackslash_append
    {back : Text}
    (starts : StartsName back) (front : Text) :
    endsInBackslash (front ++ back) = endsInBackslash back := by
  obtain ⟨c, rest, rfl, identStart⟩ := starts
  apply Upkeep.endsInBackslash_append
  rw [trimEnd, dropEnd_cons_of_kept (isBlank_eq_false_of_isIdentStart identStart)]
  exact List.cons_ne_nil _ _

theorem StartsName.kindByStart_append
    {back : Text}
    (starts : StartsName back)
    {front : Text}
    (blank : ∀ c ∈ front, isBlank c = true) :
    kindByStart (front ++ back) = .code := by
  obtain ⟨c, rest, rfl, identStart⟩ := starts
  have trimmed : trimStart (front ++ c :: rest) = c :: rest := by
    rw [trimStart, List.dropWhile_append_of_pos blank,
      List.dropWhile_cons_of_neg (by simp [isBlank_eq_false_of_isIdentStart identStart])]
  rw [kindByStart_of_trimStart trimmed (by rintro rfl; revert identStart; decide),
    if_neg (by rintro rfl; revert identStart; decide)]

section

variable {index : SymbolIndex} {line text : Text} {carry : Carry}

/-- A proposal puts the word between a lead-in and a name. -/
theorem propose?_split
    (proposed : propose? index line = some text) :
    ∃ before after, line = before ++ after ∧ text = before ++ (constWord ++ after) ∧
      StartsName after ∧ IsLead before := by
  obtain ⟨⟨before, after⟩, found, rfl⟩ := Option.map_eq_some_iff.1 proposed
  obtain ⟨split, starts, isLead⟩ := insertionPoint?_split found
  exact ⟨before, after, split, List.append_assoc .., starts, isLead⟩

theorem kindByStart_of_propose?
    (proposed : propose? index line = some text) :
    kindByStart text = kindByStart line := by
  obtain ⟨before, after, rfl, rfl, starts, isLead⟩ := propose?_split proposed
  cases trimmed : trimStart before with
  | nil =>
      have blank : ∀ c ∈ before, isBlank c = true := List.dropWhile_eq_nil_iff.1 trimmed
      have word : StartsName (constWord ++ after) := ⟨'c', "onst ".toList ++ after, rfl, rfl⟩
      rw [word.kindByStart_append blank, starts.kindByStart_append blank]
  | cons c rest =>
      have notSlash : c ≠ '/' := by
        have plain := isLead.1 c
          ((List.dropWhile_sublist _).mem (show c ∈ trimStart before by simp [trimmed]))
        simp only [isPlain, Bool.and_eq_true, bne_iff_ne, ne_eq] at plain
        exact plain.1.2
      have front (back : Text) : trimStart (before ++ back) = c :: (rest ++ back) := by
        rw [trimStart] at trimmed ⊢
        simp [List.dropWhile_append, trimmed]
      rw [kindByStart_of_trimStart (front _) notSlash,
        kindByStart_of_trimStart (front _) notSlash]

theorem Carry.kind_of_propose?
    (carry : Carry)
    (proposed : propose? index line = some text) :
    carry.kind text = carry.kind line := by
  rw [kind, kind, kindByStart_of_propose? proposed]

/-- A proposal for a line of code leaves what the line passes on as it is. -/
theorem Carry.after_of_propose?
    (proposed : propose? index line = some text)
    (isCode : carry.kind line = .code) :
    carry.after text = carry.after line := by
  have noComment : carry.kind line ≠ .comment := by simp [isCode]
  have noContinuation : carry.kind line ≠ .continuation := by simp [isCode]
  obtain rfl := eq_none_of_kind noComment noContinuation
  obtain ⟨before, rest, rfl, rfl, starts, isLead⟩ := propose?_split proposed
  have word : ∀ c ∈ constWord, isPlain c = true := List.all_eq_true.1 (by decide)
  simp only [after, none, Bool.false_eq_true, if_false]
  rw [commentOpenAfter_append_of_isPlain isLead.1, commentOpenAfter_append_of_isPlain word,
    commentOpenAfter_append_of_isPlain isLead.1, starts.endsInBackslash_append,
    ← List.append_assoc, starts.endsInBackslash_append]

/-- A proposal for a line of code leaves the kinds of all lines as they are. -/
theorem classifyFrom_set
    {sourceLines : List Text} {number : Nat}
    (at_ : sourceLines[number]? = some line)
    (isCode : (classifyFrom carry sourceLines)[number]? = some .code)
    (proposed : propose? index line = some text) :
    classifyFrom carry (sourceLines.set number text) = classifyFrom carry sourceLines := by
  induction sourceLines generalizing carry number with
  | nil => simp at at_
  | cons first rest inductionHypothesis =>
      rw [classifyFrom] at isCode
      cases number with
      | zero =>
          simp only [List.getElem?_cons_zero, Option.some.injEq] at at_ isCode
          subst at_
          rw [List.set_cons_zero, classifyFrom, classifyFrom, carry.kind_of_propose? proposed,
            carry.after_of_propose? proposed isCode]
      | succ number =>
          simp only [List.getElem?_cons_succ] at at_ isCode
          rw [List.set_cons_succ, classifyFrom, classifyFrom, inductionHypothesis at_ isCode]

end

namespace Rule

variable {rule : Rule} {path content text : Text} {start : Nat} {candidate : Candidate}

/-- An edit that exchanges a line and leaves the kinds of all lines takes the candidate of
this line away and no other. -/
theorem mem_candidates_of_apply
    {new : Text}
    (found : rule.findIn? path content start = some candidate)
    (applied : candidate.apply content = .ok text)
    (exchanged : candidate.edit = .replaceBy new)
    (sameKinds : classify (lines text) = classify (lines content))
    (other : Candidate) :
    other ∈ rule.candidates path text ↔
      other ∈ rule.candidates path content ∧ other.line ≠ candidate.line := by
  obtain ⟨_, _, at_, edited⟩ := findIn?_spec found
  obtain ⟨inside, _⟩ := List.getElem?_eq_some_iff.1 at_
  rw [exchanged] at edited
  have settled := rule.settled edited
  rw [mem_candidates_iff, mem_candidates_iff, sameKinds, lines_of_apply found applied, exchanged,
    LineEdit.applyToLines, List.getElem?_set]
  by_cases same : candidate.line = other.line
  · rw [if_pos same, if_pos inside]
    constructor
    · rintro ⟨_, isNew, _, editedToo⟩
      rw [← Option.some.inj isNew, settled] at editedToo
      simp at editedToo
    · rintro ⟨_, elsewhere⟩
      exact absurd same.symm elsewhere
  · rw [if_neg same]
    exact (and_iff_left (Ne.symm same)).symm

/-- Such an edit, made at the first candidate, leaves the candidates after it. -/
theorem candidates_of_apply
    {new : Text}
    (found : rule.findIn? path content 0 = some candidate)
    (applied : candidate.apply content = .ok text)
    (exchanged : candidate.edit = .replaceBy new)
    (sameKinds : classify (lines text) = classify (lines content)) :
    rule.candidates path text = rule.candidatesFrom path content (candidate.line + 1) := by
  have first : rule.candidates path content =
      candidate :: rule.candidatesFrom path content (candidate.line + 1) :=
    candidatesFrom_of_findIn? found
  have ordered := rule.pairwise_candidates path content
  rw [first, List.pairwise_cons] at ordered
  have : Std.Irrefl fun first second : Candidate => first.line < second.line :=
    ⟨fun _ => Nat.lt_irrefl _⟩
  have : Std.Antisymm fun first second : Candidate => first.line < second.line :=
    ⟨fun _ _ before after => absurd after (Nat.lt_asymm before)⟩
  refine (rule.pairwise_candidates path text).eq_of_mem_iff ordered.2 fun other => ?_
  rw [mem_candidates_of_apply found applied exchanged sameKinds, first, List.mem_cons]
  constructor
  · rintro ⟨rfl | later, elsewhere⟩
    · exact absurd rfl elsewhere
    · exact later
  · intro later
    exact ⟨.inr later, Nat.ne_of_gt (ordered.1 other later)⟩

end Rule

section

variable {index : SymbolIndex} {path content text : Text} {start : Nat} {candidate : Candidate}

theorem exists_propose?_of_findIn?
    (found : (constify index).findIn? path content start = some candidate) :
    ∃ new, propose? index candidate.before = some new ∧ candidate.edit = .replaceBy new := by
  obtain ⟨new, proposed, same⟩ := Option.map_eq_some_iff.1 (Rule.findIn?_spec found).2.2.2
  exact ⟨new, proposed, same.symm⟩

/-- Putting `const` into a line leaves the kinds of all lines as they are. -/
theorem classify_of_apply
    (found : (constify index).findIn? path content start = some candidate)
    (applied : candidate.apply content = .ok text) :
    classify (lines text) = classify (lines content) := by
  obtain ⟨new, proposed, exchanged⟩ := exists_propose?_of_findIn? found
  obtain ⟨_, at_, isCode, _⟩ := Rule.mem_candidates_iff.1 (Rule.mem_candidates_of_findIn? found)
  rw [Rule.lines_of_apply found applied, exchanged]
  exact classifyFrom_set at_ isCode proposed

end

end Upkeep
