import Upkeep.Check.Includes
import Upkeep.Proofs.Rule.Candidates
import Upkeep.Proofs.Rule.Trim
import Upkeep.Proofs.Whitespace.License

/-!
What checks and rules see of a text and of its normal form.  They go through numbered lines
and their kinds, and nothing that they read off a line depends on the blanks around it.
-/

namespace Upkeep

open Unicode

/-- The lines of a text from a given one on, each with its kind and its number. -/
def numberedLines (content : Text) (start : Nat) : List ((Text × LineKind) × Nat) :=
  (((lines content).zip (classify (lines content))).drop start).zipIdx start

section

variable {Seen : Type} {see : (Text × LineKind) × Nat → Option Seen}

theorem filterMap_zipIdx_zip_of_trim_eq
    (blind : ∀ line kind number, see ((trim line, kind), number) = see ((line, kind), number))
    {Item : Type} {first second : Item → Text} {items : List Item}
    (same : ∀ item ∈ items, trim (second item) = trim (first item))
    (kinds : List LineKind) (start : Nat) :
    (((items.map second).zip kinds).zipIdx start).filterMap see =
      (((items.map first).zip kinds).zipIdx start).filterMap see := by
  induction items generalizing kinds start with
  | nil => rfl
  | cons item items inductionHypothesis =>
      cases kinds with
      | nil => rfl
      | cons kind kinds =>
          rw [List.forall_mem_cons] at same
          have here : see ((second item, kind), start) = see ((first item, kind), start) := by
            rw [← blind, same.1, blind]
          rw [List.map_cons, List.map_cons, List.zip_cons_cons, List.zip_cons_cons,
            List.zipIdx_cons, List.zipIdx_cons, List.filterMap_cons, List.filterMap_cons, here,
            inductionHypothesis same.2]

theorem filterMap_zipIdx_zip_of_isBlank
    (blind : ∀ line kind number, see ((trim line, kind), number) = see ((line, kind), number))
    (silent : ∀ kind number, see (([], kind), number) = none)
    {tail : List Text}
    (blank : ∀ line ∈ tail, ∀ c ∈ line, isBlank c = true)
    (kinds : List LineKind) (skipped start : Nat) :
    (((tail.zip kinds).drop skipped).zipIdx start).filterMap see = [] := by
  rw [List.filterMap_eq_nil_iff]
  rintro ⟨⟨line, kind⟩, number⟩ member
  have inside := List.mem_of_mem_drop (List.fst_mem_of_mem_zipIdx member)
  rw [← blind, trim_eq_nil_of_isBlank (blank line (List.of_mem_zip inside).1), silent]

/-- Whoever looks at numbered lines without regard to blanks sees the same in a text and in its
normal form. -/
theorem filterMap_numberedLines_normalizeText
    (see : (Text × LineKind) × Nat → Option Seen)
    (blind : ∀ line kind number, see ((trim line, kind), number) = see ((line, kind), number))
    (silent : ∀ kind number, see (([], kind), number) = none)
    (content : Text) (start : Nat) :
    (numberedLines (normalizeText content) start).filterMap see =
      (numberedLines content start).filterMap see := by
  obtain ⟨segments, tail, same, normal, _, blank⟩ := exists_segments content
  have whole : (lines content).zip (classify (lines content)) =
      (segments.map Segment.body).zip (classify (segments.map Segment.body)) ++
        tail.zip (classifyFrom (Carry.none.afterAll (segments.map Segment.body)) tail) := by
    rw [same, classify, classifyFrom_append, List.zip_append (length_classifyFrom _ _).symm,
      classify]
  rw [numberedLines, numberedLines, normal, classify_close_normalize, whole, List.drop_append,
    List.zipIdx_append, List.filterMap_append,
    filterMap_zipIdx_zip_of_isBlank blind silent blank, List.append_nil]
  rw [List.zip_eq_zipWith, List.zip_eq_zipWith, List.drop_zipWith, List.drop_zipWith,
    ← List.zip_eq_zipWith, ← List.zip_eq_zipWith, ← List.map_drop, ← List.map_drop]
  apply filterMap_zipIdx_zip_of_trim_eq blind
  exact fun segment _ => segment.trim_close_normalize

end

theorem findIn?_normalizeText_line
    {rule : Rule} {path : Text}
    (blind : ∀ line, rule.accepts path (trim line) = rule.accepts path line)
    (silent : rule.accepts path [] = false)
    (content : Text) (start : Nat) :
    (rule.findIn? path (normalizeText content) start).map Candidate.line =
      (rule.findIn? path content start).map Candidate.line := by
  have number : ∀ line kind number,
      (rule.candidate? path ((line, kind), number)).map Candidate.line =
        if kind = rule.kind ∧ rule.accepts path line = true then some number else none := by
    intro line kind number
    rw [Rule.candidate?, Rule.accepts]
    by_cases sameKind : kind = rule.kind
    · cases rule.edit? path line <;> simp [sameKind]
    · simp [sameKind]
  have lines_ : ∀ text, (rule.findIn? path text start).map Candidate.line =
      ((numberedLines text start).filterMap
        fun entry => (rule.candidate? path entry).map Candidate.line).head? := by
    intro text
    rw [Rule.findIn?_eq_head?, ← List.head?_map, Rule.candidatesFrom, List.map_filterMap]
    rfl
  rw [lines_, lines_, filterMap_numberedLines_normalizeText]
  · intro line kind place
    rw [number, number, blind]
  · intro kind place
    simp [number, silent]

theorem warnings_checkIncludes_normalizeText
    (projects : List Text) (tree : Tree) (path content : Text) :
    (checkIncludes projects).warnings tree ⟨path, normalizeText content⟩ =
      (checkIncludes projects).warnings tree ⟨path, content⟩ := by
  have seen : ∀ text, (checkIncludes projects).warnings tree ⟨path, text⟩ =
      (numberedLines text 0).filterMap (includeWarning? projects tree path) := fun _ => rfl
  rw [seen, seen, filterMap_numberedLines_normalizeText]
  · intro line kind number
    rw [includeWarning?, includeWarning?, includeTarget?_trim]
  · intro kind number
    cases kind <;> rfl

theorem directives_normalizeText (content : Text) :
    (directives (normalizeText content)).map Directive.trimmed =
      (directives content).map Directive.trimmed := by
  have numbered : ∀ text, (directives text).map Directive.trimmed =
      (numberedLines text 0).filterMap fun entry =>
        (if entry.1.2 = .preprocessor then Directive.ofLine? entry.1.1 else none).map
          Directive.trimmed := by
    intro text
    rw [directives, List.map_filterMap]
    conv => lhs; arg 2; rw [← List.zipIdx_map_fst 0 ((lines text).zip _)]
    rw [List.filterMap_map]
    rfl
  rw [numbered, numbered, filterMap_numberedLines_normalizeText]
  · intro line kind number
    simp only [Directive.ofLine?_trim]
    split
    · cases Directive.ofLine? line with
      | none => rfl
      | some directive => simp [Directive.trimmed]
    · rfl
  · intro kind number
    cases kind <;> rfl

theorem isGuarded_normalizeText (content : Text) :
    isGuarded (normalizeText content) = isGuarded content := by
  have once : ∀ text, (directives text).any Directive.isPragmaOnce =
      ((directives text).map Directive.trimmed).any Directive.isPragmaOnce := by
    intro text
    rw [List.any_map]
    congr 1
    funext directive
    exact directive.isPragmaOnce_trimmed.symm
  rw [isGuarded, isGuarded, once, ← opensWithGuard_map_trimmed, directives_normalizeText, ← once,
    opensWithGuard_map_trimmed]

theorem classify_normalizeText (content : Text) :
    ∃ dropped : List LineKind,
      classify (lines content) = classify (lines (normalizeText content)) ++ dropped ∧
      dropped.length = if hasBlankTail content then 1 else 0 := by
  obtain ⟨segments, tail, same, normal, one, _⟩ := exists_segments content
  refine ⟨classifyFrom (Carry.none.afterAll (segments.map Segment.body)) tail, ?_, ?_⟩
  · rw [same, normal, classify_close_normalize, classify, classifyFrom_append, classify]
  · rw [length_classifyFrom, one]

/-- Checks and rules see the same in a text and in its normal form.  An open last line of spaces
and tabs below another line is dropped, and nothing else is. -/
theorem checks_normalizeText (content : Text) :
    (lines content).length =
      (lines (normalizeText content)).length + (if hasBlankTail content then 1 else 0) ∧
    (∃ dropped : List LineKind,
      classify (lines content) = classify (lines (normalizeText content)) ++ dropped ∧
      dropped.length = if hasBlankTail content then 1 else 0) ∧
    isGuarded (normalizeText content) = isGuarded content ∧
    (∀ projects tree path,
      (checkIncludes projects).warnings tree ⟨path, normalizeText content⟩ =
        (checkIncludes projects).warnings tree ⟨path, content⟩) ∧
    (∀ marker : Text, '\n' ∉ marker → '\r' ∉ marker → '\t' ∉ marker →
      marker.head? ≠ some ' ' → marker.getLast? ≠ some ' ' →
        hasLicense marker (normalizeText content) = hasLicense marker content) ∧
    (∀ index path start,
      ((constify index).findIn? path (normalizeText content) start).map Candidate.line =
        ((constify index).findIn? path content start).map Candidate.line) ∧
    (∀ path start,
      (pruneIncludes.findIn? path (normalizeText content) start).map Candidate.line =
        (pruneIncludes.findIn? path content start).map Candidate.line) := by
  have kinds := classify_normalizeText content
  refine ⟨?_, kinds, isGuarded_normalizeText content, ?_, ?_, ?_, ?_⟩
  · obtain ⟨dropped, split, one⟩ := kinds
    rw [← length_classify, split, List.length_append, length_classify, one]
  · intro projects tree path
    exact warnings_checkIncludes_normalizeText projects tree path content
  · intro marker noNewline noReturn noTab starts ends
    exact hasLicense_normalizeText noNewline noReturn noTab starts ends content
  · intro index path start
    exact findIn?_normalizeText_line (accepts_constify_trim index path) rfl content start
  · intro path start
    exact findIn?_normalizeText_line (accepts_pruneIncludes_trim path) rfl content start

/-- A header with tabs, returns and blanks at the ends of its lines, above an open last line. -/
def blankTailHeader : Text :=
  "\t\n/* free\t\r\n\tfor all \r */ \r\n#pragma once\n\t ".toList

theorem checks_normalizeText_of_blankTailHeader :
    hasBlankTail blankTailHeader = true ∧
    normalizeText blankTailHeader =
      "\n/* free\r\n    for all \r */\r\n#pragma once\n".toList ∧
    (lines blankTailHeader).length = (lines (normalizeText blankTailHeader)).length + 1 ∧
    isGuarded (normalizeText blankTailHeader) = isGuarded blankTailHeader ∧
    hasLicense "for all".toList (normalizeText blankTailHeader) =
      hasLicense "for all".toList blankTailHeader ∧
    hasLicense "for all".toList blankTailHeader = true := by
  obtain ⟨count, _, guards, _, license, _, _⟩ := checks_normalizeText blankTailHeader
  refine ⟨by decide, by decide, count, guards, ?_, by decide +kernel⟩
  apply license <;> decide

/-- The line of blanks behind the last newline is lost. -/
theorem normalizeText_drops_blank_tail :
    lines "a\n ".toList = ["a".toList, " ".toList] ∧
    classify (lines "a\n ".toList) = [.code, .blank] ∧
    normalizeText "a\n ".toList = "a\n".toList ∧
    lines (normalizeText "a\n ".toList) = ["a".toList] ∧
    classify (lines (normalizeText "a\n ".toList)) = [.code] := by
  decide

end Upkeep
