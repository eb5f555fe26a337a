import Upkeep.Proofs.Source.Trim
import Upkeep.Proofs.Whitespace.Normal

/-!
The lines of a text and of its normal form, side by side.  Each line keeps what stands between
its margins, and only a last line of blanks that no newline ends has no counterpart.
-/

namespace Upkeep

open Unicode

/-- The characters that the normal form may take away at the end of a line. -/
def isMargin (c : Char) : Bool :=
  isSpaceOrTab c || c == '\r'

/-- What stands between the margins of a line. -/
def inner (line : Text) : Text :=
  (dropEnd isMargin line).dropWhile isMargin

theorem isMargin_of_isSpaceOrTab
    {c : Char}
    (blank : isSpaceOrTab c = true) :
    isMargin c = true := by
  rw [isMargin, blank, Bool.true_or]

theorem isBlank_of_isMargin
    {c : Char}
    (margin : isMargin c = true) :
    isBlank c = true := by
  simp only [isMargin, isSpaceOrTab, Bool.or_eq_true, beq_iff_eq] at margin
  rcases margin with (rfl | rfl) | rfl <;> decide

theorem inner_append_margin
    {margin : Text}
    (blank : ∀ c ∈ margin, isMargin c = true) (line : Text) :
    inner (line ++ margin) = inner line := by
  rw [inner, dropEnd_append_of_forall blank, inner]

theorem inner_margin_append
    {margin : Text}
    (blank : ∀ c ∈ margin, isMargin c = true) (line : Text) :
    inner (margin ++ line) = inner line := by
  rw [inner, inner, ← dropEnd_dropWhile, ← dropEnd_dropWhile, List.dropWhile_append_of_pos blank]

theorem exists_append_inner (line : Text) :
    ∃ front back, line = front ++ (inner line ++ back) ∧
      (∀ c ∈ front, isMargin c = true) ∧ ∀ c ∈ back, isMargin c = true :=
  exists_append_dropWhile_dropEnd isMargin line

theorem trim_inner (line : Text) : trim (inner line) = trim line := by
  obtain ⟨front, back, whole, marginFront, marginBack⟩ := exists_append_inner line
  conv => rhs; rw [whole]
  rw [trim_append_append_of_isBlank (fun c member => isBlank_of_isMargin (marginFront c member))
    fun c member => isBlank_of_isMargin (marginBack c member)]

theorem expandTabs_eq (line : Text) :
    ∃ tabs spaces rest, line = tabs ++ rest ∧ expandTabs line = spaces ++ rest ∧
      (∀ c ∈ tabs, isMargin c = true) ∧ ∀ c ∈ spaces, isMargin c = true := by
  fun_induction expandTabs line with
  | case1 rest inductionHypothesis =>
      obtain ⟨tabs, spaces, text, split, expanded, tabMargin, spaceMargin⟩ := inductionHypothesis
      refine ⟨'\t' :: tabs, List.replicate tabWidth ' ' ++ spaces, text, ?_, ?_, ?_, ?_⟩
      · rw [split, List.cons_append]
      · rw [expanded, List.append_assoc]
      · rw [List.forall_mem_cons]
        exact ⟨by decide, tabMargin⟩
      · rw [List.forall_mem_append]
        refine ⟨fun c member => ?_, spaceMargin⟩
        rw [List.eq_of_mem_replicate member]
        decide
  | case2 line starts => exact ⟨[], [], line, rfl, rfl, by simp, by simp⟩

theorem inner_expandTabs (line : Text) : inner (expandTabs line) = inner line := by
  obtain ⟨tabs, spaces, rest, split, expanded, tabMargin, spaceMargin⟩ := expandTabs_eq line
  rw [expanded, inner_margin_append spaceMargin]
  conv => rhs; rw [split]
  rw [inner_margin_append tabMargin]

theorem inner_normalLine (line : Text) : inner (normalLine line) = inner line := by
  rw [normalLine, inner_expandTabs, inner,
    dropEnd_dropEnd (fun _ => isMargin_of_isSpaceOrTab), inner]

namespace Segment

theorem inner_close (segment : Segment) : inner segment.close.body = inner segment.body := by
  unfold close
  split
  · rfl
  · split
    next ends =>
      obtain ⟨front, same⟩ := List.getLast?_eq_some_iff.1 ends
      rw [same, List.dropLast_concat, inner_append_margin]
      simp [isMargin]
    · rfl

/-- The normal form of a line has the same text between its margins. -/
theorem inner_close_normalize (segment : Segment) :
    inner segment.normalize.close.body = inner segment.body := by
  rw [inner_close, normalize, inner_normalLine]

theorem trimStart_close_normalize
    {segment : Segment}
    (ends : segment.body.getLast? = some ':') :
    trimStart segment.normalize.close.body = trimStart segment.body := by
  have noBlank : endsInSpaceOrTab segment.body = false :=
    endsInSpaceOrTab_of_getLast? ends (by decide)
  have normal : normalLine segment.body = expandTabs segment.body := by
    rw [normalLine, dropEnd_eq_self_iff.2 noBlank]
  have closed : segment.normalize.close.body = segment.normalize.body := by
    have noReturn : segment.normalize.body.getLast? ≠ some '\r' := by
      rw [normalize, normal, getLast?_expandTabs noBlank, ends]
      decide
    unfold close
    rw [if_neg noReturn]
    split <;> rfl
  obtain ⟨tabs, spaces, rest, split, expanded, tabMargin, spaceMargin⟩ := expandTabs_eq segment.body
  rw [closed, normalize, normal, expanded,
    trimStart_append_of_isBlank fun c member => isBlank_of_isMargin (spaceMargin c member)]
  conv => rhs; rw [split]
  rw [trimStart_append_of_isBlank fun c member => isBlank_of_isMargin (tabMargin c member)]

end Segment

theorem Segment.trim_close_normalize (segment : Segment) :
    trim segment.normalize.close.body = trim segment.body := by
  rw [← trim_inner, inner_close_normalize, trim_inner]

theorem classify_close_normalize (segments : List Segment) :
    classify (segments.map (·.normalize.close.body)) = classify (segments.map Segment.body) := by
  rw [← classify_map_trim, ← classify_map_trim (segments.map Segment.body), List.map_map,
    List.map_map]
  congr 1
  exact List.map_congr_left fun segment _ => segment.trim_close_normalize

/-- Whether the last line is one of spaces and tabs that no newline ends, below another line. -/
def hasBlankTail (content : Text) : Bool :=
  endsInSpaceOrTab content && (dropEnd isSpaceOrTab content).getLast? == some '\n'

theorem normalLine_eq_nil_iff {line : Text} :
    normalLine line = [] ↔ ∀ c ∈ line, isSpaceOrTab c = true := by
  rw [← dropEnd_eq_nil_iff, normalLine]
  constructor
  · intro empty
    unfold expandTabs at empty
    split at empty
    next rest => simp [tabWidth, List.replicate] at empty
    · exact empty
  · intro empty
    rw [empty]
    rfl

/-- What stands behind the last newline of a text. -/
theorem exists_last_line (content : Text) :
    ∃ front last, content = front ++ last ∧ (front = [] ∨ front.getLast? = some '\n') ∧
      '\n' ∉ last := by
  obtain ⟨last, split, inside⟩ := exists_append_dropEnd (· != '\n') content
  refine ⟨dropEnd (· != '\n') content, last, split, ?_, ?_⟩
  · rcases List.eq_nil_or_concat (dropEnd (· != '\n') content) with empty | ⟨front, c, ends⟩
    · exact .inl empty
    · right
      have kept : ¬ (c != '\n') = true := by
        have nonempty : content.rdropWhile (· != '\n') ≠ [] := by
          rw [← dropEnd_eq_rdropWhile, ends]
          simp
        have isLast := List.rdropWhile_last_not (· != '\n') content nonempty
        simpa [← dropEnd_eq_rdropWhile, ends] using isLast
      rw [ends, List.concat_eq_append, List.getLast?_concat]
      simpa using kept
  · intro member
    simpa using inside _ member

theorem getLast?_append_ne_newline
    {last : Text}
    (noNewline : '\n' ∉ last)
    (nonempty : last ≠ []) (front : Text) :
    (front ++ last).getLast? ≠ some '\n' := by
  rw [List.getLast?_append_of_ne_nil _ nonempty]
  intro ends
  exact noNewline (List.mem_of_getLast? ends)

/-- Blanks behind a newline are a last line of blanks, and nothing else is. -/
theorem hasBlankTail_append_iff
    {front last : Text}
    (ends : front = [] ∨ front.getLast? = some '\n')
    (noNewline : '\n' ∉ last) :
    hasBlankTail (front ++ last) = true ↔
      front.getLast? = some '\n' ∧ last ≠ [] ∧ ∀ c ∈ last, isSpaceOrTab c = true := by
  rw [hasBlankTail, Bool.and_eq_true, beq_iff_eq]
  by_cases blank : ∀ c ∈ last, isSpaceOrTab c = true
  · have solid : endsInSpaceOrTab front = false := by
      rcases ends with rfl | ends
      · rfl
      · exact endsInSpaceOrTab_of_getLast? ends (by decide)
    rw [dropEnd_append_of_forall blank, dropEnd_eq_self_iff.2 solid]
    by_cases empty : last = []
    · simp [empty, solid]
    · have blankEnd : endsInSpaceOrTab (front ++ last) = true := by
        rw [endsInSpaceOrTab, List.getLast?_append_of_ne_nil _ empty,
          List.getLast?_eq_some_getLast empty]
        exact blank _ (List.getLast_mem empty)
      simp only [blankEnd, true_and, ne_eq, empty, not_false_eq_true]
      exact (and_iff_left blank).symm
  · have kept : dropEnd isSpaceOrTab last ≠ [] := by rwa [ne_eq, dropEnd_eq_nil_iff]
    have inside : '\n' ∉ dropEnd isSpaceOrTab last :=
      fun member => noNewline ((dropEnd_isPrefix _ _).mem member)
    rw [dropEnd_append_of_ne_nil kept]
    constructor
    · intro tail
      exact absurd tail.2 (getLast?_append_ne_newline inside kept front)
    · intro tail
      exact absurd tail.2.2 blank

/-- A last line of blanks goes without a trace. -/
theorem lines_of_hasBlankTail
    {content : Text}
    (tail : hasBlankTail content = true) :
    ∃ front blanks, front.getLast? = some '\n' ∧ lines content = lines front ++ [blanks] ∧
      normalizeText content = normalizeText front ∧ ∀ c ∈ blanks, isBlank c = true := by
  obtain ⟨front, last, rfl, ends, noNewline⟩ := exists_last_line content
  obtain ⟨ends, nonempty, blank⟩ := (hasBlankTail_append_iff ends noNewline).1 tail
  have cuts : cut (front ++ last) = cut front ++ [⟨last, .endOfText⟩] := by
    rw [cut_append ends, cut_body noNewline nonempty]
  refine ⟨front, last, ends, ?_, ?_, ?_⟩
  · rw [lines_eq_map_body, cuts, List.map_append, ← lines_eq_map_body]
    rfl
  · have some_ : front ≠ [] := by
      rintro rfl
      simp at ends
    have gone : join ([⟨last, .endOfText⟩].map Segment.normalize) = [] := by
      simp [join, Segment.text, Segment.normalize, Terminator.text,
        normalLine_eq_nil_iff.2 blank]
    rw [normalizeText_eq_closeText (List.append_ne_nil_of_left_ne_nil some_ last), cuts,
      List.map_append, join_append, gone, List.append_nil, ← normalizeText_eq_closeText some_]
  · exact fun c member => isBlank_of_isMargin (isMargin_of_isSpaceOrTab (blank c member))

theorem Segment.normalize_text_eq_nil
    {segment : Segment}
    (empty : segment.normalize.text = []) :
    segment.terminator = .endOfText ∧ ∀ c ∈ segment.body, isSpaceOrTab c = true := by
  rw [text, List.append_eq_nil_iff] at empty
  refine ⟨?_, normalLine_eq_nil_iff.1 empty.1⟩
  cases terminator : segment.terminator <;>
    simp [Segment.normalize, terminator, Terminator.text] at empty ⊢

theorem cut_normalizeText
    {content : Text}
    (solid : hasBlankTail content = false) :
    cut (normalizeText content) = (cut content).map (·.normalize.close) := by
  by_cases nonempty : content = []
  · subst nonempty
    rfl
  obtain ⟨dropped, same, bodies, none_⟩ :=
    exists_cut_closeText (isCut_cut content) (by rwa [ne_eq, cut_eq_nil_iff])
  rw [← normalizeText_eq_closeText nonempty] at same
  rw [none_, List.append_nil] at same
  · exact same.symm
  intro segment member empty
  obtain ⟨open_, blank⟩ := Segment.normalize_text_eq_nil empty
  obtain ⟨front, last, rfl, ends, noNewline⟩ := exists_last_line content
  rcases ends with rfl | ends
  · -- The tail of a single line is empty.
    rw [List.nil_append] at nonempty member
    rw [cut_body noNewline nonempty] at member
    cases member
  · have closed := terminator_ne_endOfText_of_getLast? (isCut_cut front) (by rwa [join_cut])
    have inside := List.mem_of_mem_tail member
    rw [cut_append ends] at inside
    rcases List.mem_append.1 inside with above | here
    · exact closed segment above open_
    · have some_ : last ≠ [] := by
        rintro rfl
        cases here
      rw [cut_body noNewline some_] at here
      obtain rfl := List.mem_singleton.1 here
      have tail := (hasBlankTail_append_iff (.inr ends) noNewline).2 ⟨ends, some_, blank⟩
      rw [solid] at tail
      cases tail

theorem hasBlankTail_of_getLast?
    {content : Text}
    (ends : content.getLast? = some '\n') :
    hasBlankTail content = false := by
  rw [hasBlankTail, endsInSpaceOrTab_of_getLast? ends (by decide), Bool.false_and]

/-- The lines of a text and of its normal form come from the same segments, apart from a last
line of blanks. -/
theorem exists_segments (content : Text) :
    ∃ (segments : List Segment) (tail : List Text),
      lines content = segments.map Segment.body ++ tail ∧
      lines (normalizeText content) = segments.map (·.normalize.close.body) ∧
      tail.length = (if hasBlankTail content then 1 else 0) ∧
      ∀ line ∈ tail, ∀ c ∈ line, isBlank c = true := by
  have solidCase : ∀ solid : Text, hasBlankTail solid = false →
      lines (normalizeText solid) = (cut solid).map (·.normalize.close.body) := by
    intro solid noTail
    rw [lines_eq_map_body, cut_normalizeText noTail, List.map_map]
    rfl
  cases tail : hasBlankTail content with
  | false =>
      refine ⟨cut content, [], ?_, solidCase content tail, rfl, by simp⟩
      rw [lines_eq_map_body, List.append_nil]
  | true =>
      obtain ⟨front, blanks, ends, same, normal, blank⟩ := lines_of_hasBlankTail tail
      refine ⟨cut front, [blanks], ?_, ?_, rfl, by simpa using blank⟩
      · rw [same, lines_eq_map_body]
      · rw [normal, solidCase front (hasBlankTail_of_getLast? ends)]

end Upkeep
