import Upkeep.Proofs.Text.Cut
import Upkeep.Proofs.Text.Trim
import Upkeep.Whitespace.Basic

/-!
How stable the normal form of a text is.  A return that stands behind the last
blanks of a line is text at first; once the blanks are gone, it belongs to the
terminator, and blanks in front of it stand at the end of the line.  Only then is
the normal form not yet normal, and a second time it always is.
-/

namespace Upkeep

def endsInSpaceOrTab (line : Text) : Bool :=
  line.getLast?.any isSpaceOrTab

/-- Whether a line neither begins with a tab nor ends with a space or a tab. -/
def IsNormalLine (line : Text) : Prop :=
  line.head? ≠ some '\t' ∧ endsInSpaceOrTab line = false

theorem isNormalLine_nil : IsNormalLine [] := by
  simp [IsNormalLine, endsInSpaceOrTab]

theorem endsInSpaceOrTab_of_getLast?
    {line : Text} {c : Char}
    (ends : line.getLast? = some c)
    (solid : isSpaceOrTab c = false) :
    endsInSpaceOrTab line = false := by
  rw [endsInSpaceOrTab, ends, Option.any_some, solid]

theorem dropEnd_eq_self_iff {line : Text} :
    dropEnd isSpaceOrTab line = line ↔ endsInSpaceOrTab line = false := by
  rw [dropEnd_eq_rdropWhile]
  rcases List.eq_nil_or_concat line with rfl | ⟨front, last, rfl⟩
  · simp [endsInSpaceOrTab]
  · simp [endsInSpaceOrTab, List.rdropWhile_eq_self_iff]

@[simp]
theorem endsInSpaceOrTab_dropEnd (line : Text) :
    endsInSpaceOrTab (dropEnd isSpaceOrTab line) = false := by
  rw [← dropEnd_eq_self_iff, dropEnd_eq_rdropWhile, dropEnd_eq_rdropWhile,
    List.rdropWhile_idempotent]

theorem head?_expandTabs_ne (line : Text) : (expandTabs line).head? ≠ some '\t' := by
  fun_induction expandTabs line with
  | case1 rest inductionHypothesis => simp [tabWidth, List.replicate]
  | case2 line noTab =>
      intro starts
      obtain ⟨rest, rfl⟩ := List.head?_eq_some_iff.1 starts
      exact noTab rest rfl

theorem expandTabs_eq_self_iff {line : Text} :
    expandTabs line = line ↔ line.head? ≠ some '\t' := by
  constructor
  · intro same
    rw [← same]
    exact head?_expandTabs_ne line
  · intro noTab
    unfold expandTabs
    split
    next rest => simp at noTab
    · rfl

/-- A line ends as before when its leading tabs are expanded, unless it ends in one. -/
theorem expandTabs_concat
    {c : Char}
    (noTab : c ≠ '\t') (front : Text) :
    expandTabs (front ++ [c]) = expandTabs front ++ [c] := by
  fun_induction expandTabs front with
  | case1 rest inductionHypothesis =>
      rw [List.cons_append, expandTabs, inductionHypothesis, List.append_assoc]
  | case2 front starts =>
      rw [expandTabs_eq_self_iff]
      cases front with
      | nil => simpa using noTab
      | cons d front =>
          simp only [List.cons_append, List.head?_cons, ne_eq, Option.some.injEq]
          rintro rfl
          exact starts front rfl

@[simp]
theorem endsInSpaceOrTab_expandTabs (line : Text) :
    endsInSpaceOrTab (expandTabs line) = endsInSpaceOrTab line := by
  fun_induction expandTabs line with
  | case1 rest inductionHypothesis =>
      cases rest with
      | nil => decide
      | cons c rest =>
          have nonempty : expandTabs (c :: rest) ≠ [] := by
            unfold expandTabs
            split <;> simp [tabWidth, List.replicate]
          unfold endsInSpaceOrTab at inductionHypothesis ⊢
          rw [List.getLast?_append_of_ne_nil _ nonempty, inductionHypothesis, List.getLast?_cons_cons]
  | case2 line starts => rfl

theorem normalLine_eq_self_iff {line : Text} : normalLine line = line ↔ IsNormalLine line := by
  constructor
  · intro same
    unfold normalLine at same
    refine ⟨?_, ?_⟩
    · rw [← same]
      exact head?_expandTabs_ne _
    · rw [← same]
      simp
  · rintro ⟨noTab, noBlank⟩
    rw [normalLine, dropEnd_eq_self_iff.2 noBlank, expandTabs_eq_self_iff.2 noTab]

theorem isNormalLine_normalLine (line : Text) : IsNormalLine (normalLine line) :=
  ⟨head?_expandTabs_ne _, by simp [normalLine]⟩

theorem mem_expandTabs
    {line : Text} {c : Char}
    (member : c ∈ expandTabs line) :
    c = ' ' ∨ c ∈ line := by
  fun_induction expandTabs line with
  | case1 rest inductionHypothesis =>
      rcases List.mem_append.1 member with space | later
      · exact .inl (List.eq_of_mem_replicate space)
      · exact (inductionHypothesis later).imp_right (List.mem_cons_of_mem _)
  | case2 line starts => exact .inr member

theorem newline_notMem_normalLine
    {line : Text}
    (noNewline : '\n' ∉ line) :
    '\n' ∉ normalLine line := by
  intro member
  rcases mem_expandTabs member with space | kept
  · exact absurd space (by decide)
  · exact noNewline ((dropEnd_isPrefix _ _).mem kept)

/-- A segment as it is read when a newline follows it, if it has none. -/
def Segment.close (segment : Segment) : Segment :=
  if segment.terminator = .returnNewline then segment
  else if segment.body.getLast? = some '\r' then ⟨segment.body.dropLast, .returnNewline⟩
  else ⟨segment.body, .newline⟩

theorem Segment.text_close (segment : Segment) :
    segment.close.text =
      if segment.terminator = .endOfText then segment.body ++ ['\n'] else segment.text := by
  obtain ⟨body, terminator⟩ := segment
  unfold close
  by_cases ends : body.getLast? = some '\r'
  · obtain ⟨front, rfl⟩ := List.getLast?_eq_some_iff.1 ends
    cases terminator <;> simp [text, Terminator.text]
  · cases terminator <;> simp [text, Terminator.text, ends]

theorem Segment.cut_close_append
    {segment : Segment}
    (noNewline : '\n' ∉ segment.body) (rest : Text) :
    cut (segment.close.text ++ rest) = segment.close :: cut rest := by
  obtain ⟨body, terminator⟩ := segment
  unfold close
  split
  next returns =>
    cases returns
    simpa [text, Terminator.text] using cut_body_returnNewline noNewline rest
  next noReturn =>
    split
    next ends =>
      obtain ⟨front, rfl⟩ := List.getLast?_eq_some_iff.1 ends
      simp only [List.mem_append, not_or] at noNewline
      simpa [text, Terminator.text] using cut_body_returnNewline noNewline.1 rest
    next ends => simpa [text, Terminator.text] using cut_body_newline noNewline ends rest

/-- A text with a newline at its end. -/
def closeText (text : Text) : Text :=
  if text.getLast? = some '\n' then text else text ++ ['\n']

theorem normalizeText_eq_closeText
    {content : Text}
    (nonempty : content ≠ []) :
    normalizeText content = closeText (join ((cut content).map Segment.normalize)) := by
  rw [normalizeText, if_neg nonempty]
  rfl

theorem closeText_append
    {front back : Text}
    (nonempty : back ≠ []) :
    closeText (front ++ back) = front ++ closeText back := by
  unfold closeText
  rw [List.getLast?_append_of_ne_nil _ nonempty]
  split
  · rfl
  · rw [List.append_assoc]

@[simp]
theorem getLast?_closeText (text : Text) : (closeText text).getLast? = some '\n' := by
  unfold closeText
  split
  next ends => exact ends
  · simp

theorem Segment.closeText_text
    {segment : Segment}
    (noNewline : '\n' ∉ segment.body) :
    closeText segment.text = segment.close.text := by
  obtain ⟨body, terminator⟩ := segment
  rw [text_close]
  cases terminator with
  | newline => simp [closeText, text, Terminator.text]
  | returnNewline => simp [closeText, text, Terminator.text]
  | endOfText =>
      have open_ : body.getLast? ≠ some '\n' := fun ends => noNewline (List.mem_of_getLast? ends)
      simp [closeText, text, Terminator.text, open_]

/-- The normal form of a text has the normal forms of its segments, each closed.  Blanks
after the last newline leave nothing behind. -/
theorem exists_cut_closeText
    {segments : List Segment}
    (isCut : IsCut segments)
    (nonempty : segments ≠ []) :
    ∃ dropped, segments.map (·.normalize.close) =
        cut (closeText (join (segments.map Segment.normalize))) ++ dropped ∧
      (∀ segment ∈ dropped, segment.body = []) ∧
      ((∀ segment ∈ segments.tail, segment.normalize.text ≠ []) → dropped = []) := by
  induction segments with
  | nil => exact absurd rfl nonempty
  | cons segment rest inductionHypothesis =>
      obtain ⟨proper, last, restCut⟩ := isCut
      have noNewline : '\n' ∉ segment.normalize.body := newline_notMem_normalLine proper.1
      have joined : join ((segment :: rest).map Segment.normalize) =
          segment.normalize.text ++ join (rest.map Segment.normalize) := rfl
      rw [joined]
      by_cases empty : join (rest.map Segment.normalize) = []
      · have noText : ∀ other ∈ rest, other.normalize.body = [] ∧ other.terminator = .endOfText := by
          intro other member
          have text := List.flatMap_eq_nil_iff.1 empty _ (List.mem_map_of_mem member)
          obtain ⟨noBody, noTerminator⟩ := List.append_eq_nil_iff.1 text
          refine ⟨noBody, ?_⟩
          cases terminator : other.terminator <;>
            simp [Segment.normalize, terminator, Terminator.text] at noTerminator ⊢
        refine ⟨rest.map (·.normalize.close), ?_, ?_, ?_⟩
        · have alone := Segment.cut_close_append noNewline []
          rw [List.append_nil] at alone
          rw [empty, List.append_nil, Segment.closeText_text noNewline, alone]
          rfl
        · intro closed member
          obtain ⟨other, inside, rfl⟩ := List.mem_map.1 member
          unfold Segment.close
          split
          · exact (noText other inside).1
          · split <;> simp [(noText other inside).1]
        · intro kept
          cases rest with
          | nil => rfl
          | cons other rest =>
              have text := List.flatMap_eq_nil_iff.1 empty other.normalize
                (List.mem_map_of_mem List.mem_cons_self)
              exact absurd text (kept other List.mem_cons_self)
      · have more : rest ≠ [] := by
          rintro rfl
          exact empty rfl
        have closed : segment.normalize.terminator ≠ .endOfText := fun open_ => more (last open_)
        obtain ⟨dropped, same, bodies, none_⟩ := inductionHypothesis restCut more
        refine ⟨dropped, ?_, bodies, fun kept =>
          none_ fun other member => kept other (List.mem_of_mem_tail member)⟩
        have text : segment.normalize.close.text = segment.normalize.text := by
          rw [Segment.text_close, if_neg closed]
        rw [closeText_append empty, ← text, Segment.cut_close_append noNewline, List.map_cons, same,
          List.cons_append]

theorem getLast?_normalizeText
    {content : Text}
    (nonempty : content ≠ []) :
    (normalizeText content).getLast? = some '\n' := by
  rw [normalizeText_eq_closeText nonempty, getLast?_closeText]

theorem exists_cut_normalizeText (content : Text) :
    ∃ dropped, (cut content).map (·.normalize.close) = cut (normalizeText content) ++ dropped ∧
      (∀ segment ∈ dropped, segment.body = []) ∧
      (content.getLast? = some '\n' → dropped = []) := by
  by_cases nonempty : content = []
  · subst nonempty
    exact ⟨[], rfl, by simp, fun _ => rfl⟩
  · obtain ⟨dropped, same, bodies, none_⟩ :=
      exists_cut_closeText (isCut_cut content) (by rwa [ne_eq, cut_eq_nil_iff])
    rw [← normalizeText_eq_closeText nonempty] at same
    refine ⟨dropped, same, bodies, fun ends => none_ fun segment member => ?_⟩
    have closed := terminator_ne_endOfText_of_getLast? (isCut_cut content) (by rwa [join_cut])
      segment (List.mem_of_mem_tail member)
    cases terminator : segment.terminator <;>
      simp_all [Segment.text, Segment.normalize, Terminator.text]

theorem forall_lines_normalizeText_iff (content : Text) :
    (∀ line ∈ lines (normalizeText content), IsNormalLine line) ↔
      ∀ segment ∈ cut content, IsNormalLine segment.normalize.close.body := by
  obtain ⟨dropped, same, bodies, _⟩ := exists_cut_normalizeText content
  have all : (∀ segment ∈ cut content, IsNormalLine segment.normalize.close.body) ↔
      ∀ segment ∈ cut (normalizeText content) ++ dropped, IsNormalLine segment.body := by
    rw [← same, List.forall_mem_map]
  rw [all, lines_eq_map_body, List.forall_mem_map, List.forall_mem_append]
  constructor
  · intro normal
    refine ⟨normal, fun segment member => ?_⟩
    rw [bodies segment member]
    exact isNormalLine_nil
  · exact fun normal => normal.1

theorem Segment.Proper.close_normalize_eq_self_iff
    {segment : Segment}
    (proper : segment.Proper)
    (closed : segment.terminator ≠ .endOfText) :
    segment.normalize.close = segment ↔ IsNormalLine segment.body := by
  rw [← normalLine_eq_self_iff]
  obtain ⟨body, terminator⟩ := segment
  cases terminator with
  | endOfText => exact absurd rfl closed
  | returnNewline => simp [Segment.close, Segment.normalize]
  | newline =>
      constructor
      · intro same
        unfold Segment.close at same
        rw [if_neg (by simp [Segment.normalize])] at same
        split at same
        · simp at same
        · exact congrArg Segment.body same
      · intro normal
        have ends : body.getLast? ≠ some '\r' := proper.2
        simp [Segment.close, Segment.normalize, normal, ends]

/-- Nothing is changed in a closed text exactly if all its lines are normal. -/
theorem normalizeText_eq_self_iff
    {text : Text}
    (ends : text.getLast? = some '\n') :
    normalizeText text = text ↔ ∀ line ∈ lines text, IsNormalLine line := by
  obtain ⟨dropped, same, _, none_⟩ := exists_cut_normalizeText text
  rw [none_ ends, List.append_nil] at same
  have closed : ∀ segment ∈ cut text, segment.terminator ≠ .endOfText :=
    terminator_ne_endOfText_of_getLast? (isCut_cut text) (by rwa [join_cut])
  have cuts : normalizeText text = text ↔ cut (normalizeText text) = cut text := by
    constructor
    · exact congrArg cut
    · intro sameCut
      rw [← join_cut (normalizeText text), sameCut, join_cut]
  have segments : (cut text).map (·.normalize.close) = cut text ↔
      ∀ segment ∈ cut text, segment.normalize.close = segment := by
    conv_lhs => rhs; rw [← List.map_id (cut text)]
    exact List.map_inj_left
  rw [cuts, ← same, segments, lines_eq_map_body, List.forall_mem_map]
  constructor
  · intro fixed segment member
    have proper := (isCut_cut text).proper_of_mem member
    exact (proper.close_normalize_eq_self_iff (closed segment member)).1 (fixed segment member)
  · intro normal segment member
    have proper := (isCut_cut text).proper_of_mem member
    exact (proper.close_normalize_eq_self_iff (closed segment member)).2 (normal segment member)

/-- Whether blanks in front of a return at the end of a line hide behind it: more blanks
follow the return, or the end of the text, so that it is not part of the terminator. -/
def Segment.hidesBlank (segment : Segment) : Bool :=
  let kept := dropEnd isSpaceOrTab segment.body
  segment.terminator != .returnNewline && kept.getLast? == some '\r' &&
    endsInSpaceOrTab kept.dropLast

theorem getLast?_expandTabs
    {line : Text}
    (noBlank : endsInSpaceOrTab line = false) :
    (expandTabs line).getLast? = line.getLast? := by
  rcases List.eq_nil_or_concat line with rfl | ⟨front, last, rfl⟩
  · rfl
  · rw [List.concat_eq_append] at noBlank ⊢
    have noTab : last ≠ '\t' := by
      rintro rfl
      simp [endsInSpaceOrTab, isSpaceOrTab] at noBlank
    rw [expandTabs_concat noTab, List.getLast?_concat, List.getLast?_concat]

theorem Segment.isNormalLine_close_iff (segment : Segment) :
    IsNormalLine segment.normalize.close.body ↔ segment.hidesBlank = false := by
  obtain ⟨body, terminator⟩ := segment
  have last : (normalLine body).getLast? = (dropEnd isSpaceOrTab body).getLast? :=
    getLast?_expandTabs (endsInSpaceOrTab_dropEnd body)
  by_cases returns : terminator = .returnNewline
  · subst returns
    simp [Segment.close, Segment.normalize, hidesBlank, isNormalLine_normalLine]
  by_cases ends : (dropEnd isSpaceOrTab body).getLast? = some '\r'
  · obtain ⟨front, kept⟩ := List.getLast?_eq_some_iff.1 ends
    have normal : normalLine body = expandTabs front ++ ['\r'] := by
      rw [normalLine, kept, expandTabs_concat (by decide)]
    simp [Segment.close, Segment.normalize, hidesBlank, returns, normal, kept, IsNormalLine,
      head?_expandTabs_ne]
  · rw [← last] at ends
    simp [Segment.close, Segment.normalize, hidesBlank, returns, ends, ← last,
      isNormalLine_normalLine]

/-- A closed segment hides no blank once it is normal. -/
theorem Segment.hidesBlank_close_normalize (segment : Segment) :
    segment.normalize.close.hidesBlank = false := by
  obtain ⟨body, terminator⟩ := segment
  by_cases returns : terminator = .returnNewline
  · subst returns
    simp [Segment.close, Segment.normalize, hidesBlank]
  by_cases ends : (normalLine body).getLast? = some '\r'
  · simp [Segment.close, Segment.normalize, hidesBlank, returns, ends]
  · have kept := dropEnd_eq_self_iff.2 (isNormalLine_normalLine body).2
    simp [Segment.close, Segment.normalize, hidesBlank, returns, ends, kept]

theorem isNormalLine_normalizeText_iff (content : Text) :
    (∀ line ∈ lines (normalizeText content), IsNormalLine line) ↔
      ∀ segment ∈ cut content, segment.hidesBlank = false :=
  (forall_lines_normalizeText_iff content).trans
    (forall₂_congr fun segment _ => segment.isNormalLine_close_iff)

theorem normalizeText_normalizeText_iff (content : Text) :
    normalizeText (normalizeText content) = normalizeText content ↔
      ∀ segment ∈ cut content, segment.hidesBlank = false := by
  by_cases nonempty : content = []
  · subst nonempty
    simp [normalizeText, cut]
  · rw [normalizeText_eq_self_iff (getLast?_normalizeText nonempty),
      isNormalLine_normalizeText_iff]

/-- The normal form of a text is normal exactly if no line of the text hides a blank
behind a return, and its own normal form always is. -/
theorem normalizeText_idempotent_iff (content : Text) :
    (normalizeText (normalizeText content) = normalizeText content ↔
      ∀ segment ∈ cut content, segment.hidesBlank = false) ∧
    ((∀ line ∈ lines (normalizeText content), IsNormalLine line) ↔
      ∀ segment ∈ cut content, segment.hidesBlank = false) ∧
    normalizeText (normalizeText (normalizeText content)) =
      normalizeText (normalizeText content) := by
  refine ⟨normalizeText_normalizeText_iff content, isNormalLine_normalizeText_iff content, ?_⟩
  rw [normalizeText_normalizeText_iff]
  intro segment member
  obtain ⟨dropped, same, _⟩ := exists_cut_normalizeText content
  have normal : segment ∈ (cut content).map (·.normalize.close) := by
    rw [same]
    exact List.mem_append_left _ member
  obtain ⟨origin, _, rfl⟩ := List.mem_map.1 normal
  exact origin.hidesBlank_close_normalize

/-- A blank in front of an open return comes to stand at the end of a line, and is gone
only the second time. -/
theorem normalizeText_blank_before_return :
    normalizeText "a \r".toList = "a \r\n".toList ∧
    lines (normalizeText "a \r".toList) = ["a ".toList] ∧
    normalizeText (normalizeText "a \r".toList) ≠ normalizeText "a \r".toList := by
  decide

end Upkeep
