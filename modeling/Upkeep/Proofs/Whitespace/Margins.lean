import Mathlib.Data.List.Forall2
import Upkeep.Proofs.Tree.Flat
import Upkeep.Proofs.Whitespace.Lines
import Upkeep.Whitespace.Files

/-!
What bringing a text into normal form changes.  Each line changes at its margins and nowhere else,
and a newline is put behind a text that lacks one, so that a text can be brought into normal form
part by part wherever it is cut behind a newline.
-/

namespace Upkeep

variable {content front back line tidy last : Text}

/-- What becomes of a line: the spaces and tabs at its end are lost, each tab that is then left at
its start is replaced by four spaces, and the rest is kept. -/
inductive ChangesMargins : Text → Text → Prop where
  | intro (tabs : Nat) (kept blanks : Text) :
      kept.head? ≠ some '\t' →
      endsInSpaceOrTab (List.replicate tabs '\t' ++ kept) = false →
      (∀ c ∈ blanks, isSpaceOrTab c = true) →
      ChangesMargins (List.replicate tabs '\t' ++ kept ++ blanks)
        (List.replicate (4 * tabs) ' ' ++ kept)

theorem expandTabs_replicate_append
    {kept : Text}
    (noTab : kept.head? ≠ some '\t') (tabs : Nat) :
    expandTabs (List.replicate tabs '\t' ++ kept) = List.replicate (4 * tabs) ' ' ++ kept := by
  induction tabs with
  | zero => exact expandTabs_eq_self_iff.2 noTab
  | succ tabs inductionHypothesis =>
      have spaces : 4 * (tabs + 1) = tabWidth + 4 * tabs := by
        rw [tabWidth]
        omega
      rw [List.replicate_succ, List.cons_append, expandTabs, inductionHypothesis, spaces,
        List.replicate_add, List.append_assoc]

theorem exists_tabs_append (line : Text) :
    ∃ tabs kept, line = List.replicate tabs '\t' ++ kept ∧ kept.head? ≠ some '\t' := by
  induction line with
  | nil => exact ⟨0, [], rfl, by simp⟩
  | cons c rest inductionHypothesis =>
      by_cases isTab : c = '\t'
      · obtain ⟨tabs, kept, split, noTab⟩ := inductionHypothesis
        refine ⟨tabs + 1, kept, ?_, noTab⟩
        rw [isTab, split, List.replicate_succ, List.cons_append]
      · exact ⟨0, c :: rest, rfl, by simpa using isTab⟩

theorem changesMargins_iff : ChangesMargins line tidy ↔ normalLine line = tidy := by
  constructor
  · rintro ⟨tabs, kept, blanks, noTab, noBlank, dropped⟩
    rw [normalLine, dropEnd_append_of_forall dropped, dropEnd_eq_self_iff.2 noBlank]
    exact expandTabs_replicate_append noTab tabs
  · rintro rfl
    obtain ⟨blanks, whole, dropped⟩ := exists_append_dropEnd isSpaceOrTab line
    obtain ⟨tabs, kept, split, noTab⟩ := exists_tabs_append (dropEnd isSpaceOrTab line)
    have noBlank := endsInSpaceOrTab_dropEnd line
    rw [split] at noBlank whole
    rw [normalLine, split, expandTabs_replicate_append noTab]
    conv => lhs; rw [whole]
    exact .intro tabs kept blanks noTab noBlank dropped

/-- What becomes of a line and its terminator. -/
structure Segment.ChangesMargins (segment tidy : Segment) : Prop where
  body : Upkeep.ChangesMargins segment.body tidy.body
  terminator : tidy.terminator = segment.terminator

theorem Segment.changesMargins_normalize (segment : Segment) :
    segment.ChangesMargins segment.normalize :=
  ⟨changesMargins_iff.2 rfl, rfl⟩

/-- The lines of a text in normal form, with nothing put behind them. -/
def normalLines (content : Text) : Text :=
  join ((cut content).map Segment.normalize)

theorem normalLines_append
    (ends : front.getLast? = some '\n') (back : Text) :
    normalLines (front ++ back) = normalLines front ++ normalLines back := by
  rw [normalLines, cut_append ends, List.map_append, join_append, normalLines, normalLines]

theorem normalLines_of_newline_notMem
    (noNewline : '\n' ∉ last) :
    normalLines last = normalLine last := by
  by_cases empty : last = []
  · subst empty
    rfl
  · rw [normalLines, cut_body noNewline empty]
    simp [join, Segment.normalize, Segment.text, Terminator.text]

theorem getLast?_normalLines
    (ends : content.getLast? = some '\n') :
    (normalLines content).getLast? = some '\n' := by
  have closed : ∀ segment ∈ cut content, segment.terminator ≠ .endOfText :=
    terminator_ne_endOfText_of_getLast? (isCut_cut content) (by rwa [join_cut])
  apply getLast?_join
  · intro tidy member
    obtain ⟨segment, inside, rfl⟩ := List.mem_map.1 member
    exact closed segment inside
  · intro empty
    rw [List.map_eq_nil_iff, cut_eq_nil_iff] at empty
    simp [empty] at ends

theorem normalLines_eq_nil_iff :
    normalLines content = [] ↔ ∀ c ∈ content, isSpaceOrTab c = true := by
  constructor
  · intro empty c member
    rw [← join_cut content] at member
    obtain ⟨segment, inside, here⟩ := List.mem_flatMap.1 member
    have gone : segment.normalize.text = [] :=
      List.flatMap_eq_nil_iff.1 empty _ (List.mem_map_of_mem inside)
    obtain ⟨open_, blank⟩ := Segment.normalize_text_eq_nil gone
    apply blank
    simpa [Segment.text, open_, Terminator.text] using here
  · intro blank
    have noNewline : '\n' ∉ content := by
      intro member
      exact absurd (blank _ member) (by decide)
    rw [normalLines_of_newline_notMem noNewline]
    exact normalLine_eq_nil_iff.2 blank

/-- The newline that is put behind a text that has lines and does not end in a newline, unless its
last line is one of spaces and tabs below another one, of which nothing is left. -/
def missingNewline (content : Text) : Text :=
  if content = [] ∨ content.getLast? = some '\n' ∨ hasBlankTail content = true then []
  else ['\n']

theorem getLast?_normalLines_iff (content : Text) :
    (normalLines content).getLast? = some '\n' ↔
      content.getLast? = some '\n' ∨ hasBlankTail content = true := by
  obtain ⟨front, last, rfl, ends, noNewline⟩ := exists_last_line content
  have split : normalLines (front ++ last) = normalLines front ++ normalLine last := by
    rw [← normalLines_of_newline_notMem noNewline]
    rcases ends with rfl | ends
    · rfl
    · exact normalLines_append ends last
  have open_ : last ≠ [] → (front ++ last).getLast? ≠ some '\n' :=
    fun nonempty => getLast?_append_ne_newline noNewline nonempty front
  have first : (normalLines front).getLast? = some '\n' ↔ front.getLast? = some '\n' := by
    rcases ends with rfl | ends
    · rfl
    · exact iff_of_true (getLast?_normalLines ends) ends
  rw [hasBlankTail_append_iff ends noNewline, split]
  by_cases blank : ∀ c ∈ last, isSpaceOrTab c = true
  · rw [normalLine_eq_nil_iff.2 blank, List.append_nil, first]
    by_cases empty : last = []
    · simp [empty]
    · simp only [open_ empty, false_or]
      exact (and_iff_left ⟨empty, blank⟩).symm
  · have nonempty : last ≠ [] := by
      rintro rfl
      simp at blank
    have keptLine : normalLine last ≠ [] := by rwa [ne_eq, normalLine_eq_nil_iff]
    have noEnd := getLast?_append_ne_newline (newline_notMem_normalLine noNewline) keptLine
      (normalLines front)
    refine iff_of_false noEnd ?_
    rintro (ended | tail)
    · exact open_ nonempty ended
    · exact blank tail.2.2

theorem normalizeText_eq_append (content : Text) :
    normalizeText content = normalLines content ++ missingNewline content := by
  by_cases empty : content = []
  · subst empty
    rfl
  · rw [normalizeText_eq_closeText empty, ← normalLines, closeText, missingNewline]
    simp only [getLast?_normalLines_iff, empty, false_or]
    split
    · rw [List.append_nil]
    · rfl

/-- A text without its spaces and tabs. -/
def solidPart (text : Text) : Text :=
  text.filter (!isSpaceOrTab ·)

theorem solidPart_append (front back : Text) :
    solidPart (front ++ back) = solidPart front ++ solidPart back :=
  List.filter_append front back

theorem solidPart_eq_nil_iff :
    solidPart content = [] ↔ ∀ c ∈ content, isSpaceOrTab c = true := by
  simp [solidPart]

theorem solidPart_expandTabs (line : Text) : solidPart (expandTabs line) = solidPart line := by
  fun_induction expandTabs line with
  | case1 rest inductionHypothesis =>
      have tab : solidPart ('\t' :: rest) = solidPart rest := rfl
      have spaces : solidPart (List.replicate tabWidth ' ') = [] := rfl
      rw [solidPart_append, spaces, List.nil_append, inductionHypothesis, tab]
  | case2 line starts => rfl

theorem solidPart_normalLine (line : Text) : solidPart (normalLine line) = solidPart line := by
  obtain ⟨blanks, whole, dropped⟩ := exists_append_dropEnd isSpaceOrTab line
  rw [normalLine, solidPart_expandTabs]
  conv => rhs; rw [whole]
  rw [solidPart_append, solidPart_eq_nil_iff.2 dropped, List.append_nil]

theorem solidPart_normalLines (content : Text) :
    solidPart (normalLines content) = solidPart content := by
  have each : ∀ segment : Segment, solidPart segment.normalize.text = solidPart segment.text := by
    intro segment
    rw [Segment.text, solidPart_append, Segment.normalize, solidPart_normalLine, Segment.text,
      solidPart_append]
  have whole : solidPart (join (cut content)) = solidPart content := by rw [join_cut]
  rw [normalLines, ← whole, join, join, List.flatMap_map, solidPart, solidPart, List.filter_flatMap,
    List.filter_flatMap]
  exact List.flatMap_congr fun segment _ => each segment

theorem solidPart_normalizeText (content : Text) :
    solidPart (normalizeText content) = solidPart content ++ missingNewline content := by
  have newline : solidPart (missingNewline content) = missingNewline content := by
    unfold missingNewline
    split <;> rfl
  rw [normalizeText_eq_append, solidPart_append, solidPart_normalLines, newline]

/-- Behind a newline the normal form goes on with that of what follows, unless that is blank. -/
theorem normalizeText_append
    (ends : front.getLast? = some '\n') (back : Text) :
    normalizeText (front ++ back) =
      normalizeText front ++ if back.all isSpaceOrTab then [] else normalizeText back := by
  have some_ : front ≠ [] := by
    rintro rfl
    simp at ends
  have closed : closeText (normalLines front) = normalLines front := by
    rw [closeText, if_pos (getLast?_normalLines ends)]
  have whole : normalizeText (front ++ back) =
      closeText (normalLines front ++ normalLines back) := by
    rw [← normalLines_append ends]
    exact normalizeText_eq_closeText (List.append_ne_nil_of_left_ne_nil some_ back)
  have first : normalizeText front = normalLines front :=
    (normalizeText_eq_closeText some_).trans closed
  rw [whole, first]
  split
  next blank =>
    have gone : normalLines back = [] := normalLines_eq_nil_iff.2 (List.all_eq_true.1 blank)
    rw [gone, List.append_nil, closed]
  next solid =>
    have nonempty : back ≠ [] := by
      rintro rfl
      exact solid rfl
    have kept : normalLines back ≠ [] :=
      fun gone => solid (List.all_eq_true.2 (normalLines_eq_nil_iff.1 gone))
    rw [closeText_append kept, normalizeText_eq_closeText nonempty, normalLines, normalLines]

theorem tidyFile_eq_unchanged_iff
    {tree left : Tree} {path : Text} {file : SourceFile}
    (read : SourceFile.read tree path = .ok file) :
    tidyFile tree path = .ok (false, left) ↔
      normalizeText file.content = file.content ∧ left = tree := by
  simp only [tidyFile, read]
  split
  next same => simp [same, eq_comm]
  next changed =>
    refine iff_of_false ?_ fun unchanged => changed unchanged.1
    cases (file.replaceContent (normalizeText file.content)).write tree <;> simp

/-- Bringing a text into normal form changes the margins of its lines and nothing else. -/
theorem normalizeText_changes_margins (content : Text) :
    (∃ segments tidy,
      content = join segments ∧ IsCut segments ∧
      List.Forall₂ Segment.ChangesMargins segments tidy ∧
      normalizeText content = join tidy ++ missingNewline content) ∧
    solidPart (normalizeText content) = solidPart content ++ missingNewline content ∧
    (∀ front back, content = front ++ back → front.getLast? = some '\n' →
      normalizeText content = normalizeText front ++
        if back.all isSpaceOrTab then [] else normalizeText back) ∧
    ∀ tree path file, SourceFile.read tree path = .ok file → file.content = content →
      ∀ left, tidyFile tree path = .ok (false, left) ↔
        normalizeText content = content ∧ left = tree := by
  refine ⟨?_, solidPart_normalizeText content, ?_, ?_⟩
  · refine ⟨cut content, (cut content).map Segment.normalize, (join_cut content).symm,
      isCut_cut content, ?_, normalizeText_eq_append content⟩
    rw [List.forall₂_map_right_iff, List.forall₂_same]
    exact fun segment _ => segment.changesMargins_normalize
  · rintro front back rfl ends
    exact normalizeText_append ends back
  · rintro tree path file read rfl left
    exact tidyFile_eq_unchanged_iff read

/-- Two lines with tabs and blanks, of which the last is open. -/
def raggedText : Text :=
  "\tint a; \r\n \tint b;\t".toList

theorem normalizeText_changes_margins_of_raggedText :
    normalizeText raggedText =
      normalizeText "\tint a; \r\n".toList ++ normalizeText " \tint b;\t".toList ∧
    solidPart (normalizeText raggedText) = "inta;\r\nintb;\n".toList ∧
    ∀ left, tidyFile (.ofTexts [("a.cpp".toList, raggedText)]) "a.cpp".toList ≠
      .ok (false, left) := by
  obtain ⟨_, solid, parts, reported⟩ := normalizeText_changes_margins raggedText
  have joined := parts "\tint a; \r\n".toList " \tint b;\t".toList rfl (by decide)
  rw [if_neg (by decide)] at joined
  have read : SourceFile.read (.ofTexts [("a.cpp".toList, raggedText)]) "a.cpp".toList =
      .ok ⟨"a.cpp".toList, raggedText⟩ :=
    Tree.read_ofTexts (by decide) (by decide) (by decide) (by decide)
  refine ⟨joined, ?_, ?_⟩
  · rw [solid]
    decide
  · intro left unchanged
    have same := ((reported _ _ _ read rfl left).1 unchanged).1
    exact absurd same (by decide)

/-- No newline is put behind blanks that follow the last one, although the text does not end in a
newline, and a newline is put behind them when they stand alone. -/
theorem normalizeText_append_blanks :
    normalizeText "a\n ".toList = "a\n".toList ∧
    normalizeText "a\n".toList ++ normalizeText " ".toList = "a\n\n".toList ∧
    ¬ ∀ front back : Text, front.getLast? = some '\n' →
      normalizeText (front ++ back) = normalizeText front ++ normalizeText back := by
  refine ⟨by decide, by decide, ?_⟩
  intro additive
  exact absurd (additive "a\n".toList " ".toList (by decide)) (by decide)

end Upkeep
