import Mathlib.Data.List.Infix
import Upkeep.Proofs.Source.Comment
import Upkeep.Proofs.Source.Head
import Upkeep.Proofs.Text.Occurrence

/-!
Lines that declare a record: a keyword, macros, a name, `final`, a base clause, and then the body,
a semicolon or the end of the line.  Their parts decide what the scanner finds on them.
-/

namespace Upkeep

open Unicode

/-- The keywords of records. -/
def recordWords : List (Text × DeclarationKind) :=
  [("class".toList, .classType), ("struct".toList, .structType), ("union".toList, .unionType)]

/-- What can stand behind the colon of a base clause, up to the body or a semicolon.  The word
`enum` with a blank behind it can stand in it only in front of a mark, such as the bracket that
closes the arguments of a template; names that have these letters in them can stand anywhere. -/
structure IsBaseClause (text : Text) : Prop where
  oneColon : text.head? ≠ some ':'
  inside : ∀ c ∈ text, c ≠ '{' ∧ c ≠ ';'
  uncommented : codeOf text = text
  enumsClosed : ∀ front blank back, text = front ++ ("enum".toList ++ blank :: back) →
    (∀ c ∈ front.getLast?, isWord c = false) → isBlank blank = true →
      ∃ mark ∈ back, isUnderlyingTypeChar mark = false

/-- A line that declares a record, by its parts. -/
structure RecordLine where
  indent : Text
  keyword : Text
  kind : DeclarationKind
  gap : Text
  macros : List (Text × Text)
  name : Text
  /-- The blanks in front of `final`, if it is there. -/
  finalGap : Option Text
  spacing : Text
  bases : Option Text
  ends : Text
  blankIndent : ∀ c ∈ indent, isBlank c = true
  isRecordWord : (keyword, kind) ∈ recordWords
  isGap : IsGap gap
  areMacros : ∀ entry ∈ macros, isMacroWord entry.1 = true ∧ IsGap entry.2
  isIdent : IsIdent name
  notEnum : name ≠ "enum".toList
  isFinalGap : ∀ gap ∈ finalGap, IsGap gap
  blankSpacing : ∀ c ∈ spacing, isBlank c = true
  isBaseClause : ∀ text ∈ bases, IsBaseClause text
  isEnd : opensOrEnds ends = true

namespace RecordLine

/-- The word `final` with the blanks in front of it. -/
def finalText (line : RecordLine) : Text :=
  match line.finalGap with
  | none => []
  | some gap => gap ++ "final".toList

/-- A line with the given text behind the name and `final`, from the keyword on. -/
def headBefore (line : RecordLine) (stop : Text) : Text :=
  line.keyword ++ (line.gap ++ (macroText line.macros ++
    (line.name ++ (line.finalText ++ (line.spacing ++ stop)))))

/-- The base clause with its colon. -/
def baseText (line : RecordLine) : Text :=
  match line.bases with
  | none => []
  | some bases => ':' :: bases

/-- The base clause and what ends the head. -/
def stopText (line : RecordLine) : Text :=
  line.baseText ++ line.ends

def text (line : RecordLine) : Text :=
  line.indent ++ line.headBefore line.stopText

/-- Whether the line breaks off behind the colon of a base clause. -/
def breaksOff (line : RecordLine) : Bool :=
  line.bases == some [] && line.ends == []

/-- The name under which the record is found.  A name that could be a macro is taken for one in
front of `final`. -/
def foundName (line : RecordLine) : Text :=
  if line.finalGap.isSome && isMacroWord line.name then "final".toList else line.name

end RecordLine

variable {text rest word gap front : Text} {barrier : Char → Bool}

/-- A text that ends in its only mark, a colon. -/
def EndsAtColon (text : Text) : Prop :=
  ∃ front, text = front ++ [':'] ∧ ∀ c ∈ front, isWord c = true ∨ isBlank c = true

theorem EndsAtColon.of_isSuffix
    (ends : EndsAtColon text)
    (suffix : rest <:+ text)
    (nonempty : rest ≠ []) :
    EndsAtColon rest := by
  obtain ⟨front, rfl, inside⟩ := ends
  rcases List.suffix_concat_iff.1 suffix with rfl | ⟨tail, rfl, shorter⟩
  · exact absurd rfl nonempty
  · exact ⟨tail, by simp, fun c member => inside c (shorter.mem member)⟩

theorem EndsAtColon.dropWhile
    {skip : Char → Bool}
    (ends : EndsAtColon text)
    (stops : skip ':' = false) :
    EndsAtColon (text.dropWhile skip) := by
  refine ends.of_isSuffix (List.dropWhile_suffix skip) ?_
  rw [ne_eq, List.dropWhile_eq_nil_iff]
  intro all
  obtain ⟨front, rfl, _⟩ := ends
  simp [all ':' (by simp)] at stops

theorem EndsAtColon.opensBaseOrEnds
    (ends : EndsAtColon text)
    (solid : trimStart text = text) :
    opensBaseOrEnds text = false := by
  obtain ⟨front, rfl, inside⟩ := ends
  cases front with
  | nil => rfl
  | cons c front =>
      have notBlank := isBlank_eq_false_of_trimStart_cons solid
      have inWord : isWord c = true := by
        simpa [notBlank] using inside c (by simp)
      have notColon : c ≠ ':' := by rintro rfl; revert inWord; decide
      have notEnd : c ≠ ';' := by rintro rfl; revert inWord; decide
      have notOpen : c ≠ '{' := by rintro rfl; revert inWord; decide
      rw [List.cons_append, opensBaseOrEnds_of_ne_colon notColon]
      simp [Upkeep.opensOrEnds, notEnd, notOpen]

/-- Behind a colon at the end of the line no base clause is seen. -/
theorem EndsAtColon.endsRecordHead
    (ends : EndsAtColon text) :
    endsRecordHead text = false := by
  have trimmed : EndsAtColon (trimStart text) := ends.dropWhile (by decide)
  rw [endsRecordHead_eq]
  split
  · have behind : EndsAtColon (afterWord (trimStart text)) := trimmed.dropWhile (by decide)
    have trimmedBehind : EndsAtColon (trimStart (afterWord (trimStart text))) :=
      behind.dropWhile (by decide)
    exact trimmedBehind.opensBaseOrEnds (trimStart_trimStart _)
  · exact trimmed.opensBaseOrEnds (trimStart_trimStart text)

theorem EndsAtColon.of_append_isGap
    (ends : EndsAtColon (front ++ (gap ++ rest)))
    (isGap : IsGap gap) :
    EndsAtColon rest := by
  refine ends.of_isSuffix ⟨front ++ gap, by simp⟩ ?_
  rintro rfl
  obtain ⟨start, same, _⟩ := ends
  have last := congrArg List.getLast? same
  rw [List.append_nil, List.getLast?_append_of_ne_nil _ isGap.1, List.getLast?_concat] at last
  have colon : ':' ∈ gap := List.mem_of_getLast? last
  exact absurd (isGap.2 ':' colon) (by decide)

theorem EndsAtColon.nameAfterMacros?
    (ends : EndsAtColon text) :
    nameAfterMacros? Upkeep.endsRecordHead text = none := by
  refine nameAfterMacros?_eq_none ?_ ?_ ends
  · intro text rest ends read
    unfold macro? at read
    split at read
    · simp at read
    next c tail =>
      split at read
      · obtain ⟨gap, behind, isGap⟩ := gap?_split read
        have split : (c :: tail).takeWhile isMacroChar ++ (gap ++ rest) = c :: tail := by
          rw [← behind, List.takeWhile_append_dropWhile]
        rw [← split] at ends
        exact ends.of_append_isGap isGap
      · simp at read
  · intro text name rest ends read
    have behind : rest = afterWord text := by
      obtain ⟨rfl, isIdent, ended⟩ := ident?_sound read
      rw [afterWord_append isIdent.isWord ended]
    have endsBehind : EndsAtColon (afterWord text) := ends.dropWhile (by decide)
    rw [behind, endsBehind.endsRecordHead]

theorem EndsAtColon.recordHead?
    (ends : EndsAtColon text) :
    recordHead? text = none := by
  have each : ∀ word rest, keyword? word text = some rest →
      Upkeep.nameAfterMacros? Upkeep.endsRecordHead rest = none := by
    intro word rest read
    obtain ⟨gap, rfl, isGap⟩ := keyword?_split read
    exact (ends.of_append_isGap isGap).nameAfterMacros?
  rw [Upkeep.recordHead?, List.findSome?_eq_none_iff]
  rintro ⟨word, kind⟩ _
  rw [Option.bind_eq_none_iff]
  intro rest read
  rw [each _ rest read, Option.map_none]

theorem isIdent_of_mem_recordWords : ∀ entry ∈ recordWords, IsIdent entry.1 := by
  decide

theorem findSome?_eq_of_mem
    {Item Result : Type} {items : List Item} {item : Item} {find? : Item → Option Result}
    (member : item ∈ items)
    (others : ∀ other ∈ items, other ≠ item → find? other = none) :
    items.findSome? find? = find? item := by
  induction items with
  | nil => simp at member
  | cons first items inductionHypothesis =>
      rw [List.forall_mem_cons] at others
      rw [List.findSome?_cons]
      by_cases isFirst : first = item
      · subst isFirst
        cases found : find? first with
        | some result => rfl
        | none =>
            rw [List.findSome?_eq_none_iff]
            intro other isOther
            by_cases same : other = first
            · rw [same, found]
            · exact others.2 other isOther same
      · have later : item ∈ items := (List.mem_cons.1 member).resolve_left (Ne.symm isFirst)
        rw [others.1 isFirst]
        exact inductionHypothesis later others.2

theorem recordHead?_eq (text : Text) :
    recordHead? text = recordWords.findSome? fun entry =>
      (keyword? entry.1 text).bind fun rest =>
        (nameAfterMacros? endsRecordHead rest).map fun name => (entry.2, name) :=
  rfl

/-- The keyword of a record is read with the gap behind it, and then the name. -/
theorem recordHead?_append
    {kind : DeclarationKind}
    (isRecordWord : (word, kind) ∈ recordWords)
    (isGap : IsGap gap)
    (solid : trimStart rest = rest) :
    recordHead? (word ++ (gap ++ rest)) =
      (nameAfterMacros? endsRecordHead rest).map fun name => (kind, name) := by
  have read := keyword?_complete isGap word rest
  rw [solid] at read
  have isIdent : IsIdent word := isIdent_of_mem_recordWords _ isRecordWord
  have distinct : ∀ first ∈ recordWords, ∀ second ∈ recordWords,
      first.1 = second.1 → first = second := by
    decide
  rw [recordHead?_eq, findSome?_eq_of_mem isRecordWord, read, Option.bind_some]
  intro other isOther different
  have unread : keyword? other.1 (word ++ (gap ++ rest)) = none := by
    apply keyword?_eq_none_of_firstWord (isIdent_of_mem_recordWords other isOther).isWord
    rw [firstWord_append isIdent.isWord (isGap.endsWord_append rest)]
    intro same
    exact different (distinct other isOther _ isRecordWord same.symm)
  rw [unread, Option.bind_none]

/-- What ends a head or follows the colon of its base clause. -/
def StopsHead (text : Text) : Prop :=
  ∀ c ∈ text.head?, c = ':' ∨ c = ';' ∨ c = '{'

theorem StopsHead.endsWord
    (stops : StopsHead text) :
    EndsWord text := by
  intro c first
  rcases stops c first with rfl | rfl | rfl <;> decide

theorem StopsHead.trimStart
    (stops : StopsHead text) :
    trimStart text = text := by
  apply trimStart_eq_self
  intro c first
  rcases stops c first with rfl | rfl | rfl <;> decide

theorem StopsHead.ident
    (stops : StopsHead text) :
    ∀ c ∈ text.head?, isIdentStart c = false := by
  intro c first
  rcases stops c first with rfl | rfl | rfl <;> decide

theorem stopsHead_of_opensOrEnds
    (ends : opensOrEnds text = true) :
    StopsHead text := by
  intro c first
  cases text with
  | nil => simp at first
  | cons d rest =>
      obtain rfl : d = c := by simpa using first
      simp only [Upkeep.opensOrEnds, Bool.or_eq_true, beq_iff_eq] at ends
      exact .inr ends

theorem StopsHead.endsRecordHead
    {spacing : Text}
    (stops : StopsHead text)
    (opens : opensBaseOrEnds text = true)
    (blank : ∀ c ∈ spacing, isBlank c = true) :
    endsRecordHead (spacing ++ text) = true := by
  have noLetters : ∀ c ∈ ([] : Text), isWord c = true := by simp
  have noWord : firstWord text = [] := firstWord_append noLetters stops.endsWord
  rw [endsRecordHead_eq, trimStart_append_of_isBlank blank, stops.trimStart, noWord,
    if_neg (by decide), opens]

namespace RecordLine

variable {stop : Text} (line : RecordLine)

theorem endsWord_finalText_append
    (ended : EndsWord rest) :
    EndsWord (line.finalText ++ (line.spacing ++ rest)) := by
  cases gapIs : line.finalGap with
  | none =>
      simp only [finalText, gapIs, List.nil_append]
      exact endsWord_append_of_isBlank line.blankSpacing ended
  | some gap =>
      simp only [finalText, gapIs, List.append_assoc]
      exact (line.isFinalGap gap gapIs).endsWord_append _

/-- The name is found behind the macros, if the base clause or the end is seen. -/
theorem nameAfterMacros?_name_append
    (stops : StopsHead stop)
    (opens : opensBaseOrEnds stop = true) :
    nameAfterMacros? endsRecordHead (line.name ++ (line.finalText ++ (line.spacing ++ stop))) =
      some line.foundName := by
  have ended : EndsWord (line.spacing ++ stop) :=
    endsWord_append_of_isBlank line.blankSpacing stops.endsWord
  have accepted := stops.endsRecordHead opens line.blankSpacing
  rw [nameAfterMacros?_append endsRecordHead line.isIdent
    (line.endsWord_finalText_append stops.endsWord)]
  cases gapIs : line.finalGap with
  | none =>
      have noName : (gap? (line.spacing ++ stop)).bind (nameAfterMacros? endsRecordHead) = none := by
        rw [Option.bind_eq_none_iff]
        intro rest read
        rw [eq_trimStart_of_gap? read, trimStart_append_of_isBlank line.blankSpacing,
          stops.trimStart]
        exact nameAfterMacros?_eq_none_of_head? stops.ident
      simp only [finalText, foundName, gapIs, List.nil_append, accepted, if_true, Option.isSome_none,
        Bool.false_and, Bool.false_eq_true, if_false]
      split
      · rw [noName, Option.none_or]
      · rfl
  | some gap =>
      -- The word `final` is read as a name of its own where the name is taken for a macro.
      have isGap := line.isFinalGap gap gapIs
      have isFinal : IsIdent "final".toList := by decide
      have solid := isFinal.trimStart_append (line.spacing ++ stop)
      have final : nameAfterMacros? endsRecordHead ("final".toList ++ (line.spacing ++ stop)) =
          some "final".toList := by
        rw [nameAfterMacros?_append endsRecordHead isFinal ended, if_neg (by decide), accepted]
        rfl
      have whole : endsRecordHead (gap ++ ("final".toList ++ (line.spacing ++ stop))) = true := by
        rw [endsRecordHead_eq, trimStart_append_of_isBlank isGap.2, solid,
          firstWord_append isFinal.isWord ended, if_pos rfl,
          afterWord_append isFinal.isWord ended, trimStart_append_of_isBlank line.blankSpacing,
          stops.trimStart, opens]
      simp only [finalText, foundName, gapIs, List.append_assoc, gap?_complete isGap, solid, whole,
        if_true, Option.isSome_some, Bool.true_and]
      split
      · rw [Option.bind_some, final, Option.some_or]
      · rfl

theorem isIdent_keyword : IsIdent line.keyword :=
  isIdent_of_mem_recordWords _ line.isRecordWord

theorem firstWord_headBefore (stop : Text) : firstWord (line.headBefore stop) = line.keyword :=
  firstWord_append line.isIdent_keyword.isWord (line.isGap.endsWord_append _)

theorem keyword?_headBefore
    (isIdent : IsIdent word)
    (other : ∀ entry ∈ recordWords, entry.1 ≠ word) (stop : Text) :
    keyword? word (line.headBefore stop) = none := by
  apply keyword?_eq_none_of_firstWord isIdent.isWord
  rw [firstWord_headBefore]
  exact other _ line.isRecordWord

/-- The head of the line is read from its keyword on. -/
theorem recordHead?_headBefore
    (stops : StopsHead stop)
    (opens : opensBaseOrEnds stop = true) :
    recordHead? (line.headBefore stop) = some (line.kind, line.foundName) := by
  have solid := line.isIdent.trimStart_append (line.finalText ++ (line.spacing ++ stop))
  have read := nameAfterMacros?_macroText_append line.areMacros solid
    (line.nameAfterMacros?_name_append stops opens)
  rw [headBefore, recordHead?_append line.isRecordWord line.isGap
    (trimStart_macroText_append line.areMacros solid), read, Option.map_some]

end RecordLine

/-- No enumeration is read at the start of a word of a base clause. -/
theorem IsBaseClause.enumHead?
    {bases ends front tail : Text}
    (isBaseClause : IsBaseClause bases)
    (isEnd : opensOrEnds ends = true)
    (split : bases = front ++ tail)
    (starts : ∀ c ∈ front.getLast?, isWord c = false) :
    enumHead? (tail ++ ends) = none := by
  have stops := stopsHead_of_opensOrEnds isEnd
  have apart : ∀ c ∈ ends.head?, c ∉ "enum".toList := by
    intro c first
    rcases stops c first with rfl | rfl | rfl <;> decide
  have ofKeyword (unread : keyword? "enum".toList (tail ++ ends) = none) :
      Upkeep.enumHead? (tail ++ ends) = none := by
    rw [Upkeep.enumHead?, unread, Option.bind_none]
  cases word : after? "enum".toList tail with
  | none =>
      apply ofKeyword
      rw [keyword?, after?_append apart, word, Option.map_none, Option.bind_none]
  | some behind =>
      by_cases solid : ∀ c ∈ (behind ++ ends).head?, isBlank c = false
      · -- The letters are the start of a longer name, or a mark follows them.
        apply ofKeyword
        rw [keyword?, after?_append apart, word, Option.map_some, Option.bind_some,
          gap?_eq_none solid]
      · cases behind with
        | nil =>
            refine absurd (fun c first => ?_) solid
            rcases stops c first with rfl | rfl | rfl <;> decide
        | cons blank back =>
            have isBlank : isBlank blank = true := by simpa using solid
            rw [after?_eq_some_iff] at word
            subst word
            obtain ⟨mark, within, isMark⟩ :=
              isBaseClause.enumsClosed front blank back split starts isBlank
            have left : back.dropWhile isUnderlyingTypeChar ≠ [] := by
              rw [ne_eq, List.dropWhile_eq_nil_iff]
              intro all
              simp [all mark within] at isMark
            obtain ⟨c, more, first⟩ := List.exists_cons_of_ne_nil left
            have inside := isBaseClause.inside c (by
              have member : c ∈ back :=
                (List.dropWhile_sublist isUnderlyingTypeChar).mem (by rw [first]; simp)
              simp [split, member])
            have stuck : IsStuck (back ++ ends) := by
              rw [IsStuck, List.dropWhile_append, first]
              simp [opensOrEnds, inside]
            have passed : ∀ c ∈ "enum".toList ++ [blank], isUnderlyingTypeChar c = true := by
              rw [List.forall_mem_append, List.forall_mem_singleton]
              exact ⟨List.all_eq_true.1 (by decide), isUnderlyingTypeChar_of_isBlank isBlank⟩
            have whole : ("enum".toList ++ blank :: back) ++ ends =
                ("enum".toList ++ [blank]) ++ (back ++ ends) := by
              simp
            rw [whole]
            exact ((isStuck_append_iff passed).2 stuck).enumHead?

theorem enumHead?_eq_none_of_isBlank
    {c : Char}
    (blank : isBlank c = true) (rest : Text) :
    enumHead? (c :: rest) = none := by
  apply enumHead?_eq_none_of_head?
  rintro same
  obtain rfl : c = 'e' := by simpa using same
  revert blank
  decide

theorem findHead?_enum_append_of_isBlank
    {blanks : Text}
    (blank : ∀ c ∈ blanks, isBlank c = true)
    (absent : ∀ inWord, findHead? barrier enumHead? inWord rest = none) (inWord : Bool) :
    findHead? barrier enumHead? inWord (blanks ++ rest) = none := by
  refine findHead?_append_eq_none ?_ absent inWord
  intro tail nonempty suffix
  cases tail with
  | nil => exact absurd rfl nonempty
  | cons c tail => exact enumHead?_eq_none_of_isBlank (blank c (suffix.mem (by simp))) _

theorem findHead?_enum_append_of_ne
    (inside : ∀ c ∈ word, isWord c = true)
    (ended : EndsWord rest)
    (other : word ≠ "enum".toList)
    (absent : ∀ inWord, findHead? barrier enumHead? inWord rest = none) (inWord : Bool) :
    findHead? barrier enumHead? inWord (word ++ rest) = none :=
  findHead?_word_append_eq_none inside (enumHead?_word_append_eq_none inside ended other) absent
    inWord

theorem findHead?_enum_macroText_append
    {macros : List (Text × Text)}
    (areMacros : ∀ entry ∈ macros, isMacroWord entry.1 = true ∧ IsGap entry.2)
    (absent : ∀ inWord, findHead? barrier enumHead? inWord rest = none) (inWord : Bool) :
    findHead? barrier enumHead? inWord (macroText macros ++ rest) = none := by
  induction macros generalizing inWord with
  | nil => exact absent inWord
  | cons entry macros inductionHypothesis =>
      rw [List.forall_mem_cons] at areMacros
      obtain ⟨⟨isMacro, isGap⟩, areMacros⟩ := areMacros
      have split : macroText (entry :: macros) ++ rest =
          entry.1 ++ (entry.2 ++ (macroText macros ++ rest)) := by
        simp [macroText]
      rw [split]
      refine findHead?_enum_append_of_ne (isIdent_of_isMacroWord isMacro).isWord
        (isGap.endsWord_append _) ?_ ?_ inWord
      · intro same
        rw [same] at isMacro
        revert isMacro
        decide
      · exact findHead?_enum_append_of_isBlank isGap.2 (inductionHypothesis areMacros)

namespace RecordLine

variable (line : RecordLine)

theorem stopsHead_stopText : StopsHead line.stopText := by
  unfold stopText baseText
  cases line.bases with
  | none => exact stopsHead_of_opensOrEnds line.isEnd
  | some bases => simp [StopsHead]

/-- The end of the head holds no enumeration. -/
theorem findHead?_enum_stopText
    (stops : barrier ';' = true ∧ barrier '{' = true) (inWord : Bool) :
    findHead? barrier enumHead? inWord line.stopText = none := by
  have noHead : enumHead? line.ends = none := by
    apply enumHead?_eq_none_of_head?
    intro first
    rcases stopsHead_of_opensOrEnds line.isEnd 'e' first with isE | isE | isE <;>
      exact absurd isE (by decide)
  have atEnd : ∀ inWord, findHead? barrier enumHead? inWord line.ends = none :=
    findHead?_eq_none_of_opensOrEnds line.isEnd stops noHead
  unfold stopText baseText
  cases basesIs : line.bases with
  | none => exact atEnd inWord
  | some bases =>
      have isBaseClause := line.isBaseClause bases basesIs
      change findHead? barrier enumHead? inWord ((':' :: bases) ++ line.ends) = none
      refine findHead?_append_eq_none_of_starts inWord ?_ atEnd
      intro before tail nonempty split starts
      rcases List.cons_eq_append_iff.1 split with ⟨rfl, rfl⟩ | ⟨front, rfl, within⟩
      · exact enumHead?_eq_none_of_head? (by simp)
      · refine isBaseClause.enumHead? line.isEnd within fun c last => ?_
        have lastOfAll : c ∈ (':' :: front).getLast? := List.mem_getLast?_cons last
        simpa [Option.mem_def.1 lastOfAll] using starts

/-- The whole line holds no enumeration. -/
theorem findHead?_enum_headBefore
    (stops : barrier ';' = true ∧ barrier '{' = true) :
    findHead? barrier enumHead? false (line.headBefore line.stopText) = none := by
  have ended := line.stopsHead_stopText.endsWord
  have atSpacing := findHead?_enum_append_of_isBlank line.blankSpacing
    (line.findHead?_enum_stopText stops)
  have atFinal : ∀ inWord, findHead? barrier enumHead? inWord
      (line.finalText ++ (line.spacing ++ line.stopText)) = none := by
    unfold finalText
    cases gapIs : line.finalGap with
    | none => exact atSpacing
    | some gap =>
        intro inWord
        rw [List.append_assoc]
        refine findHead?_enum_append_of_isBlank (line.isFinalGap gap gapIs).2 ?_ inWord
        have isFinal : IsIdent "final".toList := by decide
        exact findHead?_enum_append_of_ne isFinal.isWord
          (endsWord_append_of_isBlank line.blankSpacing ended) (by decide) atSpacing
  have atName := findHead?_enum_append_of_ne line.isIdent.isWord
    (line.endsWord_finalText_append ended) line.notEnum atFinal
  have atGap := findHead?_enum_append_of_isBlank line.isGap.2
    (findHead?_enum_macroText_append line.areMacros atName)
  have notEnum : line.keyword ≠ "enum".toList := by
    have all : ∀ entry ∈ recordWords, entry.1 ≠ "enum".toList := by decide
    exact all _ line.isRecordWord
  exact findHead?_enum_append_of_ne line.isIdent_keyword.isWord (line.isGap.endsWord_append _) notEnum
    atGap false

/-- What is in front of the end of a broken off line are words and blanks. -/
theorem endsAtColon_headBefore : EndsAtColon (line.headBefore [':']) := by
  have blanks : ∀ {text : Text}, (∀ c ∈ text, isBlank c = true) →
      ∀ c ∈ text, isWord c = true ∨ isBlank c = true :=
    fun blank c member => .inr (blank c member)
  have words_ : ∀ {text : Text}, (∀ c ∈ text, isWord c = true) →
      ∀ c ∈ text, isWord c = true ∨ isBlank c = true :=
    fun inside c member => .inl (inside c member)
  refine ⟨line.keyword ++ (line.gap ++ (macroText line.macros ++
    (line.name ++ (line.finalText ++ line.spacing)))), by simp [headBefore], ?_⟩
  simp only [List.forall_mem_append]
  refine ⟨words_ line.isIdent_keyword.isWord, blanks line.isGap.2, ?_, words_ line.isIdent.isWord, ?_,
    blanks line.blankSpacing⟩
  · intro c member
    obtain ⟨entry, isEntry, inside⟩ := List.mem_flatMap.1 member
    obtain ⟨isMacro, isGap⟩ := line.areMacros entry isEntry
    rcases List.mem_append.1 inside with inWord | inGap
    · exact .inl ((isIdent_of_isMacroWord isMacro).isWord c inWord)
    · exact .inr (isGap.2 c inGap)
  · unfold finalText
    cases gapIs : line.finalGap with
    | none => simp
    | some gap =>
        have isFinal : IsIdent "final".toList := by decide
        rw [List.forall_mem_append]
        exact ⟨blanks (line.isFinalGap gap gapIs).2, words_ isFinal.isWord⟩

theorem trimStart_text : trimStart line.text = line.headBefore line.stopText := by
  rw [text, trimStart_append_of_isBlank line.blankIndent]
  exact line.isIdent_keyword.trimStart_append _

/-- Unless the line breaks off, something other than a second colon follows the first. -/
theorem opensBaseOrEnds_stopText
    (goesOn : line.breaksOff = false) :
    opensBaseOrEnds line.stopText = true := by
  unfold stopText baseText
  cases basesIs : line.bases with
  | none =>
      have isEnd := line.isEnd
      dsimp only [List.nil_append]
      cases endsIs : line.ends with
      | nil => rfl
      | cons c rest =>
          rw [endsIs] at isEnd
          rwa [opensBaseOrEnds_of_ne_colon]
          rintro rfl
          simp [opensOrEnds] at isEnd
  | some bases =>
      have oneColon := (line.isBaseClause bases basesIs).oneColon
      dsimp only
      cases bases with
      | nil =>
          have isEnd := line.isEnd
          cases endsIs : line.ends with
          | nil => simp [breaksOff, basesIs, endsIs] at goesOn
          | cons c rest =>
              rw [endsIs] at isEnd
              have notColon : c ≠ ':' := by
                rintro rfl
                simp [opensOrEnds] at isEnd
              simpa [opensBaseOrEnds] using notColon
      | cons c rest =>
          have notColon : c ≠ ':' := by simpa using oneColon
          simpa [opensBaseOrEnds] using notColon

/-- What a record line declares, by its parts. -/
theorem declaredBy_text :
    declaredBy line.text = if line.breaksOff then [] else [(line.kind, line.foundName)] := by
  have noKeyword : ∀ word : Text, IsIdent word → (∀ entry ∈ recordWords, entry.1 ≠ word) →
      keyword? word (line.headBefore line.stopText) = none :=
    fun word isIdent other => line.keyword?_headBefore isIdent other _
  have noScope : scopeNames? (line.headBefore line.stopText) = none := by
    rw [scopeNames?_eq, scopesAt?, noKeyword _ (by decide) (by decide),
      noKeyword _ (by decide) (by decide)]
    rfl
  have noAlias : usingName? (line.headBefore line.stopText) = none := by
    rw [usingName?, noKeyword _ (by decide) (by decide), Option.bind_none]
  have noTypedef : typedefName? (line.headBefore line.stopText) = none := by
    rw [typedefName?, noKeyword _ (by decide) (by decide), Option.bind_none]
  have noEnum : typeNames enumHead? (line.headBefore line.stopText) = none := by
    rw [typeNames, Option.map_eq_none_iff]
    exact line.findHead?_enum_headBefore (by decide)
  have forms : declaredBy line.text =
      (typeNames recordHead? (line.headBefore line.stopText)).getD [] := by
    simp only [declaredBy, line.trimStart_text, noScope, noAlias, noTypedef, noEnum,
      Option.map_none, Option.none_or]
  rw [forms, typeNames]
  cases broken : line.breaksOff with
  | true =>
      obtain ⟨basesAre, endsAre⟩ : line.bases = some [] ∧ line.ends = [] := by
        simpa [breaksOff] using broken
      have stop : line.stopText = [':'] := by simp [stopText, baseText, basesAre, endsAre]
      rw [stop, findHead?_eq_none fun tail nonempty suffix =>
        (line.endsAtColon_headBefore.of_isSuffix suffix nonempty).recordHead?]
      rfl
  | false =>
      have read := line.recordHead?_headBefore line.stopsHead_stopText
        (line.opensBaseOrEnds_stopText broken)
      have nonempty : line.headBefore line.stopText ≠ [] := by
        intro empty
        rw [empty, recordHead?_nil] at read
        simp at read
      rw [findHead?_of_head? read nonempty]
      rfl

theorem quiet_front :
    ∀ c ∈ line.indent ++ line.headBefore [], isQuote c = false ∧ c ≠ '/' := by
  obtain ⟨front, same, inside⟩ := line.endsAtColon_headBefore
  have front_eq : line.headBefore [] = front := by
    have whole : line.headBefore [':'] = line.headBefore [] ++ [':'] := by simp [headBefore]
    exact List.append_cancel_right (whole.symm.trans same)
  have quietBlank : ∀ c, isBlank c = true → isQuote c = false ∧ c ≠ '/' := fun c blank =>
    ⟨isQuote_eq_false_of_isBlank blank, ne_of_isBlank blank (by decide)⟩
  rw [front_eq, List.forall_mem_append]
  refine ⟨fun c member => quietBlank c (line.blankIndent c member), fun c member => ?_⟩
  rcases inside c member with inWord | blank
  · have marks : ∀ mark : Char, isWord mark = false → c ≠ mark := by
      rintro mark outside rfl
      simp [inWord] at outside
    exact ⟨by simp [isQuote, marks '"' (by decide), marks '\'' (by decide)],
      marks '/' (by decide)⟩
  · exact quietBlank c blank

/-- The code of a record line is a record line with the same parts up to its end. -/
theorem exists_codeOf_text :
    ∃ (ends : Text) (isEnd : opensOrEnds ends = true), (ends = [] ↔ line.ends = []) ∧
      codeOf line.text = { line with ends := ends, isEnd := isEnd }.text := by
  have whole : codeFrom none line.baseText = line.baseText := by
    unfold baseText
    cases basesIs : line.bases with
    | none => rfl
    | some bases =>
        have quietColon : ∀ c ∈ [':'], isQuote c = false ∧ c ≠ '/' := by
          rw [List.forall_mem_singleton]
          decide
        have code := codeOf_append_of_forall quietColon bases
        rw [(line.isBaseClause bases basesIs).uncommented] at code
        exact code
  have noSlash : ∀ c ∈ line.ends.head?, c ≠ '/' := by
    intro c first
    rcases stopsHead_of_opensOrEnds line.isEnd c first with rfl | rfl | rfl <;> decide
  obtain ⟨kept, code, first⟩ := exists_codeFrom_append whole noSlash
  have isEnd : opensOrEnds kept = true := by
    have same : opensOrEnds kept = opensOrEnds line.ends := by
      cases kept <;> cases endsIs : line.ends <;> simp_all [opensOrEnds]
    rw [same, line.isEnd]
  refine ⟨kept, isEnd, ?_, ?_⟩
  · rw [← List.head?_eq_none_iff, first, List.head?_eq_none_iff]
  · have split : line.text = (line.indent ++ line.headBefore []) ++ (line.baseText ++ line.ends) := by
      simp [text, headBefore, stopText]
    rw [split, codeOf_append_of_forall line.quiet_front, codeOf, code]
    simp [text, headBefore, stopText, baseText, finalText]

theorem declaredBy_codeOf_text :
    declaredBy (codeOf line.text) =
      if line.breaksOff then [] else [(line.kind, line.foundName)] := by
  obtain ⟨ends, isEnd, empty, code⟩ := line.exists_codeOf_text
  have broken : RecordLine.breaksOff { line with ends := ends, isEnd := isEnd } =
      line.breaksOff := by
    rw [Bool.eq_iff_iff]
    simp [breaksOff, empty]
  rw [code, declaredBy_text, broken]
  rfl

end RecordLine

/-- A text of one line of code that begins no template is scanned by what the line declares. -/
theorem scan_of_single_line
    (oneLine : '\n' ∉ text)
    (isCode : kindByStart text = .code)
    (noTemplate : opensTemplate (codeOf text) = false) :
    scan text = (declaredBy (codeOf text)).map fun found => ⟨found.2, found.1, 0⟩ := by
  have nonempty : text ≠ [] := by
    rintro rfl
    simp [kindByStart] at isCode
  have single : lines text = [text] := by
    rw [lines_eq_map_body, cut_body oneLine nonempty]
    rfl
  have kinds : classify [text] = [.code] := by
    simp [classify, classifyFrom, Carry.kind, Carry.none, isCode]
  simp [scan, single, kinds, declarationsFrom, noTemplate]

/-- A record line alone is found to declare one record, of the kind and on the line where it stands.
It has the name that is written there, but for a name in upper case in front of `final`; and it is
missed if the line breaks off behind the colon of the base clause. -/
theorem scan_recordLine
    (line : RecordLine)
    (oneLine : '\n' ∉ line.text) :
    scan line.text =
      if line.breaksOff then [] else [⟨line.foundName, line.kind, 0⟩] := by
  have starts : ∀ entry ∈ recordWords, entry.1.head? ≠ some '/' ∧ entry.1.head? ≠ some '#' ∧
      entry.1.head? ≠ none ∧ entry.1.head? ≠ some 't' := by decide
  have first : (line.headBefore line.stopText).head? = line.keyword.head? := by
    rw [RecordLine.headBefore, List.head?_append_of_ne_nil]
    rintro empty
    exact (starts _ line.isRecordWord).2.2.1 (by simp [empty])
  obtain ⟨notSlash, notSign, notEmpty, notT⟩ := starts _ line.isRecordWord
  dsimp only at notSlash notSign notEmpty notT
  rw [← first] at notSlash notSign notEmpty notT
  have isCode : kindByStart line.text = .code := by
    cases head : line.headBefore line.stopText with
    | nil => simp [head] at notEmpty
    | cons c rest =>
        simp only [head, List.head?_cons, ne_eq, Option.some.injEq] at notSlash notSign
        rw [kindByStart_of_trimStart (line.trimStart_text.trans head) notSlash, if_neg notSign]
  have noTemplate : opensTemplate (codeOf line.text) = false := by
    rw [opensTemplate, trimStart_codeOf, line.trimStart_text, Option.isSome_eq_false_iff,
      Option.isNone_iff_eq_none, Option.eq_none_iff_forall_ne_some]
    intro rest read
    rw [after?_eq_some_iff] at read
    obtain ⟨hidden, whole⟩ := codeFrom_isPrefix none (line.headBefore line.stopText)
    rw [← codeOf, read] at whole
    exact notT (by rw [← whole]; rfl)
  rw [scan_of_single_line oneLine isCode noTemplate, line.declaredBy_codeOf_text]
  split <;> rfl

/-- Two bases, with an enumeration among the arguments of one and the letters of the keyword in the
names of the other. -/
def enumeratedBase : Text :=
  " public Base<enum Color>, private Renumber::enum_traits ".toList

theorem isBaseClause_enumeratedBase : IsBaseClause enumeratedBase where
  oneColon := by decide
  inside := by
    have all : enumeratedBase.all (fun c => c != '{' && c != ';') = true := by decide
    simpa using all
  uncommented := by decide
  enumsClosed := by
    have closed : ∀ tail ∈ enumeratedBase.tails,
        ((keyword? "enum".toList tail).all fun back =>
          back.any fun c => !isUnderlyingTypeChar c) = true := by
      decide +kernel
    intro front blank back split _ isBlank
    have here := closed ("enum".toList ++ blank :: back)
      ((List.mem_tails _ _).2 ⟨front, split.symm⟩)
    rw [keyword?, after?_self_append, Option.bind_some, gap?, if_pos isBlank, Option.all_some,
      List.any_eq_true] at here
    obtain ⟨mark, member, isMark⟩ := here
    exact ⟨mark, (List.dropWhile_sublist _).mem member, by simpa using isMark⟩

def exportedWidget : RecordLine where
  indent := "  ".toList
  keyword := "class".toList
  kind := .classType
  gap := " ".toList
  macros := [("UI_API".toList, "\t".toList)]
  name := "WIDGET".toList
  finalGap := none
  spacing := " ".toList
  bases := some enumeratedBase
  ends := "\x7b // the widget".toList
  blankIndent := List.all_eq_true.1 (by decide)
  isRecordWord := by decide
  isGap := by decide
  areMacros := by
    rw [List.forall_mem_singleton]
    exact ⟨by decide, by decide⟩
  isIdent := by decide
  notEnum := by decide
  isFinalGap := by simp
  blankSpacing := List.all_eq_true.1 (by decide)
  isBaseClause := by
    rintro bases ⟨⟩
    exact isBaseClause_enumeratedBase
  isEnd := by decide

theorem scan_recordLine_of_exportedWidget :
    scan exportedWidget.text = [⟨"WIDGET".toList, .classType, 0⟩] :=
  scan_recordLine exportedWidget (by decide +kernel)

/-- A class that is final and named in upper case. -/
def finalWidget : RecordLine :=
  { exportedWidget with
    indent := []
    macros := []
    finalGap := some " ".toList
    bases := none
    ends := "\x7b".toList
    blankIndent := by simp
    areMacros := by simp
    isFinalGap := by
      rintro gap ⟨⟩
      decide
    isBaseClause := by simp
    isEnd := by decide }

/-- A class whose bases follow on the next line. -/
def brokenOffWidget : RecordLine :=
  { exportedWidget with
    indent := []
    macros := []
    bases := some []
    ends := []
    blankIndent := by simp
    areMacros := by simp
    isBaseClause := by
      rintro bases ⟨⟩
      exact ⟨by decide, by simp, by decide, by simp⟩
    isEnd := by decide }

/-- The word `final` is indexed in place of a name in upper case, and a class whose bases follow on
the next line is not indexed at all. -/
theorem scan_misreads_final_and_colon :
    finalWidget.text = "class WIDGET final \x7b".toList ∧
    scan finalWidget.text = [⟨"final".toList, .classType, 0⟩] ∧
    brokenOffWidget.text = "class WIDGET :".toList ∧
    scan brokenOffWidget.text = [] := by
  decide +kernel

end Upkeep
