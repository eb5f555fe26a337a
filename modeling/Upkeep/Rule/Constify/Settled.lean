import Upkeep.Rule.Constify.Proposal

/-!
A line into which `const` has been put is never proposed again, whatever the
index.  The inserted word stands before the initializer and is a word of its
own: only blanks and specifiers precede it, and a space follows.
-/

namespace Upkeep

open Unicode

/-- A character of a lead-in: nothing that opens a literal, a comment or an
initializer. -/
def isPlain (c : Char) : Bool :=
  !isQuote c && c != '/' && c != '='

/-- Whether a text is empty or ends in a blank. -/
def EndsBlank (text : Text) : Prop :=
  text = [] ∨ ∃ front blank, text = front ++ [blank] ∧ isBlank blank = true

/-- A text before which nothing is pending: plain characters, closed by a blank. -/
def IsLead (text : Text) : Prop :=
  (∀ c ∈ text, isPlain c = true) ∧ EndsBlank text

theorem isPlain_of_isBlank {c : Char} (blank : isBlank c = true) : isPlain c = true := by
  simp only [isPlain, isQuote, Bool.and_eq_true, Bool.not_eq_true', bne_iff_ne, ne_eq,
    Bool.or_eq_false_iff, beq_eq_false_iff_ne]
  refine ⟨⟨⟨?_, ?_⟩, ?_⟩, ?_⟩ <;> rintro rfl <;> revert blank <;> decide

theorem EndsBlank.append
    {front back : Text}
    (frontEnds : EndsBlank front)
    (backEnds : EndsBlank back) :
    EndsBlank (front ++ back) := by
  rcases backEnds with rfl | ⟨start, blank, rfl, isBlank⟩
  · simpa using frontEnds
  · exact .inr ⟨front ++ start, blank, by simp, isBlank⟩

theorem IsLead.append
    {front back : Text}
    (frontLead : IsLead front)
    (backLead : IsLead back) :
    IsLead (front ++ back) :=
  ⟨fun c member => (List.mem_append.1 member).elim (frontLead.1 c) (backLead.1 c),
    frontLead.2.append backLead.2⟩

theorem endsBlank_of_forall
    {text : Text}
    (blanks : ∀ c ∈ text, isBlank c = true) :
    EndsBlank text := by
  rcases List.eq_nil_or_concat text with rfl | ⟨front, last, rfl⟩
  · exact .inl rfl
  · exact .inr ⟨front, last, by simp, blanks last (by simp)⟩

theorem isLead_of_forall_isBlank
    {text : Text}
    (blanks : ∀ c ∈ text, isBlank c = true) :
    IsLead text :=
  ⟨fun c member => isPlain_of_isBlank (blanks c member), endsBlank_of_forall blanks⟩

theorem forall_isBlank_takeWhile (text : Text) :
    ∀ c ∈ text.takeWhile isBlank, isBlank c = true :=
  List.all_eq_true.1 List.all_takeWhile

/-- A run of keywords is a lead-in, if the keywords themselves are plain. -/
theorem KeywordRun.isLead
    {keywords : List Text}
    {lead : Text}
    (run : KeywordRun keywords lead)
    (plain : ∀ word ∈ keywords, ∀ c ∈ word, isPlain c = true) :
    IsLead lead := by
  induction run with
  | nil => simp [IsLead, EndsBlank]
  | @cons word gap rest isKeyword isGap _ inductionHypothesis =>
      have gapLead := (isLead_of_forall_isBlank isGap.2).append inductionHypothesis
      refine ⟨fun c member => ?_, ?_⟩
      · rcases List.mem_append.1 member with inWord | inGap
        · exact plain word isKeyword c inWord
        · exact gapLead.1 c inGap
      · rcases gapLead.2 with empty | ⟨front, blank, ends, isBlank⟩
        · exact absurd (List.append_eq_nil_iff.1 empty).1 isGap.1
        · exact .inr ⟨word ++ front, blank, by simp [ends], isBlank⟩

/-- Whether a text starts as an identifier does. -/
def StartsName (text : Text) : Prop :=
  ∃ c rest, text = c :: rest ∧ isIdentStart c = true

theorem StartsName.ne_nil {text : Text} (starts : StartsName text) : text ≠ [] := by
  obtain ⟨c, rest, rfl, _⟩ := starts
  simp

theorem StartsName.append
    {text : Text}
    (starts : StartsName text) (more : Text) :
    StartsName (text ++ more) := by
  obtain ⟨c, rest, rfl, identStart⟩ := starts
  exact ⟨c, rest ++ more, rfl, identStart⟩

theorem startsName_of_ident?
    {text name rest : Text}
    (read : ident? text = some (name, rest)) :
    StartsName text := by
  unfold ident? at read
  split at read
  · simp at read
  next c tail =>
    split at read
    next identStart => exact ⟨c, tail, rfl, identStart⟩
    · simp at read

theorem startsName_of_qualifiedName?
    {text rest : Text}
    {names : List Text}
    (read : qualifiedName? text = some (names, rest)) :
    StartsName text := by
  rw [qualifiedName?] at read
  split at read
  · simp at read
  next name next first => exact startsName_of_ident? first

theorem isPlain_of_mem_specifierWords : ∀ word ∈ specifierWords, ∀ c ∈ word, isPlain c = true :=
  fun word isKeyword =>
    List.all_eq_true.1
      (List.all_eq_true.1
        (show (specifierWords.all fun word => word.all isPlain) = true by decide) word isKeyword)

/-- Specifiers stand before the type of a declaration, and a declarator behind it. -/
theorem variableDeclaration?_split
    {body : Text}
    {declared : VariableDeclaration}
    (read : variableDeclaration? body = some declared) :
    (∃ lead, body = lead ++ declared.fromType ∧ KeywordRun specifierWords lead) ∧
      ∃ rest, rest ≠ [] ∧
        qualifiedName? declared.fromType = some (declared.typeName, rest) := by
  obtain ⟨start, member, read⟩ := List.exists_of_findSome?_eq_some read
  obtain ⟨⟨typeName, rest⟩, named, read⟩ := Option.bind_eq_some_iff.1 read
  obtain ⟨_, declarator, rfl⟩ := Option.map_eq_some_iff.1 read
  refine ⟨keywordRun_of_mem_afterKeywords member, rest, ?_, named⟩
  rintro rfl
  simp [declaratorAfterType?, afterArguments, separator?, trimStart] at declarator

/-- What is constifiable begins with the name of an indexed type, behind specifiers. -/
theorem constifiable?_split
    {index : SymbolIndex}
    {body fromType : Text}
    (found : constifiable? index body = some fromType) :
    (∃ lead, body = lead ++ fromType ∧ KeywordRun specifierWords lead) ∧
      ∃ typeName rest, rest ≠ [] ∧ qualifiedName? fromType = some (typeName, rest) ∧
        index.knowsType typeName = true := by
  unfold constifiable? at found
  split at found
  · simp at found
  · split at found
    · simp at found
    · obtain ⟨declared, read, found⟩ := Option.bind_eq_some_iff.1 found
      split at found
      next accepted =>
        simp only [Option.some.injEq] at found
        obtain ⟨lead, rest, more, named⟩ := variableDeclaration?_split read
        rw [Bool.and_eq_true] at accepted
        exact found ▸ ⟨lead, declared.typeName, rest, more, named, accepted.1⟩
      · simp at found

/-- Blanks, and specifiers behind them. -/
def IsSpecifierLead (text : Text) : Prop :=
  ∃ blanks specifiers, text = blanks ++ specifiers ∧ (∀ c ∈ blanks, isBlank c = true) ∧
    KeywordRun specifierWords specifiers

theorem IsSpecifierLead.isLead
    {text : Text}
    (isSpecifierLead : IsSpecifierLead text) :
    IsLead text := by
  obtain ⟨blanks, specifiers, rfl, blank, run⟩ := isSpecifierLead
  exact (isLead_of_forall_isBlank blank).append (run.isLead isPlain_of_mem_specifierWords)

/-- `const` goes between the specifiers of a line and the name of an indexed type. -/
theorem insertionPoint?_parts
    {index : SymbolIndex}
    {line before after : Text}
    (found : insertionPoint? index line = some (before, after)) :
    line = before ++ after ∧ IsSpecifierLead before ∧
      ∃ fromType rest typeName behind, after = fromType ++ rest ∧ behind ≠ [] ∧
        qualifiedName? fromType = some (typeName, behind) ∧ index.knowsType typeName = true := by
  obtain ⟨fromType, found, split⟩ := Option.map_eq_some_iff.1 found
  obtain ⟨⟨lead, body, run⟩, typeName, behind, more, named, known⟩ := constifiable?_split found
  have whole : statement line = (statement line).takeWhile isBlank ++ (lead ++ fromType) := by
    rw [← body, trimStart, List.takeWhile_append_dropWhile]
  have isStart : statement line <+: line :=
    (dropEnd_isPrefix _ _).trans (codeFrom_isPrefix _ _)
  obtain ⟨rest, whole'⟩ := isStart
  have length : (statement line).length - fromType.length =
      ((statement line).takeWhile isBlank ++ lead).length := by
    have := congrArg List.length whole
    simp only [List.length_append] at this ⊢
    omega
  have line_eq : line =
      ((statement line).takeWhile isBlank ++ lead) ++ (fromType ++ rest) := by
    have joined := whole'.symm.trans (congrArg (· ++ rest) whole)
    simpa only [List.append_assoc] using joined
  rw [length, List.splitAt_eq, Prod.mk.injEq] at split
  have front : line.take ((statement line).takeWhile isBlank ++ lead).length =
      (statement line).takeWhile isBlank ++ lead := by
    conv => lhs; arg 2; rw [line_eq]
    exact List.take_left
  have back : line.drop ((statement line).takeWhile isBlank ++ lead).length =
      fromType ++ rest := by
    conv => lhs; arg 2; rw [line_eq]
    exact List.drop_left
  refine ⟨?_, ?_, fromType, rest, typeName, behind, ?_, more, named, known⟩
  · rw [← split.1, ← split.2, List.take_append_drop]
  · rw [← split.1, front]
    exact ⟨_, lead, rfl, forall_isBlank_takeWhile _, run⟩
  · rw [← split.2, back]

/-- `const` goes between two parts of the line, the first of which is a lead-in. -/
theorem insertionPoint?_split
    {index : SymbolIndex}
    {line before after : Text}
    (found : insertionPoint? index line = some (before, after)) :
    line = before ++ after ∧ StartsName after ∧ IsLead before := by
  obtain ⟨split, isLead, fromType, rest, _, _, rfl, _, named, _⟩ := insertionPoint?_parts found
  exact ⟨split, (startsName_of_qualifiedName? named).append rest, isLead.isLead⟩

/-- A lead-in is part of the code of a line. -/
theorem codeOf_append_of_isPlain
    {lead : Text}
    (plain : ∀ c ∈ lead, isPlain c = true) (rest : Text) :
    codeOf (lead ++ rest) = lead ++ codeOf rest := by
  refine codeOf_append_of_forall (fun c member => ?_) rest
  have plainHere := plain c member
  simp only [isPlain, Bool.and_eq_true, Bool.not_eq_true', bne_iff_ne] at plainHere
  exact plainHere.1

/-- A word that a text ends with before a word boundary is one of its words. -/
theorem mem_words
    {front back word : Text}
    (frontEnds : EndsBlank front)
    (inWord : ∀ c ∈ word, isWord c = true)
    (backStarts : back = [] ∨ ∃ blank rest, back = blank :: rest ∧ isBlank blank = true) :
    word ∈ words (front ++ (word ++ back)) := by
  have single : ∀ c ∈ word, (!isWord c) = false := fun c member => by simp [inWord c member]
  have first : word ∈ words (word ++ back) := by
    rcases backStarts with rfl | ⟨blank, rest, rfl, isBlank⟩
    · simp [words, List.splitOnP_eq_singleton single]
    · rw [words, List.splitOnP_append_cons_of_forall_mem single blank
        (by simp [isWord_eq_false_of_isBlank isBlank])]
      simp
  rcases frontEnds with rfl | ⟨start, blank, rfl, isBlank⟩
  · exact first
  · rw [List.append_assoc, List.singleton_append, words,
      List.splitOnP_append_cons _ _ (by simp [isWord_eq_false_of_isBlank isBlank])]
    exact List.mem_append_right _ first

theorem endsBlank_trimStart
    {text : Text}
    (ends : EndsBlank text) :
    EndsBlank (trimStart text) := by
  rcases ends with rfl | ⟨front, blank, rfl, isBlank⟩
  · exact .inl rfl
  · rw [trimStart, List.dropWhile_append]
    split
    · simp [isBlank, EndsBlank]
    · exact .inr ⟨_, blank, rfl, isBlank⟩

/-- After the insertion, the head of the statement holds the word `const`. -/
theorem hasWord_immutable_of_isLead
    {before : Text}
    (isLead : IsLead before) (after : Text) :
    hasWord immutableWords
      (declarationHead (trimStart (statement (before ++ constWord ++ after)))) = true := by
  have code : codeOf (before ++ constWord ++ after) =
      before ++ ("const".toList ++ ' ' :: codeOf after) := by
    rw [List.append_assoc, codeOf_append_of_isPlain isLead.1,
      codeOf_append_of_isPlain (List.all_eq_true.1 (show constWord.all isPlain = true by decide))]
    rfl
  obtain ⟨back, trimmed, backStarts⟩ :
      ∃ back, dropEnd isBlank (' ' :: codeOf after) = back ∧
        (back = [] ∨ ∃ rest, back = ' ' :: rest) := by
    refine ⟨_, rfl, ?_⟩
    rw [dropEnd]
    split
    · exact .inl (by simp [show isBlank ' ' = true by decide])
    · exact .inr ⟨_, rfl⟩
  have stated : statement (before ++ constWord ++ after) =
      before ++ ("const".toList ++ back) := by
    have word : dropEnd isBlank ("const".toList ++ ' ' :: codeOf after) =
        "const".toList ++ back := by
      rw [← trimmed]
      simp only [show "const".toList = ['c', 'o', 'n', 's', 't'] by decide, List.cons_append,
        List.nil_append]
      rw [dropEnd_cons_of_kept (by decide), dropEnd_cons_of_kept (by decide),
        dropEnd_cons_of_kept (by decide), dropEnd_cons_of_kept (by decide),
        dropEnd_cons_of_kept (by decide)]
    rw [statement, trimEnd, code, dropEnd_append_of_ne_nil (by rw [word]; simp), word]
  have started : trimStart (before ++ ("const".toList ++ back)) =
      trimStart before ++ ("const".toList ++ back) := by
    have kept : ("const".toList ++ back).dropWhile isBlank = "const".toList ++ back := by
      rw [show "const".toList = 'c' :: "onst".toList by decide, List.cons_append,
        List.dropWhile_cons_of_neg (by decide)]
    rw [trimStart, List.dropWhile_append, kept]
    split
    next empty => simp [trimStart, List.isEmpty_iff.1 empty]
    · rfl
  have head : declarationHead (trimStart before ++ ("const".toList ++ back)) =
      trimStart before ++ ("const".toList ++ back.takeWhile (· != '=')) := by
    have notEqual : ∀ c ∈ trimStart before, (c != '=') = true := fun c member => by
      have plain := isLead.1 c ((List.dropWhile_sublist _).mem member)
      simp only [isPlain, Bool.and_eq_true] at plain
      exact plain.2
    rw [declarationHead, List.takeWhile_append_of_pos notEqual,
      List.takeWhile_append_of_pos (List.all_eq_true.1 (by decide))]
  rw [stated, started, head, hasWord, List.any_eq_true]
  refine ⟨"const".toList, mem_words (endsBlank_trimStart isLead.2)
    (List.all_eq_true.1 (by decide)) ?_, by decide⟩
  rcases backStarts with rfl | ⟨rest, rfl⟩
  · exact .inl rfl
  · exact .inr ⟨' ', rest.takeWhile (· != '='), by
      rw [List.takeWhile_cons_of_pos (by decide)], by decide⟩

/-- A proposed line is not proposed again, for any index. -/
theorem propose?_settled
    {index : SymbolIndex}
    {line text : Text}
    (proposed : propose? index line = some text)
    (later : SymbolIndex) :
    propose? later text = none := by
  obtain ⟨⟨before, after⟩, found, rfl⟩ := Option.map_eq_some_iff.1 proposed
  have immutable := hasWord_immutable_of_isLead (insertionPoint?_split found).2.2 after
  simp only [propose?, insertionPoint?, Option.map_eq_none_iff]
  unfold constifiable?
  split
  · rfl
  · rw [if_pos (by rw [immutable, Bool.or_true])]

/-- A proposal brings no newline into the line. -/
theorem propose?_noNewline
    {index : SymbolIndex}
    {line text : Text}
    (proposed : propose? index line = some text)
    (noNewline : '\n' ∉ line) :
    '\n' ∉ text := by
  obtain ⟨⟨before, after⟩, found, rfl⟩ := Option.map_eq_some_iff.1 proposed
  rw [(insertionPoint?_split found).1, List.mem_append, not_or] at noNewline
  simp only [List.mem_append, not_or]
  exact ⟨⟨noNewline.1, by decide⟩, noNewline.2⟩

/-- A proposal leaves the end of the line as it is. -/
theorem propose?_sameEnd
    {index : SymbolIndex}
    {line text : Text}
    (proposed : propose? index line = some text) :
    text ≠ [] ∧ text.getLast? = line.getLast? := by
  obtain ⟨⟨before, after⟩, found, rfl⟩ := Option.map_eq_some_iff.1 proposed
  obtain ⟨split, starts, _⟩ := insertionPoint?_split found
  have nonempty := starts.ne_nil
  refine ⟨by simp [nonempty], ?_⟩
  rw [split]
  simp [List.getLast?_append, List.getLast?_eq_some_getLast nonempty]

end Upkeep
