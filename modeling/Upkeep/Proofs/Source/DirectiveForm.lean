import Upkeep.Proofs.Source.Carry
import Upkeep.Proofs.Text.Parts
import Upkeep.Source.Directive

/-!
The form that a line has from which a directive is read, and the forms of its operand in which a
word or the name of a file is found.
-/

namespace Upkeep

open Unicode

variable {line keyword operand word target : Text} {directive : Directive}

/-- Characters of words, at least one of them. -/
def IsWordText (word : Text) : Prop :=
  word ≠ [] ∧ ∀ c ∈ word, isWord c = true

instance (word : Text) : Decidable (IsWordText word) :=
  decidable_of_iff (word ≠ [] ∧ word.all isWord = true) (by rw [IsWordText, List.all_eq_true])

theorem IsWordText.trimStart_append
    (isWordText : IsWordText word) (rest : Text) :
    trimStart (word ++ rest) = word ++ rest := by
  apply trimStart_eq_self
  cases word with
  | nil => exact absurd rfl isWordText.1
  | cons c more =>
      have first : isWord c = true := isWordText.2 c List.mem_cons_self
      simpa using isBlank_eq_false_of_isWord first

/-- Without a gap a word would go on with the word before it. -/
theorem IsWordText.isGap_of_endsWord
    {gap rest : Text}
    (isWordText : IsWordText word)
    (blank : ∀ c ∈ gap, isBlank c = true)
    (ended : EndsWord (gap ++ (word ++ rest))) :
    IsGap gap := by
  refine ⟨?_, blank⟩
  rintro rfl
  cases word with
  | nil => exact isWordText.1 rfl
  | cons c more =>
      have outside : isWord c = false := ended c rfl
      have inside : isWord c = true := isWordText.2 c List.mem_cons_self
      rw [inside] at outside
      cases outside

theorem kindByStart_eq_preprocessor_iff :
    kindByStart line = .preprocessor ↔ ∃ rest, trimStart line = '#' :: rest := by
  constructor
  · intro isDirective
    unfold kindByStart at isDirective
    split at isDirective
    case h_4 rest starts => exact ⟨rest, starts⟩
    all_goals cases isDirective
  · rintro ⟨rest, starts⟩
    rw [kindByStart_of_trimStart starts (by decide), if_pos rfl]

/-- A directive begins as one. -/
theorem kindByStart_of_mem_zip_classify
    {sourceLines : List Text}
    (member : (line, .preprocessor) ∈ sourceLines.zip (classify sourceLines)) :
    kindByStart line = .preprocessor := by
  obtain ⟨number, at_⟩ := List.mem_iff_getElem?.1 member
  obtain ⟨isLine, isDirective⟩ := List.getElem?_zip_eq_some.1 at_
  rw [classify, getElem?_classifyFrom, isLine, Option.map_some, Option.some.injEq] at isDirective
  exact (Carry.start_of_kind isDirective (by simp) (by simp)).2

/-- A line on which only blanks stand before a number sign, then a keyword over optional blanks,
and then something that does not go on with the keyword. -/
inductive HasDirective (keyword operand : Text) : Text → Prop where
  | intro (before between : Text) :
      (∀ c ∈ before, isBlank c = true) →
      (∀ c ∈ between, isBlank c = true) →
      EndsWord operand →
      HasDirective keyword operand (before ++ '#' :: (between ++ (keyword ++ operand)))

theorem HasDirective.endsWord
    (has : HasDirective keyword operand line) :
    EndsWord operand := by
  obtain ⟨_, _, _, _, ended⟩ := has
  exact ended

namespace Directive

theorem hasDirective_of_ofLine?
    (read : ofLine? line = some directive) :
    HasDirective directive.keyword directive.operand line := by
  unfold ofLine? at read
  split at read
  case h_2 => cases read
  case h_1 rest starts =>
    obtain ⟨before, split, blank⟩ := exists_blanks_append_trimStart line
    obtain ⟨between, behind, blankToo⟩ := exists_blanks_append_trimStart rest
    rw [Option.some.injEq] at read
    rw [← read]
    have whole : line = before ++ '#' ::
        (between ++ (firstWord (trimStart rest) ++ afterWord (trimStart rest))) := by
      rw [firstWord_append_afterWord, ← behind, ← starts, ← split]
    rw [whole]
    exact .intro before between blank blankToo (endsWord_afterWord _)

/-- What is read of a line is the directive that it has. -/
theorem ofLine?_eq_some_iff
    (isKeyword : IsWordText keyword) :
    ofLine? line = some ⟨keyword, operand⟩ ↔ HasDirective keyword operand line := by
  constructor
  · exact hasDirective_of_ofLine?
  · rintro ⟨before, between, blank, blankToo, ended⟩
    have sign : trimStart (before ++ '#' :: (between ++ (keyword ++ operand))) =
        '#' :: (between ++ (keyword ++ operand)) := by
      rw [trimStart_append_of_isBlank blank]
      exact trimStart_eq_self (by simp; decide)
    have inside : trimStart (between ++ (keyword ++ operand)) = keyword ++ operand := by
      rw [trimStart_append_of_isBlank blankToo, isKeyword.trimStart_append]
    simp only [ofLine?, sign, inside, firstWord_append isKeyword.2 ended,
      afterWord_append isKeyword.2 ended]

theorem exists_ofLine?
    (isDirective : kindByStart line = .preprocessor) :
    ∃ directive, ofLine? line = some directive := by
  obtain ⟨rest, starts⟩ := kindByStart_eq_preprocessor_iff.1 isDirective
  rw [ofLine?, starts]
  exact ⟨_, rfl⟩

end Directive

/-- A directive with a word behind its keyword, over a gap, and anything behind the word. -/
inductive NamesWord (keyword word line : Text) : Prop where
  | intro (gap rest : Text) :
      IsGap gap → IsWordText word → EndsWord rest →
      HasDirective keyword (gap ++ (word ++ rest)) line →
      NamesWord keyword word line

/-- What the word behind the keyword is. -/
theorem namesWord_iff
    (isKeyword : IsWordText keyword) :
    NamesWord keyword word line ↔
      ∃ directive ∈ Directive.ofLine? line,
        directive.keyword = keyword ∧ directive.operandWord = word ∧ word ≠ [] := by
  simp only [Option.mem_def]
  constructor
  · rintro ⟨gap, rest, isGap, isWordText, ended, has⟩
    refine ⟨_, (Directive.ofLine?_eq_some_iff isKeyword).2 has, rfl, ?_, isWordText.1⟩
    rw [Directive.operandWord, trimStart_append_of_isBlank isGap.2, isWordText.trimStart_append,
      firstWord_append isWordText.2 ended]
  · rintro ⟨⟨_, operand⟩, read, rfl, rfl, nonempty⟩
    have has := (Directive.ofLine?_eq_some_iff isKeyword).1 read
    obtain ⟨gap, split, blank⟩ := exists_blanks_append_trimStart operand
    have words : trimStart operand =
        firstWord (trimStart operand) ++ afterWord (trimStart operand) :=
      (firstWord_append_afterWord _).symm
    have isWordText : IsWordText (firstWord (trimStart operand)) :=
      ⟨nonempty, List.all_eq_true.1 List.all_takeWhile⟩
    rw [split, words] at has
    exact .intro gap _ (isWordText.isGap_of_endsWord blank has.endsWord) isWordText
      (endsWord_afterWord _) has

theorem NamesWord.unique
    {other : Text}
    (isKeyword : IsWordText keyword)
    (names : NamesWord keyword word line)
    (namesToo : NamesWord keyword other line) :
    word = other := by
  obtain ⟨directive, read, _, same, _⟩ := (namesWord_iff isKeyword).1 names
  obtain ⟨directiveToo, readToo, _, sameToo, _⟩ := (namesWord_iff isKeyword).1 namesToo
  rw [Option.mem_def] at read readToo
  rw [read, Option.some.injEq] at readToo
  rw [← same, ← sameToo, readToo]

/-- An include with the name of a file between an opening and a closing mark, over optional blanks.
The marks need not fit together, and anything can follow them. -/
inductive IncludesFile (target line : Text) : Prop where
  | intro (blanks rest : Text) (opener closer : Char) :
      (∀ c ∈ blanks, isBlank c = true) →
      opener = '<' ∨ opener = '"' →
      closer = '>' ∨ closer = '"' →
      target ≠ [] →
      (∀ c ∈ target, c ≠ '>' ∧ c ≠ '"') →
      HasDirective "include".toList (blanks ++ opener :: (target ++ closer :: rest)) line →
      IncludesFile target line

/-- What is taken of a text that goes on behind it, up to the first character that ends it. -/
theorem takeWhile_closed_iff
    {inside : Char → Bool} {text taken : Text} :
    text.takeWhile inside = taken ∧ taken.length ≠ text.length ↔
      ∃ closer rest, text = taken ++ closer :: rest ∧ (∀ c ∈ taken, inside c = true) ∧
        inside closer = false := by
  constructor
  · rintro ⟨rfl, shorter⟩
    have split : text.takeWhile inside ++ text.dropWhile inside = text :=
      List.takeWhile_append_dropWhile
    cases behind : text.dropWhile inside with
    | nil =>
        rw [behind, List.append_nil] at split
        exact absurd (congrArg List.length split) shorter
    | cons closer rest =>
        have isCloser := List.head?_dropWhile_not inside text
        rw [behind] at isCloser split
        refine ⟨closer, rest, split.symm, List.all_eq_true.1 List.all_takeWhile, ?_⟩
        simpa using isCloser
  · rintro ⟨closer, rest, rfl, within, closes⟩
    refine ⟨?_, ?_⟩
    · rw [List.takeWhile_append_of_pos within, List.takeWhile_cons_of_neg (by simp [closes]),
        List.append_nil]
    · rw [List.length_append, List.length_cons]
      omega

theorem Directive.includes?_eq_some_iff :
    directive.includes? = some target ↔
      directive.keyword = "include".toList ∧ target ≠ [] ∧
        ∃ opener closer rest, trimStart directive.operand = opener :: (target ++ closer :: rest) ∧
          (opener = '<' ∨ opener = '"') ∧ (closer = '>' ∨ closer = '"') ∧
          ∀ c ∈ target, c ≠ '>' ∧ c ≠ '"' := by
  have inside : ∀ c, (c != '>' && c != '"') = true ↔ c ≠ '>' ∧ c ≠ '"' := by simp
  have closing : ∀ c, (c != '>' && c != '"') = false ↔ c = '>' ∨ c = '"' := by
    intro c
    rw [← Bool.not_eq_true, inside, not_and_or, not_ne_iff, not_ne_iff]
  unfold includes?
  constructor
  · intro read
    split at read
    case isFalse => cases read
    case isTrue isInclude =>
      split at read
      case h_1 => cases read
      case h_2 opener named starts =>
        split at read
        case isFalse => cases read
        case isTrue opens =>
          dsimp only at read
          split at read
          case isTrue => cases read
          case isFalse proper =>
            rw [not_or] at proper
            obtain rfl := Option.some.inj read
            obtain ⟨closer, rest, split, within, closes⟩ := takeWhile_closed_iff.1 ⟨rfl, proper.2⟩
            refine ⟨isInclude, proper.1, opener, closer, rest, ?_, opens, (closing closer).1 closes,
              fun c member => (inside c).1 (within c member)⟩
            rw [starts, ← split]
  · rintro ⟨isInclude, nonempty, opener, closer, rest, starts, opens, closes, within⟩
    obtain ⟨taken, shorter⟩ := takeWhile_closed_iff.2
      ⟨closer, rest, rfl, fun c member => (inside c).2 (within c member), (closing closer).2 closes⟩
    rw [if_pos isInclude, starts]
    simp only [taken, if_pos opens]
    rw [if_neg (not_or.2 ⟨nonempty, shorter⟩)]

theorem includeTarget?_eq_some_iff :
    includeTarget? line = some target ↔ IncludesFile target line := by
  rw [includeTarget?, Option.bind_eq_some_iff]
  constructor
  · rintro ⟨directive, read, includes⟩
    obtain ⟨isInclude, nonempty, opener, closer, rest, starts, opens, closes, inside⟩ :=
      Directive.includes?_eq_some_iff.1 includes
    obtain ⟨blanks, split, blank⟩ := exists_blanks_append_trimStart directive.operand
    have has := Directive.hasDirective_of_ofLine? read
    rw [isInclude, split, starts] at has
    exact .intro blanks rest opener closer blank opens closes nonempty inside has
  · rintro ⟨blanks, rest, opener, closer, blank, opens, closes, nonempty, inside, has⟩
    refine ⟨_, (Directive.ofLine?_eq_some_iff (by decide)).2 has, ?_⟩
    rw [Directive.includes?_eq_some_iff]
    refine ⟨rfl, nonempty, opener, closer, rest, ?_, opens, closes, inside⟩
    rw [trimStart_append_of_isBlank blank]
    apply trimStart_eq_self
    rcases opens with rfl | rfl <;> simp <;> decide

end Upkeep
