import Upkeep.Proofs.Source.Declaration
import Upkeep.Proofs.Text.Parts

/-!
Where no head of a record or an enumeration can be read.  The search for a head passes over words
that are no keyword, over blanks and marks, and over texts in which each keyword is stuck: the
characters behind it lead to a mark that no head can have.
-/

namespace Upkeep

open Unicode

variable {Head : Type} {barrier : Char → Bool} {head? : Text → Option Head}
  {text rest word front back : Text}

/-- A head at the very start is the one that is found. -/
theorem findHead?_of_head?
    {head : Head}
    (read : head? text = some head)
    (nonempty : text ≠ []) :
    findHead? barrier head? false text = some ([], head) := by
  cases text with
  | nil => exact absurd rfl nonempty
  | cons c rest => simp [findHead?, read]

/-- No head is found in what stands before a text without one, if none can be read there at the
starts of words. -/
theorem findHead?_append_eq_none_of_starts
    (inWord : Bool)
    (refused : ∀ before tail, tail ≠ [] → front = before ++ tail →
      (before.getLast?.map isWord).getD inWord = false → head? (tail ++ back) = none)
    (absent : ∀ inWord, findHead? barrier head? inWord back = none) :
    findHead? barrier head? inWord (front ++ back) = none := by
  induction front generalizing inWord with
  | nil => exact absent inWord
  | cons c front inductionHypothesis =>
      have here : (if inWord then none else head? (c :: (front ++ back))) = none := by
        cases inWord with
        | true => rfl
        | false => exact refused [] (c :: front) (by simp) rfl rfl
      have below : findHead? barrier head? (isWord c) (front ++ back) = none := by
        refine inductionHypothesis (isWord c) fun before tail nonempty split starts => ?_
        refine refused (c :: before) tail nonempty (by rw [split]; rfl) ?_
        cases before with
        | nil => exact starts
        | cons d before => rwa [List.getLast?_cons_cons]
      rw [List.cons_append, findHead?, here, below]
      simp

/-- No head is found in what stands before a text without one, if none can be read there. -/
theorem findHead?_append_eq_none
    (refused : ∀ tail, tail ≠ [] → tail <:+ front → head? (tail ++ back) = none)
    (absent : ∀ inWord, findHead? barrier head? inWord back = none)
    (inWord : Bool) :
    findHead? barrier head? inWord (front ++ back) = none :=
  findHead?_append_eq_none_of_starts inWord
    (fun before tail nonempty split _ => refused tail nonempty ⟨before, split.symm⟩) absent

theorem findHead?_eq_none
    (refused : ∀ tail, tail ≠ [] → tail <:+ text → head? tail = none)
    (inWord : Bool) :
    findHead? barrier head? inWord text = none := by
  have whole : findHead? barrier head? inWord (text ++ []) = none := by
    refine findHead?_append_eq_none (fun tail nonempty suffix => ?_) (fun _ => rfl) inWord
    rw [List.append_nil]
    exact refused tail nonempty suffix
  rwa [List.append_nil] at whole

/-- A head starts a word, so that a word that starts none is passed over whole. -/
theorem findHead?_word_append_eq_none
    (inside : ∀ c ∈ word, isWord c = true)
    (refused : head? (word ++ rest) = none)
    (absent : ∀ inWord, findHead? barrier head? inWord rest = none)
    (inWord : Bool) :
    findHead? barrier head? inWord (word ++ rest) = none := by
  have within : findHead? barrier head? true (word ++ rest) = none := by
    clear refused
    induction word with
    | nil => exact absent true
    | cons c word inductionHypothesis =>
        rw [List.forall_mem_cons] at inside
        rw [List.cons_append, findHead?, inside.1, inductionHypothesis inside.2]
        simp
  cases inWord with
  | true => exact within
  | false =>
      cases starts : word ++ rest with
      | nil => rfl
      | cons c tail =>
          rw [starts] at refused within
          rw [findHead?] at within ⊢
          rw [refused]
          exact within

/-- At the end of a head nothing more is found. -/
theorem findHead?_eq_none_of_opensOrEnds
    (ends : opensOrEnds text = true)
    (stops : barrier ';' = true ∧ barrier '{' = true)
    (refused : head? text = none)
    (inWord : Bool) :
    findHead? barrier head? inWord text = none := by
  cases text with
  | nil => rfl
  | cons c rest =>
      have stop : barrier c = true := by
        simp only [opensOrEnds, Bool.or_eq_true, beq_iff_eq] at ends
        rcases ends with rfl | rfl
        · exact stops.1
        · exact stops.2
      rw [findHead?, refused, ite_self]
      simp [stop]

theorem enumHead?_eq_none_of_head?
    (other : text.head? ≠ some 'e') :
    enumHead? text = none := by
  have unread : keyword? "enum".toList text = none := by
    rw [Option.eq_none_iff_forall_ne_some]
    intro rest read
    obtain ⟨gap, rfl, _⟩ := keyword?_split read
    exact other rfl
  rw [enumHead?, unread, Option.bind_none]

theorem enumHead?_word_append_eq_none
    (inside : ∀ c ∈ word, isWord c = true)
    (ended : EndsWord rest)
    (other : word ≠ "enum".toList) :
    enumHead? (word ++ rest) = none := by
  have unread : keyword? "enum".toList (word ++ rest) = none := by
    apply keyword?_eq_none_of_firstWord (List.all_eq_true.1 (by decide))
    rwa [firstWord_append inside ended]
  rw [enumHead?, unread, Option.bind_none]

/-- Whether the first mark of a text is one that no head of an enumeration can end in. -/
def IsStuck (text : Text) : Prop :=
  opensOrEnds (text.dropWhile isUnderlyingTypeChar) = false

theorem isUnderlyingTypeChar_of_isWord
    {c : Char}
    (inWord : isWord c = true) :
    isUnderlyingTypeChar c = true := by
  simp [isUnderlyingTypeChar, inWord]

/-- Names and blanks lead to no mark. -/
theorem isStuck_append_iff
    (inside : ∀ c ∈ front, isUnderlyingTypeChar c = true) :
    IsStuck (front ++ back) ↔ IsStuck back := by
  rw [IsStuck, IsStuck, List.dropWhile_append_of_pos inside]

theorem isStuck_gap_append_iff
    {gap : Text}
    (isGap : IsGap gap) :
    IsStuck (gap ++ back) ↔ IsStuck back :=
  isStuck_append_iff fun c member => isUnderlyingTypeChar_of_isBlank (isGap.2 c member)

theorem IsStuck.macro?
    (stuck : IsStuck text)
    (read : macro? text = some rest) :
    IsStuck rest := by
  unfold Upkeep.macro? at read
  split at read
  · simp at read
  next c tail =>
    split at read
    · obtain ⟨gap, behind, isGap⟩ := gap?_split read
      have split : (c :: tail).takeWhile isMacroChar ++ (gap ++ rest) = c :: tail := by
        rw [← behind, List.takeWhile_append_dropWhile]
      rw [← split, isStuck_append_iff fun d member => isUnderlyingTypeChar_of_isWord
        (isWord_of_isMacroChar (List.all_eq_true.1 List.all_takeWhile d member)),
        isStuck_gap_append_iff isGap] at stuck
      exact stuck
    · simp at read

theorem IsStuck.keyword?
    (stuck : IsStuck text)
    (inside : ∀ c ∈ word, isWord c = true)
    (read : keyword? word text = some rest) :
    IsStuck rest := by
  obtain ⟨gap, rfl, isGap⟩ := keyword?_split read
  rwa [isStuck_append_iff fun c member => isUnderlyingTypeChar_of_isWord (inside c member),
    isStuck_gap_append_iff isGap] at stuck

theorem IsStuck.endsEnumHead
    (stuck : IsStuck text) :
    endsEnumHead text = false := by
  obtain ⟨blanks, split, blank⟩ := exists_blanks_append_trimStart text
  rw [split, isStuck_append_iff fun c member => isUnderlyingTypeChar_of_isBlank (blank c member)]
    at stuck
  unfold Upkeep.endsEnumHead
  generalize trimStart text = head at stuck
  cases head with
  | nil => simp [IsStuck, opensOrEnds] at stuck
  | cons c base =>
      by_cases colon : c = ':'
      · subst colon
        rw [IsStuck, List.dropWhile_cons_of_pos (by decide)] at stuck
        cases base with
        | nil => rfl
        | cons d more => simp [stuck]
      · by_cases inside : isUnderlyingTypeChar c = true
        · have open_ : c ≠ '{' := by rintro rfl; revert inside; decide
          have ended : c ≠ ';' := by rintro rfl; revert inside; decide
          simp [colon, opensOrEnds, open_, ended]
        · rw [IsStuck, List.dropWhile_cons_of_neg inside] at stuck
          simp [colon, stuck]

theorem IsStuck.nameAfterMacros?
    (stuck : IsStuck text) :
    nameAfterMacros? Upkeep.endsEnumHead text = none := by
  refine nameAfterMacros?_eq_none (fun stuck read => stuck.macro? read) ?_ stuck
  intro text name rest stuck read
  obtain ⟨rfl, isIdent, _⟩ := ident?_sound read
  rw [isStuck_append_iff fun c member => isUnderlyingTypeChar_of_isWord
    (isIdent.isWord c member)] at stuck
  exact stuck.endsEnumHead

/-- Behind the word `enum` a stuck text is no head. -/
theorem IsStuck.enumHead?
    (stuck : IsStuck text) :
    enumHead? text = none := by
  rw [Upkeep.enumHead?, Option.bind_eq_none_iff]
  intro rest read
  have behind := stuck.keyword? (List.all_eq_true.1 (by decide)) read
  dsimp only
  rw [behind.nameAfterMacros?, Option.or_none, Option.map_eq_none_iff, Option.bind_eq_none_iff]
  intro tagged readTag
  rcases Option.or_eq_some_iff.1 readTag with asClass | ⟨_, asStruct⟩
  · exact (behind.keyword? (List.all_eq_true.1 (by decide)) asClass).nameAfterMacros?
  · exact (behind.keyword? (List.all_eq_true.1 (by decide)) asStruct).nameAfterMacros?

end Upkeep
