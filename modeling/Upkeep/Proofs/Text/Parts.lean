import Upkeep.Proofs.Text.Name

/-!
Texts that are put together from words and gaps, and the readers that take them apart again.
For each reader there is what it finds in a text of its form, and the form of a text in which
it finds something.
-/

namespace Upkeep

open Unicode

variable {text rest word name gap : Text}

/-- A word that begins with an ASCII letter or an underscore. -/
def IsIdent (name : Text) : Prop :=
  ∃ c rest, name = c :: rest ∧ isIdentStart c = true ∧ ∀ d ∈ rest, isWord d = true

/-- A text at which a word before it has ended. -/
def EndsWord (text : Text) : Prop :=
  ∀ c ∈ text.head?, isWord c = false

theorem endsWord_nil : EndsWord [] := by
  simp [EndsWord]

theorem endsWord_cons {c : Char} (outside : isWord c = false) (rest : Text) :
    EndsWord (c :: rest) := by
  simpa [EndsWord] using outside

instance (gap : Text) : Decidable (IsGap gap) :=
  decidable_of_iff (gap ≠ [] ∧ gap.all isBlank = true) (by rw [IsGap, List.all_eq_true])

theorem IsGap.exists_cons
    (isGap : IsGap gap) :
    ∃ blank more, gap = blank :: more ∧ isBlank blank = true := by
  cases gap with
  | nil => exact absurd rfl isGap.1
  | cons blank more => exact ⟨blank, more, rfl, isGap.2 blank (by simp)⟩

theorem IsGap.endsWord_append
    (isGap : IsGap gap) (rest : Text) :
    EndsWord (gap ++ rest) := by
  obtain ⟨blank, more, rfl, isBlank⟩ := isGap.exists_cons
  exact endsWord_cons (isWord_eq_false_of_isBlank isBlank) _

theorem endsWord_append_of_isBlank
    {blanks : Text}
    (blank : ∀ c ∈ blanks, isBlank c = true)
    (ended : EndsWord rest) :
    EndsWord (blanks ++ rest) := by
  cases blanks with
  | nil => exact ended
  | cons c more => exact endsWord_cons (isWord_eq_false_of_isBlank (blank c (by simp))) _

theorem IsIdent.isWord
    (isIdent : IsIdent name) :
    ∀ c ∈ name, isWord c = true := by
  obtain ⟨c, rest, rfl, starts, inWord⟩ := isIdent
  rw [List.forall_mem_cons]
  exact ⟨isWord_of_isIdentStart starts, inWord⟩

theorem IsIdent.trimEnd_append
    (isIdent : IsIdent name) (rest : Text) :
    trimEnd (name ++ rest) = name ++ trimEnd rest := by
  have inWord := isIdent.isWord
  clear isIdent
  induction name with
  | nil => rfl
  | cons c name inductionHypothesis =>
      rw [List.forall_mem_cons] at inWord
      rw [List.cons_append, trimEnd_cons_of_not_isBlank (isBlank_eq_false_of_isWord inWord.1),
        inductionHypothesis inWord.2, List.cons_append]

theorem IsIdent.ne_nil (isIdent : IsIdent name) : name ≠ [] := by
  obtain ⟨c, rest, rfl, _⟩ := isIdent
  simp

theorem firstWord_append
    (inWord : ∀ c ∈ word, isWord c = true)
    (ended : EndsWord rest) :
    firstWord (word ++ rest) = word := by
  rw [firstWord, List.takeWhile_append_of_pos inWord]
  cases rest with
  | nil => simp
  | cons c rest => simp [ended c rfl]

theorem afterWord_append
    (inWord : ∀ c ∈ word, isWord c = true)
    (ended : EndsWord rest) :
    afterWord (word ++ rest) = rest := by
  rw [afterWord, List.dropWhile_append_of_pos inWord]
  cases rest with
  | nil => rfl
  | cons c rest => simp [ended c rfl]

theorem endsWord_afterWord (text : Text) : EndsWord (afterWord text) := by
  intro c first
  have outside := List.head?_dropWhile_not isWord text
  rw [afterWord] at first
  rw [first] at outside
  simpa using outside

/-- An identifier is read up to its end. -/
theorem ident?_complete
    (isIdent : IsIdent name)
    (ended : EndsWord rest) :
    ident? (name ++ rest) = some (name, rest) := by
  have first := firstWord_append isIdent.isWord ended
  have behind := afterWord_append isIdent.isWord ended
  obtain ⟨c, more, rfl, starts, _⟩ := isIdent
  rw [List.cons_append] at first behind ⊢
  rw [ident?, if_pos starts, first, behind]

theorem ident?_sound
    (read : ident? text = some (name, rest)) :
    text = name ++ rest ∧ IsIdent name ∧ EndsWord rest := by
  refine ⟨(ident?_split read).symm, ?_⟩
  unfold ident? at read
  split at read
  · simp at read
  next c tail =>
    split at read
    next starts =>
      simp only [Option.some.injEq, Prod.mk.injEq] at read
      rw [← read.1, ← read.2]
      refine ⟨⟨c, firstWord tail, ?_, starts, ?_⟩, endsWord_afterWord _⟩
      · rw [firstWord, List.takeWhile_cons_of_pos (isWord_of_isIdentStart starts), firstWord]
      · exact List.all_eq_true.1 List.all_takeWhile
    · simp at read

theorem isIdent_iff : IsIdent name ↔ ident? name = some (name, []) := by
  constructor
  · intro isIdent
    simpa using ident?_complete isIdent endsWord_nil
  · intro read
    exact (ident?_sound read).2.1

instance (name : Text) : Decidable (IsIdent name) :=
  decidable_of_iff _ isIdent_iff.symm

theorem ident?_eq_none
    (outside : ∀ c ∈ text.head?, isIdentStart c = false) :
    ident? text = none := by
  cases text with
  | nil => rfl
  | cons c rest => simp [ident?, outside c rfl]

theorem trimStart_eq_self
    (solid : ∀ c ∈ text.head?, isBlank c = false) :
    trimStart text = text := by
  cases text with
  | nil => rfl
  | cons c rest => rw [trimStart, List.dropWhile_cons_of_neg (by simp [solid c rfl])]

theorem IsIdent.trimStart_append
    (isIdent : IsIdent name) (rest : Text) :
    trimStart (name ++ rest) = name ++ rest := by
  obtain ⟨c, more, rfl, starts, _⟩ := isIdent
  apply trimStart_eq_self
  simpa using isBlank_eq_false_of_isIdentStart starts

/-- A gap is read together with the blanks behind it. -/
theorem gap?_complete
    (isGap : IsGap gap) (rest : Text) :
    gap? (gap ++ rest) = some (trimStart rest) := by
  obtain ⟨blank, more, rfl, isBlank⟩ := isGap.exists_cons
  have blanks : ∀ c ∈ more, Unicode.isBlank c = true := fun c member =>
    isGap.2 c (by simp [member])
  rw [List.cons_append, gap?, if_pos isBlank, trimStart_append_of_isBlank blanks]

theorem eq_trimStart_of_gap? (read : gap? text = some rest) : rest = trimStart text := by
  cases text with
  | nil => simp [gap?] at read
  | cons c tail =>
      simp only [gap?, Option.ite_none_right_eq_some, Option.some.injEq] at read
      rw [← read.2, trimStart, trimStart, List.dropWhile_cons_of_pos read.1]

theorem after?_self_append (start rest : Text) : after? start (start ++ rest) = some rest :=
  after?_eq_some_iff.2 rfl

theorem keyword?_complete
    (isGap : IsGap gap) (word rest : Text) :
    keyword? word (word ++ (gap ++ rest)) = some (trimStart rest) := by
  rw [keyword?, after?_self_append, Option.bind_some, gap?_complete isGap]

/-- A keyword that is not the first word of a text is not read there. -/
theorem keyword?_eq_none_of_firstWord
    (inWord : ∀ c ∈ word, isWord c = true)
    (other : firstWord text ≠ word) :
    keyword? word text = none := by
  rw [Option.eq_none_iff_forall_ne_some]
  intro rest read
  obtain ⟨gap, rfl, isGap⟩ := keyword?_split read
  exact other (firstWord_append inWord (isGap.endsWord_append rest))

/-- Whether a word is made of upper-case letters, digits and underscores, as a macro is. -/
def isMacroWord : Text → Bool
  | [] => false
  | c :: rest => isMacroStart c && rest.all isMacroChar

theorem isMacroChar_of_isMacroStart
    {c : Char}
    (starts : isMacroStart c = true) :
    isMacroChar c = true := by
  simp only [isMacroStart, Bool.or_eq_true] at starts
  simp only [isMacroChar, Bool.or_eq_true]
  exact starts.imp_left .inl

theorem isWord_of_isMacroChar
    {c : Char}
    (inMacro : isMacroChar c = true) :
    isWord c = true := by
  simp only [isMacroChar, Bool.or_eq_true] at inMacro
  rcases inMacro with (upper | digit) | underscore
  · exact isWord_of_isIdentStart (isIdentStart_of_isUpper upper)
  · simp [isWord, Char.isAlphanum, digit]
  · simp [isWord, underscore]

theorem isIdent_of_isMacroWord (isMacro : isMacroWord word = true) : IsIdent word := by
  cases word with
  | nil => simp [isMacroWord] at isMacro
  | cons c rest =>
      simp only [isMacroWord, Bool.and_eq_true, List.all_eq_true] at isMacro
      exact ⟨c, rest, rfl, isIdentStart_of_isMacroStart isMacro.1,
        fun d member => isWord_of_isMacroChar (isMacro.2 d member)⟩

theorem gap?_eq_none
    (solid : ∀ c ∈ text.head?, isBlank c = false) :
    gap? text = none := by
  cases text with
  | nil => rfl
  | cons c rest => simp [gap?, solid c rfl]

theorem macro?_eq_none
    (outside : ∀ c ∈ text.head?, isIdentStart c = false) :
    macro? text = none := by
  cases text with
  | nil => rfl
  | cons c rest =>
      have noMacro : isMacroStart c = false := by
        by_contra starts
        rw [Bool.not_eq_false] at starts
        simp [isIdentStart_of_isMacroStart starts] at outside
      simp [macro?, noMacro]

/-- An identifier is read as a macro if it is one and a gap follows. -/
theorem macro?_append
    (isIdent : IsIdent name)
    (ended : EndsWord rest) :
    macro? (name ++ rest) = if isMacroWord name then gap? rest else none := by
  have inWord := isIdent.isWord
  obtain ⟨c, more, rfl, starts, _⟩ := isIdent
  rw [List.cons_append, macro?]
  by_cases macroStart : isMacroStart c = true
  · rw [if_pos macroStart, ← List.cons_append, isMacroWord, macroStart, Bool.true_and]
    by_cases whole : more.all isMacroChar = true
    · have all : ∀ d ∈ c :: more, isMacroChar d = true := by
        rw [List.forall_mem_cons]
        exact ⟨isMacroChar_of_isMacroStart macroStart, List.all_eq_true.1 whole⟩
      rw [if_pos whole, List.dropWhile_append_of_pos all]
      congr 1
      cases rest with
      | nil => rfl
      | cons d rest =>
          rw [List.dropWhile_cons_of_neg]
          intro inMacro
          have outside := ended d rfl
          simp [isWord_of_isMacroChar inMacro] at outside
    · -- The macro would end within the name, where no gap can be.
      rw [if_neg whole]
      have left : (c :: more).dropWhile isMacroChar ≠ [] := by
        intro none_
        rw [List.dropWhile_eq_nil_iff, List.forall_mem_cons] at none_
        exact whole (List.all_eq_true.2 none_.2)
      obtain ⟨d, tail, same⟩ := List.exists_cons_of_ne_nil left
      have inside : d ∈ c :: more :=
        (List.dropWhile_sublist isMacroChar).mem (by rw [same]; simp)
      rw [List.dropWhile_append, same]
      apply gap?_eq_none
      simpa using isBlank_eq_false_of_isWord (inWord d inside)
  · rw [if_neg macroStart, isMacroWord, Bool.eq_false_iff.2 macroStart, Bool.false_and]
    rfl

/-- The name after macros, in a text that begins with an identifier. -/
theorem nameAfterMacros?_append
    (accepts : Text → Bool)
    (isIdent : IsIdent name)
    (ended : EndsWord rest) :
    nameAfterMacros? accepts (name ++ rest) =
      ((if isMacroWord name then gap? rest else none).bind (nameAfterMacros? accepts)).or
        (if accepts rest then some name else none) := by
  rw [nameAfterMacros?_eq, macro?_append isIdent ended, ident?_complete isIdent ended,
    Option.bind_some]

theorem nameAfterMacros?_eq_none_of_head?
    {accepts : Text → Bool}
    (outside : ∀ c ∈ text.head?, isIdentStart c = false) :
    nameAfterMacros? accepts text = none := by
  rw [nameAfterMacros?_eq, macro?_eq_none outside, ident?_eq_none outside]
  rfl

/-- No name is read where what the readers leave is never acceptable. -/
theorem nameAfterMacros?_eq_none
    {accepts : Text → Bool} {Stuck : Text → Prop}
    (macros : ∀ {text rest}, Stuck text → macro? text = some rest → Stuck rest)
    (refused : ∀ {text name rest}, Stuck text → ident? text = some (name, rest) →
      accepts rest = false)
    (stuck : Stuck text) :
    nameAfterMacros? accepts text = none := by
  induction length : text.length using Nat.strong_induction_on generalizing text with
  | _ bound inductionHypothesis =>
      rw [nameAfterMacros?_eq, Option.or_eq_none_iff]
      constructor
      · rw [Option.bind_eq_none_iff]
        intro rest read
        have shorter := length_macro?_lt read
        exact inductionHypothesis rest.length (by omega) (macros stuck read) rfl
      · rw [Option.bind_eq_none_iff]
        rintro ⟨name, rest⟩ read
        simp [refused stuck read]

/-- Macros, each with a gap behind it. -/
def macroText (macros : List (Text × Text)) : Text :=
  macros.flatMap fun (word, gap) => word ++ gap

theorem trimStart_macroText_append
    {macros : List (Text × Text)}
    (areMacros : ∀ entry ∈ macros, isMacroWord entry.1 = true ∧ IsGap entry.2)
    (solid : trimStart rest = rest) :
    trimStart (macroText macros ++ rest) = macroText macros ++ rest := by
  cases macros with
  | nil => exact solid
  | cons entry macros =>
      have isIdent := isIdent_of_isMacroWord (areMacros entry (by simp)).1
      simpa [macroText] using
        isIdent.trimStart_append (entry.2 ++ (macroText macros ++ rest))

/-- All macros are passed over if a name is read behind them. -/
theorem nameAfterMacros?_macroText_append
    {accepts : Text → Bool}
    {macros : List (Text × Text)}
    (areMacros : ∀ entry ∈ macros, isMacroWord entry.1 = true ∧ IsGap entry.2)
    (solid : trimStart rest = rest)
    (read : nameAfterMacros? accepts rest = some name) :
    nameAfterMacros? accepts (macroText macros ++ rest) = some name := by
  induction macros with
  | nil => exact read
  | cons entry macros inductionHypothesis =>
      rw [List.forall_mem_cons] at areMacros
      obtain ⟨⟨isMacro, isGap⟩, areMacros⟩ := areMacros
      have split : macroText (entry :: macros) ++ rest =
          entry.1 ++ (entry.2 ++ (macroText macros ++ rest)) := by
        simp [macroText]
      rw [split, nameAfterMacros?_append accepts (isIdent_of_isMacroWord isMacro)
        (isGap.endsWord_append _), if_pos isMacro, gap?_complete isGap, Option.bind_some,
        trimStart_macroText_append areMacros solid, inductionHypothesis areMacros]
      rfl

/-- What is read behind a keyword is what stands behind the first word and the blanks after it. -/
theorem anyKeyword?_sound
    {keywords : List Text}
    (inWord : ∀ word ∈ keywords, ∀ c ∈ word, isWord c = true)
    (read : anyKeyword? keywords text = some rest) :
    firstWord text ∈ keywords ∧ gap? (afterWord text) = some rest := by
  obtain ⟨word, isKeyword, read⟩ := List.exists_of_findSome?_eq_some read
  obtain ⟨next, started, gap⟩ := Option.bind_eq_some_iff.1 read
  obtain rfl := after?_eq_some_iff.1 started
  obtain ⟨blanks, split, isGap⟩ := gap?_split gap
  have ended : EndsWord next := split ▸ isGap.endsWord_append rest
  rw [firstWord_append (inWord word isKeyword) ended, afterWord_append (inWord word isKeyword) ended]
  exact ⟨isKeyword, gap⟩

theorem anyKeyword?_complete
    {keywords : List Text}
    (inWord : ∀ word ∈ keywords, ∀ c ∈ word, isWord c = true)
    (isKeyword : word ∈ keywords)
    (isGap : IsGap gap) (rest : Text) :
    anyKeyword? keywords (word ++ (gap ++ rest)) = some (trimStart rest) := by
  have read := keyword?_complete isGap word rest
  cases other : anyKeyword? keywords (word ++ (gap ++ rest)) with
  | none =>
      rw [anyKeyword?, List.findSome?_eq_none_iff] at other
      rw [other word isKeyword] at read
      simp at read
  | some found =>
      have behind := (anyKeyword?_sound inWord other).2
      rw [afterWord_append (inWord word isKeyword) (isGap.endsWord_append rest),
        gap?_complete isGap] at behind
      exact behind.symm

theorem afterKeywords_eq (keywords : List Text) (text : Text) :
    afterKeywords keywords text =
      match anyKeyword? keywords text with
      | none => [text]
      | some rest => afterKeywords keywords rest ++ [text] := by
  rw [afterKeywords, afterMany]
  split
  next unread => rw [unread]
  next rest read => rw [read]

theorem mem_afterKeywords_self (keywords : List Text) (text : Text) :
    text ∈ afterKeywords keywords text := by
  rw [afterKeywords_eq]
  split <;> simp

theorem KeywordRun.isWord_or_isBlank
    {keywords : List Text} {lead : Text}
    (run : KeywordRun keywords lead)
    (areWords : ∀ word ∈ keywords, IsIdent word) :
    ∀ c ∈ lead, isWord c = true ∨ isBlank c = true := by
  induction run with
  | nil => simp
  | cons isKeyword isGap _ inductionHypothesis =>
      simp only [List.forall_mem_append]
      exact ⟨fun c member => .inl ((areWords _ isKeyword).isWord c member),
        fun c member => .inr (isGap.2 c member), inductionHypothesis⟩

/-- The place behind a run of keywords is among those that are read. -/
theorem KeywordRun.mem_afterKeywords
    {keywords : List Text} {lead : Text}
    (run : KeywordRun keywords lead)
    (areWords : ∀ word ∈ keywords, IsIdent word)
    (solid : trimStart rest = rest) :
    rest ∈ afterKeywords keywords (lead ++ rest) := by
  have inWord : ∀ word ∈ keywords, ∀ c ∈ word, isWord c = true :=
    fun word isKeyword => (areWords word isKeyword).isWord
  induction run with
  | nil => exact mem_afterKeywords_self keywords rest
  | @cons word gap lead isKeyword isGap run inductionHypothesis =>
      have leadSolid : trimStart (lead ++ rest) = lead ++ rest := by
        cases run with
        | nil => exact solid
        | @cons word gap lead isKeyword isGap run =>
            rw [List.append_assoc]
            exact (areWords word isKeyword).trimStart_append _
      rw [List.append_assoc, List.append_assoc, afterKeywords_eq,
        anyKeyword?_complete inWord isKeyword isGap, leadSolid]
      exact List.mem_append_left _ inductionHypothesis

/-- Identifiers with `::` between them, around which blanks may stand. -/
inductive QualifiedName : List Text → Text → Prop where
  | single {name : Text} : IsIdent name → QualifiedName [name] name
  | within {name before behind token : Text} {names : List Text} :
      IsIdent name → (∀ c ∈ before, isBlank c = true) → (∀ c ∈ behind, isBlank c = true) →
      QualifiedName names token →
      QualifiedName (name :: names) (name ++ (before ++ ("::".toList ++ (behind ++ token))))

theorem QualifiedName.trimStart_append
    {names : List Text} {token : Text}
    (qualified : QualifiedName names token) (rest : Text) :
    trimStart (token ++ rest) = token ++ rest := by
  cases qualified with
  | single isIdent => exact isIdent.trimStart_append rest
  | within isIdent =>
      rw [List.append_assoc]
      exact isIdent.trimStart_append _

theorem scopeMark?_sound
    (read : scopeMark? text = some rest) :
    ∃ before behind, text = before ++ ("::".toList ++ (behind ++ rest)) ∧
      (∀ c ∈ before, isBlank c = true) ∧ ∀ c ∈ behind, isBlank c = true := by
  obtain ⟨next, marked, rfl⟩ := Option.map_eq_some_iff.1 read
  obtain ⟨before, split, blankBefore⟩ := exists_blanks_append_trimStart text
  obtain ⟨behind, splitNext, blankBehind⟩ := exists_blanks_append_trimStart next
  refine ⟨before, behind, ?_, blankBefore, blankBehind⟩
  rw [← splitNext, ← after?_eq_some_iff.1 marked, ← split]

/-- What is read as a qualified name is one, and it ends a word. -/
theorem qualifiedName?_sound
    {names : List Text}
    (read : qualifiedName? text = some (names, rest)) :
    ∃ token, text = token ++ rest ∧ QualifiedName names token ∧ EndsWord rest := by
  induction length : text.length using Nat.strong_induction_on generalizing text names rest with
  | _ bound inductionHypothesis =>
      rw [qualifiedName?_eq] at read
      obtain ⟨⟨name, behind⟩, first, read⟩ := Option.map_eq_some_iff.1 read
      obtain ⟨whole, isIdent, ended⟩ := ident?_sound first
      cases deep : (scopeMark? behind).bind qualifiedName? with
      | none =>
          simp only [deep, Prod.mk.injEq] at read
          rw [← read.1, ← read.2]
          exact ⟨name, whole, .single isIdent, ended⟩
      | some more =>
          obtain ⟨next, marked, deeper⟩ := Option.bind_eq_some_iff.1 deep
          simp only [deep, Prod.mk.injEq] at read
          obtain ⟨before, blanks, split, blankBefore, blankBehind⟩ := scopeMark?_sound marked
          have shorter := length_ident?_lt first
          have noLonger := length_scopeMark?_le marked
          obtain ⟨token, rfl, qualified, ends⟩ :=
            inductionHypothesis next.length (by omega) deeper rfl
          rw [← read.1, ← read.2]
          refine ⟨_, ?_, .within isIdent blankBefore blankBehind qualified, ends⟩
          rw [whole, split]
          simp

/-- A qualified name is read up to its end, unless it goes on behind a further `::`. -/
theorem QualifiedName.qualifiedName?_append
    {names : List Text} {token : Text}
    (qualified : QualifiedName names token)
    (ended : EndsWord rest)
    (noScope : (scopeMark? rest).bind qualifiedName? = none) :
    qualifiedName? (token ++ rest) = some (names, rest) := by
  induction qualified with
  | single isIdent =>
      rw [qualifiedName?_eq, ident?_complete isIdent ended, Option.map_some, noScope]
  | @within name before behind token names isIdent blankBefore blankBehind qualified
      inductionHypothesis =>
      have endedName : EndsWord (before ++ ("::".toList ++ (behind ++ (token ++ rest)))) :=
        endsWord_append_of_isBlank blankBefore (endsWord_cons (by decide) _)
      have marked : scopeMark? (before ++ ("::".toList ++ (behind ++ (token ++ rest)))) =
          some (token ++ rest) := by
        have colon : trimStart ("::".toList ++ (behind ++ (token ++ rest))) =
            "::".toList ++ (behind ++ (token ++ rest)) :=
          trimStart_eq_self (by simp; decide)
        rw [scopeMark?, trimStart_append_of_isBlank blankBefore, colon, after?_self_append,
          Option.map_some, trimStart_append_of_isBlank blankBehind, qualified.trimStart_append]
      simp only [List.append_assoc]
      rw [qualifiedName?_eq, ident?_complete isIdent endedName, Option.map_some, marked,
        Option.bind_some, inductionHypothesis]

end Upkeep
