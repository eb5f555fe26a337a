import Upkeep.Proofs.Text.Trim
import Upkeep.Text.Name

/-!
Reading names and keywords from a text whose blanks at the end are gone.  A word is read as
before.  Only a gap can be missing: one that reached to the end of the text, behind which
nothing was left to read.
-/

namespace Upkeep

open Unicode

variable {word text rest : Text}

theorem isBlank_eq_false_of_isWord
    {c : Char}
    (inWord : isWord c = true) :
    isBlank c = false := by
  by_contra blank
  rw [Bool.not_eq_false] at blank
  rw [isWord_eq_false_of_isBlank blank] at inWord
  simp at inWord

theorem isBlank_eq_false_of_isIdentStart
    {c : Char}
    (starts : isIdentStart c = true) :
    isBlank c = false :=
  isBlank_eq_false_of_isWord (isWord_of_isIdentStart starts)

theorem firstWord_trimEnd (text : Text) : firstWord (trimEnd text) = firstWord text :=
  takeWhile_dropEnd (fun _ => isWord_eq_false_of_isBlank) text

theorem afterWord_trimEnd (text : Text) : afterWord (trimEnd text) = trimEnd (afterWord text) :=
  (dropEnd_dropWhile isBlank isWord text).symm

theorem after?_trimEnd
    (solid : ∀ c ∈ word, isBlank c = false) (text : Text) :
    after? word (trimEnd text) = (after? word text).map trimEnd := by
  induction word generalizing text with
  | nil => simp [after?]
  | cons s word inductionHypothesis =>
      rw [List.forall_mem_cons] at solid
      cases text with
      | nil => simp [after?]
      | cons c rest =>
          by_cases same : s = c
          · subst same
            rw [trimEnd_cons_of_not_isBlank solid.1]
            simpa [after?] using inductionHypothesis solid.2 rest
          · rw [trimEnd_cons]
            split
            · simp [after?, same]
            · simp [after?, same]

theorem isPrefix_trimEnd_iff
    (solid : ∀ c ∈ word, isBlank c = false) :
    word <+: trimEnd text ↔ word <+: text := by
  have started : ∀ text, word <+: text ↔ (after? word text).isSome = true := by
    intro text
    rw [Option.isSome_iff_exists]
    exact exists_congr fun rest => eq_comm.trans after?_eq_some_iff.symm
  rw [started, started, after?_trimEnd solid, Option.isSome_map]

theorem ident?_trimEnd (text : Text) :
    ident? (trimEnd text) = (ident? text).map fun read => (read.1, trimEnd read.2) := by
  cases text with
  | nil => rfl
  | cons c rest =>
      by_cases starts : isIdentStart c = true
      · have solid := isBlank_eq_false_of_isIdentStart starts
        have words := firstWord_trimEnd (c :: rest)
        have behind := afterWord_trimEnd (c :: rest)
        rw [trimEnd_cons_of_not_isBlank solid] at words behind ⊢
        simp [ident?, starts, words, behind]
      · rw [trimEnd_cons]
        split
        · simp [ident?, starts]
        · simp [ident?, starts]

/-- A reader that needs something to read finds the same behind a gap. -/
theorem bind_gap?_trimEnd
    {Result : Type} {read : Text → Option Result}
    (needs : read [] = none) (text : Text) :
    (gap? (trimEnd text)).bind read = (gap? text).bind fun rest => read (trimEnd rest) := by
  cases text with
  | nil => rfl
  | cons c rest =>
      rw [trimEnd_cons]
      by_cases blank : isBlank c = true
      · by_cases empty : trimEnd rest = []
        · have nothing : trimStart rest = [] := trimEnd_eq_nil_iff.1 empty
          simp [gap?, blank, empty, nothing, needs]
        · simp [gap?, blank, empty, trimEnd_trimStart]
      · simp [gap?, blank]

theorem bind_keyword?_trimEnd
    {Result : Type} {read : Text → Option Result}
    (solid : ∀ c ∈ word, isBlank c = false)
    (needs : read [] = none) (text : Text) :
    (keyword? word (trimEnd text)).bind read =
      (keyword? word text).bind fun rest => read (trimEnd rest) := by
  rw [keyword?, keyword?, after?_trimEnd solid, Option.bind_assoc, Option.bind_assoc,
    Option.bind_map]
  congr 1
  funext rest
  exact bind_gap?_trimEnd needs rest

theorem isIdentStart_of_isUpper
    {c : Char}
    (upper : c.isUpper = true) :
    isIdentStart c = true := by
  have letter : c.isAlpha = true := Bool.or_eq_true_iff.2 (.inl upper)
  rw [isIdentStart, letter, Bool.true_or]

theorem isIdentStart_of_isMacroStart
    {c : Char}
    (starts : isMacroStart c = true) :
    isIdentStart c = true := by
  simp only [isMacroStart, Bool.or_eq_true] at starts
  rcases starts with upper | underscore
  · exact isIdentStart_of_isUpper upper
  · simp [isIdentStart, underscore]

theorem isWord_of_isMacroStart
    {c : Char}
    (starts : isMacroStart c = true) :
    isWord c = true :=
  isWord_of_isIdentStart (isIdentStart_of_isMacroStart starts)

theorem bind_macro?_trimEnd
    {Result : Type} {read : Text → Option Result}
    (needs : read [] = none) (text : Text) :
    (macro? (trimEnd text)).bind read = (macro? text).bind fun rest => read (trimEnd rest) := by
  cases text with
  | nil => rfl
  | cons c rest =>
      by_cases starts : isMacroStart c = true
      · have solid := isBlank_eq_false_of_isWord (isWord_of_isMacroStart starts)
        have behind : (trimEnd (c :: rest)).dropWhile isMacroChar =
            trimEnd ((c :: rest).dropWhile isMacroChar) :=
          (dropEnd_dropWhile isBlank isMacroChar (c :: rest)).symm
        have gap := bind_gap?_trimEnd needs ((c :: rest).dropWhile isMacroChar)
        rw [← behind, trimEnd_cons_of_not_isBlank solid] at gap
        rw [trimEnd_cons_of_not_isBlank solid]
        simpa only [macro?, if_pos starts] using gap
      · rw [trimEnd_cons]
        split
        · simp [macro?, starts]
        · simp [macro?, starts]

theorem scopeMark?_trimEnd (text : Text) :
    scopeMark? (trimEnd text) = (scopeMark? text).map trimEnd := by
  have solid : ∀ c ∈ "::".toList, isBlank c = false := isBlank_eq_false_of_all (by decide)
  rw [scopeMark?, scopeMark?, ← trimEnd_trimStart, after?_trimEnd solid, Option.map_map,
    Option.map_map]
  congr 1
  funext rest
  exact (trimEnd_trimStart rest).symm

/-- A qualified name by what follows the mark behind its first part. -/
theorem qualifiedName?_eq (text : Text) :
    qualifiedName? text =
      (ident? text).map fun read =>
        match (scopeMark? read.2).bind qualifiedName? with
        | none => ([read.1], read.2)
        | some (names, rest) => (read.1 :: names, rest) := by
  conv => lhs; rw [qualifiedName?]
  split
  next unread => simp [unread]
  next name rest first =>
    rw [first, Option.map_some]
    split
    next unmarked => simp [unmarked]
    next next_ marked =>
      rw [marked, Option.bind_some]
      split <;> simp_all

theorem qualifiedName?_trimEnd (text : Text) :
    qualifiedName? (trimEnd text) =
      (qualifiedName? text).map fun read => (read.1, trimEnd read.2) := by
  induction length : text.length using Nat.strong_induction_on generalizing text with
  | _ bound inductionHypothesis =>
      rw [qualifiedName?_eq, qualifiedName?_eq, ident?_trimEnd]
      cases first : ident? text with
      | none => rfl
      | some read =>
          obtain ⟨name, rest⟩ := read
          have behind : (scopeMark? (trimEnd rest)).bind qualifiedName? =
              ((scopeMark? rest).bind qualifiedName?).map fun read =>
                (read.1, trimEnd read.2) := by
            rw [scopeMark?_trimEnd]
            cases marked : scopeMark? rest with
            | none => rfl
            | some next =>
                have shorter := length_ident?_lt first
                have noLonger := length_scopeMark?_le marked
                exact inductionHypothesis next.length (by omega) next rfl
          simp only [Option.map_some, behind]
          cases (scopeMark? rest).bind qualifiedName? with
          | none => rfl
          | some read => rfl

/-- The name after the macros, by whether there is a macro at the start. -/
theorem nameAfterMacros?_eq (accepts : Text → Bool) (text : Text) :
    nameAfterMacros? accepts text =
      ((macro? text).bind (nameAfterMacros? accepts)).or
        ((ident? text).bind fun read => if accepts read.2 then some read.1 else none) := by
  unfold nameAfterMacros?
  rw [afterMany]
  split
  next unread => simp [unread]
  next rest read => simp [read, List.findSome?_append]

/-- Whether the last character that is not blank is a colon. -/
def endsInColon (text : Text) : Bool :=
  (trimEnd text).getLast? == some ':'

@[simp]
theorem endsInColon_trimEnd (text : Text) : endsInColon (trimEnd text) = endsInColon text := by
  rw [endsInColon, trimEnd_trimEnd, endsInColon]

theorem endsInColon_of_isSuffix
    (suffix : rest <:+ text)
    (plain : endsInColon text = false) :
    endsInColon rest = false := by
  obtain ⟨front, rfl⟩ := suffix
  by_cases empty : trimEnd rest = []
  · simp [endsInColon, empty]
  · have whole : trimEnd (front ++ rest) = front ++ trimEnd rest :=
      dropEnd_append_of_ne_nil empty front
    rwa [endsInColon, whole, List.getLast?_append_of_ne_nil _ empty] at plain

theorem trimStart_isSuffix (text : Text) : trimStart text <:+ text :=
  List.dropWhile_suffix isBlank

theorem gap?_isSuffix (read : gap? text = some rest) : rest <:+ text := by
  unfold gap? at read
  split at read
  · simp at read
  next c tail =>
    split at read
    · rw [Option.some.injEq] at read
      rw [← read]
      exact (trimStart_isSuffix tail).trans (List.suffix_cons c tail)
    · simp at read

theorem keyword?_nil (word : Text) (some_ : word ≠ []) : keyword? word [] = none := by
  cases word with
  | nil => exact absurd rfl some_
  | cons s word => simp [keyword?, after?]

/-- A text does not start with two keywords of different first characters. -/
theorem keyword?_eq_none_of_keyword?
    {other : Text}
    (some_ : word ≠ [] ∧ other ≠ [])
    (apart : word.head? ≠ other.head?)
    (read : keyword? word text = some rest) :
    keyword? other text = none := by
  have starts : ∀ {start rest : Text}, start ≠ [] → keyword? start text = some rest →
      text.head? = start.head? := by
    intro start rest nonempty read
    obtain ⟨next, begun, _⟩ := Option.bind_eq_some_iff.1 read
    rw [after?_eq_some_iff.1 begun, List.head?_append_of_ne_nil _ nonempty]
  rw [Option.eq_none_iff_forall_ne_some]
  intro rest readOther
  exact apart ((starts some_.1 read).symm.trans (starts some_.2 readOther))

theorem keyword?_isSuffix (read : keyword? word text = some rest) : rest <:+ text := by
  obtain ⟨next, started, gap⟩ := Option.bind_eq_some_iff.1 read
  rw [after?_eq_some_iff] at started
  exact (gap?_isSuffix gap).trans ⟨word, started.symm⟩

theorem macro?_isSuffix (read : macro? text = some rest) : rest <:+ text := by
  unfold macro? at read
  split at read
  · simp at read
  · split at read
    · exact (gap?_isSuffix read).trans (List.dropWhile_suffix isMacroChar)
    · simp at read

theorem ident?_isSuffix
    {name : Text}
    (read : ident? text = some (name, rest)) :
    rest <:+ text :=
  ⟨name, ident?_split read⟩

theorem nameAfterMacros?_trimEnd
    {accepts : Text → Bool}
    (blind : ∀ rest, endsInColon rest = false → accepts (trimEnd rest) = accepts rest)
    (plain : endsInColon text = false) :
    nameAfterMacros? accepts (trimEnd text) = nameAfterMacros? accepts text := by
  induction length : text.length using Nat.strong_induction_on generalizing text with
  | _ bound inductionHypothesis =>
      have macros : ((macro? (trimEnd text)).bind (nameAfterMacros? accepts)) =
          (macro? text).bind (nameAfterMacros? accepts) := by
        rw [bind_macro?_trimEnd (by simp [nameAfterMacros?_eq, macro?, ident?])]
        cases read : macro? text with
        | none => rfl
        | some rest =>
            have shorter := length_macro?_lt read
            have plainRest := endsInColon_of_isSuffix (macro?_isSuffix read) plain
            exact inductionHypothesis rest.length (by omega) plainRest rfl
      rw [nameAfterMacros?_eq, nameAfterMacros?_eq accepts text, macros, ident?_trimEnd]
      cases read : ident? text with
      | none => rfl
      | some named =>
          have plainRest := endsInColon_of_isSuffix (ident?_isSuffix read) plain
          simp [blind named.2 plainRest]

end Upkeep
