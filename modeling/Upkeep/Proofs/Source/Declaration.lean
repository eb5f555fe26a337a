import Upkeep.Proofs.Text.Name
import Upkeep.Source.Declaration

/-!
Blanks at the end of a line of code take part in a declaration in one case only: right behind
a colon, where a base clause or an underlying type must begin.
-/

namespace Upkeep

open Unicode

variable {text rest code : Text}

/-- Behind a colon something is left when the blanks at the end are gone. -/
theorem trimEnd_colon_cons
    {c : Char}
    (plain : endsInColon (':' :: c :: rest) = false) :
    trimEnd (':' :: c :: rest) = ':' :: c :: trimEnd rest := by
  rw [trimEnd_cons_of_not_isBlank (by decide)]
  have more : trimEnd (c :: rest) ≠ [] := by
    intro empty
    rw [endsInColon, trimEnd_cons_of_not_isBlank (by decide), empty] at plain
    simp at plain
  rw [trimEnd_cons] at more ⊢
  split
  next dropped => simp [dropped] at more
  · rfl

theorem opensOrEnds_trimEnd (solid : trimStart text = text) :
    opensOrEnds (trimEnd text) = opensOrEnds text := by
  cases text with
  | nil => rfl
  | cons c rest =>
      rw [trimEnd_cons_of_not_isBlank (isBlank_eq_false_of_trimStart_cons solid)]
      rfl

/-- Whether a base clause begins here, or the body, or the declaration ends. -/
def opensBaseOrEnds : Text → Bool
  | ':' :: c :: _ => c != ':'
  | rest => opensOrEnds rest

theorem opensBaseOrEnds_of_ne_colon
    {c : Char}
    (noColon : c ≠ ':') (rest : Text) :
    opensBaseOrEnds (c :: rest) = opensOrEnds (c :: rest) := by
  unfold opensBaseOrEnds
  split
  next first more same => exact absurd (List.cons.inj same).1 noColon
  · rfl

theorem opensBaseOrEnds_trimEnd
    (solid : trimStart text = text)
    (plain : endsInColon text = false) :
    opensBaseOrEnds (trimEnd text) = opensBaseOrEnds text := by
  cases text with
  | nil => rfl
  | cons c rest =>
      by_cases colon : c = ':'
      · subst colon
        cases rest with
        | nil => exact absurd plain (by decide)
        | cons next more =>
            rw [trimEnd_colon_cons plain]
            rfl
      · have alike := opensOrEnds_trimEnd solid
        rw [trimEnd_cons_of_not_isBlank (isBlank_eq_false_of_trimStart_cons solid)] at alike ⊢
        rw [opensBaseOrEnds_of_ne_colon colon, opensBaseOrEnds_of_ne_colon colon, alike]

theorem endsRecordHead_eq (rest : Text) :
    endsRecordHead rest =
      opensBaseOrEnds
        (if firstWord (trimStart rest) = "final".toList then
          trimStart (afterWord (trimStart rest))
        else trimStart rest) :=
  rfl

theorem endsRecordHead_trimEnd
    (plain : endsInColon rest = false) :
    endsRecordHead (trimEnd rest) = endsRecordHead rest := by
  have behind := endsInColon_of_isSuffix (trimStart_isSuffix rest) plain
  rw [endsRecordHead_eq, endsRecordHead_eq, ← trimEnd_trimStart, firstWord_trimEnd,
    afterWord_trimEnd, ← trimEnd_trimStart]
  by_cases final : firstWord (trimStart rest) = "final".toList
  · rw [if_pos final, if_pos final]
    apply opensBaseOrEnds_trimEnd
    · exact trimStart_trimStart _
    · apply endsInColon_of_isSuffix _ behind
      exact (trimStart_isSuffix _).trans (List.dropWhile_suffix isWord)
  · rw [if_neg final, if_neg final]
    exact opensBaseOrEnds_trimEnd (trimStart_trimStart rest) behind

theorem isUnderlyingTypeChar_of_isBlank
    {c : Char}
    (blank : isBlank c = true) :
    isUnderlyingTypeChar c = true := by
  simp [isUnderlyingTypeChar, blank]

theorem trimStart_dropWhile_isUnderlyingTypeChar (base : Text) :
    trimStart (base.dropWhile isUnderlyingTypeChar) = base.dropWhile isUnderlyingTypeChar := by
  cases left : base.dropWhile isUnderlyingTypeChar with
  | nil => rfl
  | cons c rest =>
      have first := List.head?_dropWhile_not isUnderlyingTypeChar base
      have solid : ¬ isBlank c = true := by
        intro blank
        simp [left, isUnderlyingTypeChar_of_isBlank blank] at first
      rw [trimStart, List.dropWhile_cons_of_neg solid]

theorem endsEnumHead_trimEnd
    (plain : endsInColon rest = false) :
    endsEnumHead (trimEnd rest) = endsEnumHead rest := by
  have behind := endsInColon_of_isSuffix (trimStart_isSuffix rest) plain
  have solid := trimStart_trimStart rest
  rw [endsEnumHead, endsEnumHead, ← trimEnd_trimStart]
  generalize trimStart rest = head at behind solid
  cases head with
  | nil => rfl
  | cons c base =>
      by_cases colon : c = ':'
      · subst colon
        cases base with
        | nil => exact absurd behind (by decide)
        | cons first more =>
            have left := opensOrEnds_trimEnd
              (trimStart_dropWhile_isUnderlyingTypeChar (first :: more))
            rw [trimEnd, dropEnd_dropWhile] at left
            have whole := trimEnd_colon_cons behind
            have tail : trimEnd (first :: more) = first :: trimEnd more := by
              rw [trimEnd_cons_of_not_isBlank (by decide)] at whole
              exact (List.cons.inj whole).2
            rw [← trimEnd, tail] at left
            rw [whole]
            simp only [left]
      · have alike := opensOrEnds_trimEnd solid
        rw [trimEnd_cons_of_not_isBlank (isBlank_eq_false_of_trimStart_cons solid)] at alike ⊢
        simp [colon, alike]

section

variable {Result : Type}

theorem bind_keyword?_of_blind
    {word : Text} {read : Text → Option Result}
    (solid : (word.all fun c => !isBlank c) = true)
    (needs : read [] = none)
    (blind : ∀ rest, endsInColon rest = false → read (trimEnd rest) = read rest)
    (plain : endsInColon text = false) :
    (keyword? word (trimEnd text)).bind read = (keyword? word text).bind read := by
  rw [bind_keyword?_trimEnd (isBlank_eq_false_of_all solid) needs]
  cases started : keyword? word text with
  | none => rfl
  | some rest => exact blind rest (endsInColon_of_isSuffix (keyword?_isSuffix started) plain)

/-- A head is found at the same place if the reader of the head finds nothing in an empty text. -/
theorem findHead?_trimEnd
    {barrier : Char → Bool} {head? : Text → Option Result}
    (needs : head? [] = none)
    (blind : ∀ rest, endsInColon rest = false → head? (trimEnd rest) = head? rest)
    (plain : endsInColon text = false) (inWord : Bool) :
    findHead? barrier head? inWord (trimEnd text) = findHead? barrier head? inWord text := by
  induction text generalizing inWord with
  | nil => rfl
  | cons c rest inductionHypothesis =>
      have below := inductionHypothesis (endsInColon_of_isSuffix (List.suffix_cons c rest) plain)
      have here := blind (c :: rest) plain
      rw [trimEnd_cons] at here ⊢
      split at here
      next dropped =>
        rw [if_pos dropped]
        rw [dropped.2] at below
        have nothing : (if inWord = true then none else head? (c :: rest)) = none := by
          rw [← here, needs, ite_self]
        rw [findHead?, findHead?, nothing, ← below]
        simp [findHead?]
      next kept =>
        rw [if_neg kept, findHead?, findHead?, here, below]

end

theorem nameAfterMacros?_nil (accepts : Text → Bool) : nameAfterMacros? accepts [] = none := by
  simp [nameAfterMacros?_eq, macro?, ident?]

theorem recordHead?_trimEnd
    (plain : endsInColon text = false) :
    recordHead? (trimEnd text) = recordHead? text := by
  have each : ∀ (word : String) (kind : DeclarationKind),
      (word.toList.all fun c => !isBlank c) = true →
      ((keyword? word.toList (trimEnd text)).bind fun rest =>
          (nameAfterMacros? endsRecordHead rest).map fun name => (kind, name)) =
        (keyword? word.toList text).bind fun rest =>
          (nameAfterMacros? endsRecordHead rest).map fun name => (kind, name) := by
    intro word kind solid
    apply bind_keyword?_of_blind solid
    · rw [nameAfterMacros?_nil, Option.map_none]
    · intro rest plain
      rw [nameAfterMacros?_trimEnd (fun _ => endsRecordHead_trimEnd) plain]
    · exact plain
  simp only [recordHead?, List.findSome?_cons, List.findSome?_nil]
  rw [each "class" _ (by decide), each "struct" _ (by decide), each "union" _ (by decide)]

/-- A text does not start with two different keywords. -/
theorem bind_or_keyword?
    {Result : Type}
    (read : Text → Option Result) (text : Text) :
    ((keyword? "class".toList text).or (keyword? "struct".toList text)).bind read =
      ((keyword? "class".toList text).bind read).or
        ((keyword? "struct".toList text).bind read) := by
  cases started : keyword? "class".toList text with
  | none => rfl
  | some rest =>
      have noStruct : keyword? "struct".toList text = none :=
        keyword?_eq_none_of_keyword? (by decide) (by decide) started
      rw [noStruct, Option.or_none, Option.bind_none, Option.or_none]

theorem enumHead?_trimEnd
    (plain : endsInColon text = false) :
    enumHead? (trimEnd text) = enumHead? text := by
  have name : ∀ rest, endsInColon rest = false →
      nameAfterMacros? endsEnumHead (trimEnd rest) = nameAfterMacros? endsEnumHead rest :=
    fun rest => nameAfterMacros?_trimEnd fun _ => endsEnumHead_trimEnd
  unfold enumHead?
  simp only [bind_or_keyword?]
  apply bind_keyword?_of_blind (by decide)
  · simp [nameAfterMacros?_nil, keyword?, after?]
  · intro rest plain
    rw [name rest plain,
      bind_keyword?_of_blind (by decide) (nameAfterMacros?_nil _) name plain,
      bind_keyword?_of_blind (by decide) (nameAfterMacros?_nil _) name plain]
  · exact plain

/-- What stands behind the array bounds of an alias. -/
def afterBounds : Text → Text
  | '[' :: bounds =>
      match bounds.dropWhile (· != ']') with
      | [] => '[' :: bounds
      | _ :: rest => trimStart rest
  | text => text

theorem afterBounds_of_ne
    {c : Char}
    (noBracket : c ≠ '[') (rest : Text) :
    afterBounds (c :: rest) = c :: rest := by
  unfold afterBounds
  split
  next bounds same => exact absurd (List.cons.inj same).1 noBracket
  · rfl

theorem aliasedName?_eq (text : Text) :
    aliasedName? text =
      (ident? text).bind fun read =>
        if (afterBounds (trimStart read.2)).head? = some ';' then some read.1 else none := by
  unfold aliasedName?
  congr 1
  funext read
  obtain ⟨name, rest⟩ := read
  dsimp only
  generalize trimStart rest = behind
  cases behind with
  | nil => rfl
  | cons c tail =>
      by_cases bracket : c = '['
      · subst bracket
        cases closed : tail.dropWhile (· != ']') with
        | nil => simp [afterBounds, closed]
        | cons last more =>
            simp only [afterBounds, closed]
            generalize trimStart more = left
            cases left with
            | nil => rfl
            | cons d _ => by_cases semicolon : d = ';' <;> simp [semicolon]
      · rw [afterBounds_of_ne bracket]
        by_cases semicolon : c = ';' <;> simp [semicolon, bracket]

theorem head?_afterBounds_trimEnd (solid : trimStart text = text) :
    (afterBounds (trimEnd text)).head? = (afterBounds text).head? := by
  cases text with
  | nil => rfl
  | cons c rest =>
      rw [trimEnd_cons_of_not_isBlank (isBlank_eq_false_of_trimStart_cons solid)]
      by_cases bracket : c = '['
      · subst bracket
        have behind : (trimEnd rest).dropWhile (· != ']') = trimEnd (rest.dropWhile (· != ']')) :=
          (dropEnd_dropWhile isBlank (· != ']') rest).symm
        have closing := List.head?_dropWhile_not (· != ']') rest
        rw [afterBounds, afterBounds, behind]
        cases closed : rest.dropWhile (· != ']') with
        | nil => rfl
        | cons last more =>
            have isBracket : last = ']' := by simpa [closed] using closing
            subst isBracket
            rw [trimEnd_cons_of_not_isBlank (by decide)]
            exact head?_trimStart_trimEnd more
      · rw [afterBounds_of_ne bracket, afterBounds_of_ne bracket]
        rfl

theorem aliasedName?_trimEnd (text : Text) : aliasedName? (trimEnd text) = aliasedName? text := by
  rw [aliasedName?_eq, aliasedName?_eq, ident?_trimEnd]
  cases ident? text with
  | none => rfl
  | some read =>
      simp only [Option.map_some, Option.bind_some, ← trimEnd_trimStart,
        head?_afterBounds_trimEnd (trimStart_trimStart read.2)]

theorem usingName?_eq (text : Text) :
    usingName? text =
      (keyword? "using".toList text).bind fun rest =>
        (ident? rest).bind fun read =>
          if (trimStart read.2).head? = some '=' then some read.1 else none := by
  unfold usingName?
  congr 1
  funext rest
  congr 1
  funext read
  obtain ⟨name, rest⟩ := read
  dsimp only
  generalize trimStart rest = behind
  cases behind with
  | nil => rfl
  | cons c tail => by_cases same : c = '=' <;> simp [same]

theorem usingName?_trimEnd
    (plain : endsInColon text = false) :
    usingName? (trimEnd text) = usingName? text := by
  rw [usingName?_eq, usingName?_eq]
  apply bind_keyword?_of_blind (by decide)
  · rfl
  · intro rest _
    rw [ident?_trimEnd]
    cases ident? rest with
    | none => rfl
    | some read =>
        simp only [Option.map_some, Option.bind_some, head?_trimStart_trimEnd]
  · exact plain

/-- The names of the scopes that a line opens, read from the word `namespace` on. -/
def scopesAt? (text : Text) : Option (List Text) :=
  (keyword? "namespace".toList text).bind fun rest =>
    (qualifiedName? rest).bind fun read =>
      if (trimStart read.2).head?.all (· == '{') then some read.1 else none

theorem scopeNames?_eq (text : Text) :
    scopeNames? text =
      ((keyword? "inline".toList text).bind scopesAt?).or (scopesAt? text) := by
  have read : scopeNames? text = scopesAt? ((keyword? "inline".toList text).getD text) := by
    unfold scopeNames? scopesAt?
    dsimp only
    congr 1
    funext rest
    congr 1
    funext read
    obtain ⟨names, rest⟩ := read
    dsimp only
    generalize trimStart rest = behind
    cases behind <;> simp
  rw [read]
  cases started : keyword? "inline".toList text with
  | none => rfl
  | some rest =>
      have noScope : keyword? "namespace".toList text = none :=
        keyword?_eq_none_of_keyword? (by decide) (by decide) started
      have nothing : scopesAt? text = none := by rw [scopesAt?, noScope, Option.bind_none]
      rw [nothing, Option.or_none]
      rfl

theorem scopesAt?_trimEnd
    (plain : endsInColon text = false) :
    scopesAt? (trimEnd text) = scopesAt? text := by
  apply bind_keyword?_of_blind (by decide)
  · rw [qualifiedName?_eq]
    rfl
  · intro rest _
    rw [qualifiedName?_trimEnd]
    cases qualifiedName? rest with
    | none => rfl
    | some read =>
        simp only [Option.map_some, Option.bind_some, head?_trimStart_trimEnd]
  · exact plain

theorem scopeNames?_trimEnd
    (plain : endsInColon text = false) :
    scopeNames? (trimEnd text) = scopeNames? text := by
  have needs : scopesAt? [] = none := by
    rw [scopesAt?, keyword?_nil "namespace".toList (by decide), Option.bind_none]
  rw [scopeNames?_eq, scopeNames?_eq, scopesAt?_trimEnd plain,
    bind_keyword?_of_blind (by decide) needs (fun _ => scopesAt?_trimEnd) plain]

theorem typedefName?_trimEnd
    (plain : endsInColon text = false) :
    typedefName? (trimEnd text) = typedefName? text := by
  apply bind_keyword?_of_blind (by decide)
  · rfl
  · intro rest plain
    rw [findHead?_trimEnd (by rfl) (fun rest _ => aliasedName?_trimEnd rest) plain]
  · exact plain

theorem recordHead?_nil : recordHead? [] = none := by
  simp [recordHead?, keyword?, after?]

theorem enumHead?_nil : enumHead? [] = none := by
  rw [enumHead?, keyword?_nil "enum".toList (by decide), Option.bind_none]

theorem typeNames_trimEnd
    {head? : Text → Option (DeclarationKind × Text)}
    (needs : head? [] = none)
    (blind : ∀ rest, endsInColon rest = false → head? (trimEnd rest) = head? rest)
    (plain : endsInColon text = false) :
    typeNames head? (trimEnd text) = typeNames head? text := by
  rw [typeNames, typeNames, findHead?_trimEnd needs blind plain]

/-- Blanks at the end of a line of code change what it declares at most behind a colon. -/
theorem declaredBy_trimEnd
    (plain : endsInColon code = false) :
    declaredBy (trimEnd code) = declaredBy code := by
  have start := endsInColon_of_isSuffix (trimStart_isSuffix code) plain
  have enums := typeNames_trimEnd enumHead?_nil (fun _ => enumHead?_trimEnd) start
  have records := typeNames_trimEnd recordHead?_nil (fun _ => recordHead?_trimEnd) start
  simp only [declaredBy, ← trimEnd_trimStart, scopeNames?_trimEnd start,
    usingName?_trimEnd start, typedefName?_trimEnd start, enums, records]

/-- Blanks at the start of a line of code change nothing. -/
theorem declaredBy_trimStart (code : Text) : declaredBy (trimStart code) = declaredBy code := by
  rw [declaredBy, declaredBy, trimStart_trimStart]

theorem endsInColon_trim (text : Text) : endsInColon (trim text) = endsInColon text := by
  rw [endsInColon, endsInColon, ← getLast?_trim, trim_trim, getLast?_trim]

theorem declaredBy_trim
    (plain : endsInColon code = false) :
    declaredBy (trim code) = declaredBy code := by
  rw [trim_eq_trimStart, declaredBy_trimStart, declaredBy_trimEnd plain]

end Upkeep
