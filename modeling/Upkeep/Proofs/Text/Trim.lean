import Mathlib.Data.List.DropRight
import Upkeep.Text.Basic

/-!
What trimming does to the parts of a text.  Dropping characters at the end and reading at the
start do not get in each other's way, so that the two can change places.
-/

namespace Upkeep

open Unicode

section

variable {drop other : Char → Bool} {text front back : Text} {c : Char}

theorem dropEnd_cons (drop : Char → Bool) (c : Char) (rest : Text) :
    dropEnd drop (c :: rest) =
      if drop c = true ∧ dropEnd drop rest = [] then [] else c :: dropEnd drop rest := by
  rw [dropEnd]
  split
  next empty => simp [empty]
  next kept =>
    rw [if_neg]
    intro dropped
    exact kept dropped.2

theorem dropEnd_eq_rdropWhile (drop : Char → Bool) (text : Text) :
    dropEnd drop text = text.rdropWhile drop := by
  induction text using List.reverseRecOn with
  | nil => rfl
  | append_singleton front last inductionHypothesis =>
      rw [List.rdropWhile_concat]
      split
      next dropped =>
        rw [← inductionHypothesis]
        clear inductionHypothesis
        induction front with
        | nil => simp [dropEnd, dropped]
        | cons c front inductionHypothesis =>
            rw [List.cons_append, dropEnd, inductionHypothesis, dropEnd]
      next kept =>
        have keptLast : dropEnd drop [last] = [last] := by simp [dropEnd, kept]
        rw [dropEnd_append_of_ne_nil (by simp [keptLast]), keptLast]

theorem dropEnd_eq_nil_iff : dropEnd drop text = [] ↔ ∀ c ∈ text, drop c = true := by
  rw [dropEnd_eq_rdropWhile, List.rdropWhile_eq_nil_iff]

theorem dropEnd_append_of_forall
    (dropped : ∀ c ∈ back, drop c = true) (front : Text) :
    dropEnd drop (front ++ back) = dropEnd drop front := by
  induction front with
  | nil => exact dropEnd_eq_nil_iff.2 dropped
  | cons c front inductionHypothesis =>
      rw [List.cons_append, dropEnd_cons, inductionHypothesis, ← dropEnd_cons]

/-- What is dropped at the end. -/
theorem exists_append_dropEnd (drop : Char → Bool) (text : Text) :
    ∃ back, text = dropEnd drop text ++ back ∧ ∀ c ∈ back, drop c = true := by
  refine ⟨text.rtakeWhile drop, ?_, fun c => List.mem_rtakeWhile_imp⟩
  rw [dropEnd_eq_rdropWhile, List.rdropWhile_append_rtakeWhile]

theorem dropEnd_dropEnd (included : ∀ c, drop c = true → other c = true) (text : Text) :
    dropEnd other (dropEnd drop text) = dropEnd other text := by
  obtain ⟨back, split, dropped⟩ := exists_append_dropEnd drop text
  conv => rhs; rw [split]
  rw [dropEnd_append_of_forall fun c member => included c (dropped c member)]

/-- What is dropped at both ends. -/
theorem exists_append_dropWhile_dropEnd (drop : Char → Bool) (text : Text) :
    ∃ front back, text = front ++ ((dropEnd drop text).dropWhile drop ++ back) ∧
      (∀ c ∈ front, drop c = true) ∧ ∀ c ∈ back, drop c = true := by
  obtain ⟨back, whole, dropped⟩ := exists_append_dropEnd drop text
  have split : (dropEnd drop text).takeWhile drop ++ (dropEnd drop text).dropWhile drop =
      dropEnd drop text :=
    List.takeWhile_append_dropWhile
  refine ⟨(dropEnd drop text).takeWhile drop, back, ?_, ?_, dropped⟩
  · rw [← List.append_assoc, split, ← whole]
  · exact List.all_eq_true.1 List.all_takeWhile

theorem dropEnd_dropWhile (drop skip : Char → Bool) (text : Text) :
    dropEnd drop (text.dropWhile skip) = (dropEnd drop text).dropWhile skip := by
  induction text with
  | nil => rfl
  | cons c rest inductionHypothesis =>
      rw [dropEnd_cons]
      by_cases skipped : skip c = true
      · rw [List.dropWhile_cons_of_pos skipped, inductionHypothesis]
        split
        next dropped => rw [dropped.2]
        next kept => rw [List.dropWhile_cons_of_pos skipped]
      · rw [List.dropWhile_cons_of_neg skipped, dropEnd_cons]
        split
        · rfl
        next kept => rw [List.dropWhile_cons_of_neg skipped]

theorem takeWhile_dropEnd
    {take : Char → Bool}
    (apart : ∀ c, drop c = true → take c = false) (text : Text) :
    (dropEnd drop text).takeWhile take = text.takeWhile take := by
  induction text with
  | nil => rfl
  | cons c rest inductionHypothesis =>
      rw [dropEnd_cons]
      split
      next dropped => rw [List.takeWhile_cons_of_neg (by simp [apart c dropped.1])]; rfl
      next kept => rw [List.takeWhile_cons, List.takeWhile_cons, inductionHypothesis]

end

section

variable {text rest : Text}

theorem trimEnd_cons (c : Char) (rest : Text) :
    trimEnd (c :: rest) =
      if isBlank c = true ∧ trimEnd rest = [] then [] else c :: trimEnd rest :=
  dropEnd_cons isBlank c rest

theorem trimEnd_cons_of_not_isBlank
    {c : Char}
    (solid : isBlank c = false) (rest : Text) :
    trimEnd (c :: rest) = c :: trimEnd rest :=
  dropEnd_cons_of_kept solid rest

@[simp]
theorem trimEnd_nil : trimEnd [] = [] :=
  rfl

@[simp]
theorem trimStart_nil : trimStart [] = [] :=
  rfl

theorem trimEnd_eq_nil_iff : trimEnd text = [] ↔ trimStart text = [] := by
  rw [trimEnd, dropEnd_eq_nil_iff, trimStart, List.dropWhile_eq_nil_iff]

@[simp]
theorem trimEnd_trimEnd (text : Text) : trimEnd (trimEnd text) = trimEnd text :=
  dropEnd_dropEnd (fun _ dropped => dropped) text

@[simp]
theorem trimStart_trimStart (text : Text) : trimStart (trimStart text) = trimStart text :=
  List.dropWhile_idempotent isBlank text

theorem trimEnd_trimStart (text : Text) : trimEnd (trimStart text) = trimStart (trimEnd text) :=
  dropEnd_dropWhile isBlank isBlank text

theorem trim_trimStart (text : Text) : trim (trimStart text) = trim text := by
  rw [trim, trimStart_trimStart, trim]

theorem trim_trimEnd (text : Text) : trim (trimEnd text) = trim text := by
  rw [trim, trim, ← trimEnd_trimStart, trimEnd_trimEnd]

@[simp]
theorem trim_trim (text : Text) : trim (trim text) = trim text := by
  conv => lhs; arg 1; rw [trim]
  rw [trim_trimEnd, trim_trimStart]

theorem trimStart_trim (text : Text) : trimStart (trim text) = trim text := by
  rw [trim, ← trimEnd_trimStart, trimStart_trimStart]

theorem trim_eq_trimStart (text : Text) : trim text = trimStart (trimEnd text) :=
  trimEnd_trimStart text

theorem trim_eq_nil_of_isBlank (blank : ∀ c ∈ text, isBlank c = true) : trim text = [] := by
  rw [trim_eq_trimStart, trimEnd, dropEnd_eq_nil_iff.2 blank, trimStart_nil]

theorem getLast?_trim (text : Text) : (trim text).getLast? = (trimEnd text).getLast? := by
  have split : (trimEnd text).takeWhile isBlank ++ trimStart (trimEnd text) = trimEnd text :=
    List.takeWhile_append_dropWhile
  rw [trim_eq_trimStart]
  by_cases empty : trimStart (trimEnd text) = []
  · rw [← trimEnd_eq_nil_iff, trimEnd_trimEnd] at empty
    rw [empty, trimStart_nil]
  · conv => rhs; rw [← split]
    rw [List.getLast?_append_of_ne_nil _ empty]

/-- The blanks around a text. -/
theorem exists_append_trim (text : Text) :
    ∃ front back, text = front ++ (trim text ++ back) ∧
      (∀ c ∈ front, isBlank c = true) ∧ ∀ c ∈ back, isBlank c = true := by
  rw [trim_eq_trimStart]
  exact exists_append_dropWhile_dropEnd isBlank text

theorem trimStart_append_of_isBlank
    {front : Text}
    (blank : ∀ c ∈ front, isBlank c = true) (text : Text) :
    trimStart (front ++ text) = trimStart text := by
  rw [trimStart, List.dropWhile_append_of_pos blank, trimStart]

theorem trimStart_append_of_ne_nil
    {front : Text}
    (solid : trimStart front ≠ []) (back : Text) :
    trimStart (front ++ back) = trimStart front ++ back := by
  rw [trimStart, List.dropWhile_append, if_neg]
  · rfl
  · rwa [List.isEmpty_iff]

theorem exists_blanks_append_trimStart (text : Text) :
    ∃ blanks, text = blanks ++ trimStart text ∧ ∀ c ∈ blanks, isBlank c = true :=
  ⟨text.takeWhile isBlank, List.takeWhile_append_dropWhile.symm,
    List.all_eq_true.1 List.all_takeWhile⟩

theorem trim_append_append_of_isBlank
    {front back : Text}
    (blankFront : ∀ c ∈ front, isBlank c = true)
    (blankBack : ∀ c ∈ back, isBlank c = true) (text : Text) :
    trim (front ++ (text ++ back)) = trim text := by
  rw [trim, trimStart_append_of_isBlank blankFront, trimEnd_trimStart, trimEnd,
    dropEnd_append_of_forall blankBack, trim_eq_trimStart, trimEnd]

theorem ne_of_isBlank
    {c d : Char}
    (blank : isBlank c = true)
    (solid : isBlank d = false) :
    c ≠ d := by
  rintro rfl
  simp [blank] at solid

theorem isBlank_eq_false_of_all
    (solid : (text.all fun c => !isBlank c) = true) :
    ∀ c ∈ text, isBlank c = false := by
  simpa using solid

/-- A text starts with what is not blank once it is trimmed. -/
theorem isBlank_eq_false_of_trimStart_cons
    {c : Char}
    (starts : trimStart text = c :: rest) :
    isBlank c = false := by
  have first := List.head?_dropWhile_not isBlank text
  rw [← trimStart, starts] at first
  simpa using first

theorem head?_trimStart_trimEnd (text : Text) :
    (trimStart (trimEnd text)).head? = (trimStart text).head? := by
  rw [← trimEnd_trimStart]
  cases starts : trimStart text with
  | nil => rfl
  | cons c rest => rw [trimEnd_cons_of_not_isBlank (isBlank_eq_false_of_trimStart_cons starts)]; rfl

end

end Upkeep
