import Upkeep.Proofs.Source.Declaration
import Upkeep.Proofs.Source.Trim

/-!
The scanner and the blanks around lines.  Template heads and line kinds do not depend on them,
so that the declarations of a text are those of each line of code.
-/

namespace Upkeep

open Unicode

variable {line other code : Text}

theorem opensTemplate_trim (code : Text) : opensTemplate (trim code) = opensTemplate code := by
  have solid : ∀ c ∈ "template".toList, isBlank c = false :=
    isBlank_eq_false_of_all (by decide)
  rw [opensTemplate, opensTemplate, trimStart_trim, trim, after?_trimEnd solid, Option.isSome_map]

theorem templatePending_trim (code : Text) :
    templatePending (trim code) = templatePending code := by
  obtain ⟨front, back, whole, blankFront, blankBack⟩ := exists_append_trim code
  have plain : ∀ blanks : Text, (∀ c ∈ blanks, isBlank c = true) →
      blanks.any (fun c => c == '{' || c == ';') = false := by
    intro blanks blank
    rw [List.any_eq_false]
    intro c member
    have open_ : c ≠ '{' := ne_of_isBlank (blank c member) (by decide)
    have ended : c ≠ ';' := ne_of_isBlank (blank c member) (by decide)
    simp [open_, ended]
  have marks : code.any (fun c => c == '{' || c == ';') =
      (trim code).any fun c => c == '{' || c == ';' := by
    conv => lhs; rw [whole]
    rw [List.any_append, List.any_append, plain front blankFront, plain back blankBack,
      Bool.false_or, Bool.or_false]
  rw [templatePending, templatePending, opensTemplate_trim, marks]

/-- Whether a line of nothing but code ends in blanks behind a colon.  A base clause that
begins there is seen only as long as the blanks are. -/
def stopsAtColon (line : Text) : Bool :=
  codeOf line == line && endsInColon line && line.getLast? != some ':'

theorem declaredBy_codeOf_of_trim_eq
    (same : trim other = trim line)
    (start : line.getLast? = some ':' → trimStart other = trimStart line)
    (solid : stopsAtColon line = false) :
    declaredBy (codeOf other) = declaredBy (codeOf line) := by
  by_cases ends : line.getLast? = some ':'
  · rw [← declaredBy_trimStart (codeOf other), trimStart_codeOf, start ends, ← trimStart_codeOf,
      declaredBy_trimStart]
  by_cases whole : codeOf line = line
  · have wholeOther : codeOf other = other := by
      rwa [codeOf_eq_self_iff, same, ← codeOf_eq_self_iff]
    have plain : endsInColon line = false := by
      simpa [stopsAtColon, whole, ends] using solid
    have plainOther : endsInColon other = false := by
      rwa [← endsInColon_trim, same, endsInColon_trim]
    rw [whole, wholeOther, ← declaredBy_trim plain, ← declaredBy_trim plainOther, same]
  · have commented : codeOf other ≠ other := by
      rwa [ne_eq, codeOf_eq_self_iff, same, ← codeOf_eq_self_iff]
    rw [← declaredBy_trimStart (codeOf other), trimStart_codeOf_of_ne commented, same,
      ← trimStart_codeOf_of_ne whole, declaredBy_trimStart]

/-- What is declared on the lines that are asked for, for two rows of lines that differ in the
blanks around each line. -/
theorem filter_declarationsFrom_map
    {Item : Type} {first second : Item → Text} {items : List Item}
    (same : ∀ item ∈ items, trim (second item) = trim (first item))
    (asked : Nat → Bool) (kinds : List LineKind) (number : Nat)
    (agree : ∀ index item, items[index]? = some item → kinds[index]? = some .code →
      asked (number + index) = true →
        declaredBy (codeOf (second item)) = declaredBy (codeOf (first item)))
    (waits : Bool) :
    (declarationsFrom waits number ((items.map second).zip kinds)).filter (fun d => asked d.line) =
      (declarationsFrom waits number ((items.map first).zip kinds)).filter fun d => asked d.line := by
  induction items generalizing kinds number waits with
  | nil => rfl
  | cons item items inductionHypothesis =>
      cases kinds with
      | nil => rfl
      | cons kind kinds =>
          rw [List.forall_mem_cons] at same
          have later := fun flag => inductionHypothesis same.2 kinds (number + 1)
            (fun index other at_ code want => agree (index + 1) other at_ code (by
              rwa [Nat.add_assoc, Nat.add_comm 1] at want)) flag
          rw [List.map_cons, List.map_cons, List.zip_cons_cons, List.zip_cons_cons]
          cases kind with
          | blank => exact later waits
          | comment => exact later waits
          | preprocessor => exact later false
          | continuation => exact later false
          | code =>
              have trimmed : trim (codeOf (second item)) = trim (codeOf (first item)) := by
                rw [← trim_codeOf_trim, same.1, trim_codeOf_trim]
              have opens : opensTemplate (codeOf (second item)) =
                  opensTemplate (codeOf (first item)) := by
                rw [← opensTemplate_trim, trimmed, opensTemplate_trim]
              have pending : templatePending (codeOf (second item)) =
                  templatePending (codeOf (first item)) := by
                rw [← templatePending_trim, trimmed, templatePending_trim]
              simp only [declarationsFrom, List.filter_append, opens, pending, later]
              congr 1
              by_cases want : asked number = true
              · rw [agree 0 item rfl rfl want]
              · have none_ : ∀ found : List Declaration, (∀ d ∈ found, d.line = number) →
                    found.filter (fun d => asked d.line) = [] := by
                  intro found here
                  rw [List.filter_eq_nil_iff]
                  intro d member
                  rwa [here d member]
                split
                · rfl
                · rw [none_ _ (List.forall_mem_map.2 fun _ _ => rfl),
                    none_ _ (List.forall_mem_map.2 fun _ _ => rfl)]

/-- Lines that are not code declare nothing. -/
theorem declarationsFrom_append_of_ne_code
    {extra : List (Text × LineKind)}
    (other : ∀ item ∈ extra, item.2 ≠ .code)
    (waits : Bool) (number : Nat) (items : List (Text × LineKind)) :
    declarationsFrom waits number (items ++ extra) = declarationsFrom waits number items := by
  induction items generalizing waits number with
  | nil =>
      rw [List.nil_append]
      induction extra generalizing waits number with
      | nil => rfl
      | cons item extra inductionHypothesis =>
          rw [List.forall_mem_cons] at other
          obtain ⟨line, kind⟩ := item
          cases kind with
          | code => exact absurd rfl other.1
          | _ => exact inductionHypothesis other.2 _ _
  | cons item items inductionHypothesis =>
      obtain ⟨line, kind⟩ := item
      cases kind with
      | code =>
          rw [List.cons_append, declarationsFrom, declarationsFrom, inductionHypothesis]
      | _ => exact inductionHypothesis _ _

theorem Carry.kind_ne_code_of_isBlank
    (blank : ∀ c ∈ line, isBlank c = true) (carry : Carry) :
    carry.kind line ≠ .code := by
  rw [← kind_trim, trim_eq_nil_of_isBlank blank]
  obtain ⟨inComment, continued⟩ := carry
  cases inComment <;> cases continued <;> decide

theorem classifyFrom_ne_code_of_isBlank
    {tail : List Text}
    (blank : ∀ line ∈ tail, ∀ c ∈ line, isBlank c = true) (carry : Carry) :
    ∀ kind ∈ classifyFrom carry tail, kind ≠ .code := by
  induction tail generalizing carry with
  | nil => simp [classifyFrom]
  | cons line tail inductionHypothesis =>
      rw [List.forall_mem_cons] at blank
      rw [classifyFrom, List.forall_mem_cons]
      exact ⟨carry.kind_ne_code_of_isBlank blank.1, inductionHypothesis blank.2 _⟩

/-- Blank lines at the end of a text declare nothing. -/
theorem declarationsFrom_append_blank_lines
    {tail : List Text}
    (blank : ∀ line ∈ tail, ∀ c ∈ line, isBlank c = true) (front : List Text) :
    declarationsFrom false 0 ((front ++ tail).zip (classify (front ++ tail))) =
      declarationsFrom false 0 (front.zip (classify front)) := by
  rw [classify, classifyFrom_append, List.zip_append (length_classifyFrom _ _).symm,
    declarationsFrom_append_of_ne_code, classify]
  intro item member
  exact classifyFrom_ne_code_of_isBlank blank _ _ (List.of_mem_zip member).2

end Upkeep
