import Upkeep.Proofs.Source.Comment
import Upkeep.Proofs.Text.Parts
import Upkeep.Rule.Constify.Settled

/-!
What a proposal of `const` changes in a line: one word is put in, between the specifiers and the
name of an indexed type.  The comment behind the code is carried along unread.
-/

namespace Upkeep

open Unicode

variable {index : SymbolIndex} {line : Text}

theorem statement_codeOf (line : Text) : statement (codeOf line) = statement line := by
  rw [statement, codeOf_codeOf, statement]

theorem length_statement_le (line : Text) : (statement line).length ≤ (codeOf line).length :=
  (dropEnd_isPrefix isBlank (codeOf line)).length_le

/-- What follows the code of a line is put behind the proposal for the code. -/
theorem propose?_eq_map_codeOf
    {comment : Text}
    (split : line = codeOf line ++ comment) :
    propose? index line = (propose? index (codeOf line)).map (· ++ comment) := by
  rw [propose?, propose?, insertionPoint?, insertionPoint?, statement_codeOf, Option.map_map,
    Option.map_map, Option.map_map]
  congr 1
  funext fromType
  have inside : (statement line).length - fromType.length ≤ (codeOf line).length :=
    (Nat.sub_le _ _).trans (length_statement_le line)
  simp only [Function.comp_apply, List.splitAt_eq]
  generalize (statement line).length - fromType.length = place at inside
  conv => lhs; rw [split]
  rw [List.take_append_of_le_length inside, List.drop_append_of_le_length inside,
    List.append_assoc, List.append_assoc, List.append_assoc]

theorem knowsType_eq_true_iff
    {parts : List Text} :
    index.knowsType parts = true ↔
      ∃ scopes name, parts = scopes ++ [name] ∧ index.isKnownType name = true ∧
        ∀ scope ∈ scopes, index.isScope scope = true := by
  rcases List.eq_nil_or_concat parts with rfl | ⟨scopes, name, rfl⟩
  · simp [SymbolIndex.knowsType]
  · constructor
    · intro known
      simp only [SymbolIndex.knowsType, List.concat_eq_append, List.reverse_append,
        List.reverse_singleton, List.singleton_append, Bool.and_eq_true, List.all_reverse,
        List.all_eq_true] at known
      exact ⟨scopes, name, by simp, known⟩
    · rintro ⟨otherScopes, other, same, known⟩
      rw [List.concat_eq_append] at same
      obtain ⟨rfl, sameName⟩ := List.append_inj' same rfl
      obtain rfl := List.singleton_inj.1 sameName
      simpa [SymbolIndex.knowsType] using known

/-- Whether a text begins with the name of an indexed type, all its qualifiers being indexed
scopes. -/
def StartsWithKnownType (index : SymbolIndex) (text : Text) : Prop :=
  ∃ token rest scopes name, text = token ++ rest ∧ QualifiedName (scopes ++ [name]) token ∧
    EndsWord rest ∧ index.isKnownType name = true ∧ ∀ scope ∈ scopes, index.isScope scope = true

theorem startsWithKnownType_append
    {text behind : Text} {typeName : List Text}
    (named : qualifiedName? text = some (typeName, behind))
    (more : behind ≠ [])
    (known : index.knowsType typeName = true)
    (rest : Text) :
    StartsWithKnownType index (text ++ rest) := by
  obtain ⟨token, rfl, qualified, ends⟩ := qualifiedName?_sound named
  obtain ⟨scopes, name, rfl, isType, areScopes⟩ := knowsType_eq_true_iff.1 known
  refine ⟨token, behind ++ rest, scopes, name, List.append_assoc .., qualified, ?_, isType,
    areScopes⟩
  cases behind with
  | nil => exact absurd rfl more
  | cons c tail => exact ends

/-- A proposal puts `const` between the specifiers of a line and the name of an indexed type, and
the line is then settled for every index.  The comment behind the code plays no part in it. -/
theorem proposal_is_single_insertion (index : SymbolIndex) (line : Text) :
    (∀ text, propose? index line = some text →
      (∃ before after, line = before ++ after ∧ text = before ++ ("const ".toList ++ after) ∧
        IsSpecifierLead before ∧ StartsWithKnownType index after) ∧
      ∀ later, propose? later text = none) ∧
    ∃ comment, line = codeOf line ++ comment ∧ (comment = [] ∨ "//".toList <+: comment) ∧
      propose? index line = (propose? index (codeOf line)).map (· ++ comment) := by
  constructor
  · intro text proposed
    refine ⟨?_, propose?_settled proposed⟩
    obtain ⟨⟨before, after⟩, found, rfl⟩ := Option.map_eq_some_iff.1 proposed
    obtain ⟨split, isLead, fromType, rest, _, _, rfl, more, named, known⟩ :=
      insertionPoint?_parts found
    exact ⟨before, fromType ++ rest, split, List.append_assoc .., isLead,
      startsWithKnownType_append named more known rest⟩
  · obtain ⟨comment, split, isComment⟩ := exists_comment_codeFrom none line
    exact ⟨comment, split, isComment, propose?_eq_map_codeOf split⟩

/-- A shared variable of a type in a scope, and a comment that holds a semicolon. -/
def sharedWidget : Text :=
  "\tstatic ui :: Widget *w = make(\"//\"); // old; kept".toList

def widgetIndex : SymbolIndex :=
  (SymbolIndex.ofPairs [("Widget".toList, "ui".toList)]).insertScope "ui".toList

theorem proposal_is_single_insertion_of_sharedWidget :
    propose? widgetIndex sharedWidget =
        some "\tstatic const ui :: Widget *w = make(\"//\"); // old; kept".toList ∧
      ∀ later, propose? later
        "\tstatic const ui :: Widget *w = make(\"//\"); // old; kept".toList = none := by
  have proposed : propose? widgetIndex sharedWidget =
      some "\tstatic const ui :: Widget *w = make(\"//\"); // old; kept".toList := by
    decide +kernel
  exact ⟨proposed, ((proposal_is_single_insertion widgetIndex sharedWidget).1 _ proposed).2⟩

end Upkeep
