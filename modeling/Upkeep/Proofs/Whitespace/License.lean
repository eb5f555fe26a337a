import Upkeep.Proofs.Check.License
import Upkeep.Proofs.Whitespace.Lines

/-!
The license header of a text and of its normal form.  Only margins of its pieces change, and
a marker that begins and ends with other characters is not found in them.
-/

namespace Upkeep

open Unicode

variable {line : Text}

@[simp]
theorem inner_inner (line : Text) : inner (inner line) = inner line := by
  obtain ⟨front, back, whole, marginFront, marginBack⟩ := exists_append_inner line
  conv => rhs; rw [whole]
  rw [inner_margin_append marginFront, inner_append_margin marginBack]

theorem notMem_of_isMargin
    {mark : Text} {c : Char}
    (solid : ∀ c ∈ mark, isMargin c = false)
    (margin : isMargin c = true) :
    c ∉ mark := by
  intro member
  rw [solid c member] at margin
  exact Bool.noConfusion margin

theorem map_inner_before? (line : Text) :
    (before? ['*', '/'] (inner line)).map inner = (before? ['*', '/'] line).map inner := by
  have solid : ∀ c ∈ ['*', '/'], isMargin c = false := by simp [isMargin, isSpaceOrTab]
  obtain ⟨front, back, whole, marginFront, marginBack⟩ := exists_append_inner line
  have none_ : before? ['*', '/'] back = none :=
    before?_eq_none_of_isBlank fun c member => isBlank_of_isMargin (marginBack c member)
  have apart : ∀ c ∈ back.head?, c ∉ ['*', '/'] := fun c first =>
    notMem_of_isMargin solid (marginBack c (List.mem_of_mem_head? first))
  conv => rhs; rw [whole]
  rw [before?_append_of_notMem (by decide)
      (fun c member => notMem_of_isMargin solid (marginFront c member)),
    before?_append (by decide) apart, none_, Option.map_none, Option.or_none, Option.map_map]
  congr 1
  funext piece
  exact (inner_margin_append marginFront piece).symm

theorem map_inner_commentPieces? (sourceLines : List Text) :
    (commentPieces? (sourceLines.map inner)).map (List.map inner) =
      (commentPieces? sourceLines).map (List.map inner) := by
  induction sourceLines with
  | nil => rfl
  | cons line rest inductionHypothesis =>
      have piece := map_inner_before? line
      rw [List.map_cons, commentPieces?, commentPieces?]
      cases closed : before? ['*', '/'] line with
      | some text =>
          rw [closed, Option.map_some, Option.map_eq_some_iff] at piece
          obtain ⟨other, closedToo, same⟩ := piece
          rw [closedToo]
          simp [same]
      | none =>
          rw [closed, Option.map_none, Option.map_eq_none_iff] at piece
          have front : ∀ text : Text, List.map inner ∘ (inner text :: ·) =
              (inner text :: ·) ∘ List.map inner := fun text => by
            funext pieces
            simp
          have frontToo : List.map inner ∘ (line :: ·) = (inner line :: ·) ∘ List.map inner := by
            funext pieces
            simp
          rw [piece]
          simp only [Option.map_map, front, frontToo]
          rw [← Option.map_map, inductionHypothesis, Option.map_map]

theorem map_inner_leadingPieces? (sourceLines : List Text) :
    (leadingPieces? (sourceLines.map inner)).map (List.map inner) =
      (leadingPieces? sourceLines).map (List.map inner) := by
  induction sourceLines with
  | nil => rfl
  | cons line rest inductionHypothesis =>
      obtain ⟨front, back, whole, marginFront, marginBack⟩ := exists_append_inner line
      have start : trimStart line = trimStart (inner line ++ back) := by
        conv => lhs; rw [whole]
        exact trimStart_append_of_isBlank
          (fun c member => isBlank_of_isMargin (marginFront c member)) _
      rw [List.map_cons, leadingPieces?, leadingPieces?]
      by_cases empty : trimStart (inner line) = []
      · have emptyToo : trimStart line = [] := by
          rw [← trimEnd_eq_nil_iff] at empty
          have blank : trimEnd (inner line ++ back) = [] := by
            rw [trimEnd, dropEnd_append_of_forall
              fun c member => isBlank_of_isMargin (marginBack c member)]
            exact empty
          rw [start, ← trimEnd_eq_nil_iff, blank]
        rw [if_pos empty, if_pos emptyToo, inductionHypothesis]
      · have longer : trimStart line = trimStart (inner line) ++ back := by
          rw [start, trimStart_append_of_ne_nil empty]
        have some_ : trimStart line ≠ [] := by
          rw [longer]
          exact List.append_ne_nil_of_left_ne_nil empty back
        have apart : ∀ c ∈ back.head?, c ∉ ['/', '*'] := fun c first =>
          notMem_of_isMargin (by simp [isMargin, isSpaceOrTab])
            (marginBack c (List.mem_of_mem_head? first))
        rw [if_neg empty, if_neg some_, longer, after?_append apart]
        cases after? ['/', '*'] (trimStart (inner line)) with
        | none => rfl
        | some text =>
            have first := map_inner_commentPieces? (text :: rest.map inner)
            have other := map_inner_commentPieces? ((text ++ back) :: rest)
            rw [List.map_cons, List.map_map] at first
            rw [List.map_cons, inner_append_margin marginBack] at other
            have twice : inner ∘ inner = inner := funext inner_inner
            rw [twice] at first
            exact first.symm.trans other

/-- A text that begins and ends with other characters is found between the margins. -/
theorem occursIn_inner
    {marker : Text}
    (starts : ∀ c ∈ marker.head?, isMargin c = false)
    (ends : ∀ c ∈ marker.getLast?, isMargin c = false) (line : Text) :
    occursIn marker (inner line) = occursIn marker line := by
  obtain ⟨front, back, whole, marginFront, marginBack⟩ := exists_append_inner line
  rw [Bool.eq_iff_iff, occursIn_iff, occursIn_iff]
  conv => rhs; rw [whole]
  rw [infix_append_iff_of_head?, infix_append_iff_of_getLast?]
  · intro c last member
    exact absurd (marginBack c member) (by simp [ends c last])
  · intro c first member
    exact absurd (marginFront c member) (by simp [starts c first])

theorem hasLicense_normalizeText
    {marker : Text}
    (noNewline : '\n' ∉ marker)
    (noReturn : '\r' ∉ marker)
    (noTab : '\t' ∉ marker)
    (starts : marker.head? ≠ some ' ')
    (ends : marker.getLast? ≠ some ' ') (content : Text) :
    hasLicense marker (normalizeText content) = hasLicense marker content := by
  have solid : ∀ c ∈ marker, c ≠ ' ' → isMargin c = false := by
    intro c member notSpace
    have notTab : c ≠ '\t' := fun same => noTab (same ▸ member)
    have notReturn : c ≠ '\r' := fun same => noReturn (same ▸ member)
    simp [isMargin, isSpaceOrTab, notSpace, notTab, notReturn]
  have start : ∀ c ∈ marker.head?, isMargin c = false := fun c first =>
    solid c (List.mem_of_mem_head? first) fun same => starts (same ▸ first)
  have last : ∀ c ∈ marker.getLast?, isMargin c = false := fun c final =>
    solid c (List.mem_of_getLast? final) fun same => ends (same ▸ final)
  obtain ⟨segments, tail, same, normal, _, blank⟩ := exists_segments content
  have byInner : ∀ sourceLines : List Text,
      (leadingPieces? sourceLines).map (·.any (occursIn marker)) =
        ((leadingPieces? (sourceLines.map inner)).map (List.map inner)).map
          (·.any (occursIn marker)) := by
    intro sourceLines
    have seen : (fun pieces : List Text => pieces.any (occursIn marker)) ∘ List.map inner =
        fun pieces => pieces.any (occursIn marker) := by
      funext pieces
      rw [Function.comp_apply, List.any_map]
      congr 1
      funext piece
      exact occursIn_inner start last piece
    rw [map_inner_leadingPieces?, Option.map_map, seen]
  have inners : (segments.map (·.normalize.close.body)).map inner =
      (segments.map Segment.body).map inner := by
    rw [List.map_map, List.map_map]
    exact List.map_congr_left fun segment _ => segment.inner_close_normalize
  rw [hasLicense_eq noNewline noReturn, hasLicense_eq noNewline noReturn, same, normal,
    leadingPieces?_append_of_isBlank blank, byInner, inners, ← byInner]

end Upkeep
