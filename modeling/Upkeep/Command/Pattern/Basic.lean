import Upkeep.Text.Basic

/-!
Patterns for parts of a line.  What a pattern fits is said by the places where a
part that starts at a given place can end.
-/

namespace Upkeep

/-- A place in a line: the character before it, if any, and the characters after it. -/
structure LinePlace where
  before : Option Char
  after : Text
  deriving DecidableEq, Repr

/-- A condition on a place. -/
inductive Anchor where
  | lineStart
  | lineEnd
  | wordStart
  | wordEnd
  | wordEdge
  | noWordEdge
  deriving DecidableEq, Repr

/-- The characters between two ends. -/
abbrev CharRange := Char × Char

/-- A pattern. -/
inductive Pattern where
  | empty
  | one (negated : Bool) (ranges : List CharRange)
  | anchor (anchor : Anchor)
  | sequence (first next : Pattern)
  | choice (first next : Pattern)
  | repetition (pattern : Pattern) (least : Nat) (most : Option Nat)
  deriving DecidableEq, Repr

/-- Letters, digits and the underscore make up words. -/
def isPlainWord (c : Char) : Bool :=
  c.isAlphanum || c == '_'

def Anchor.holds (anchor : Anchor) (place : LinePlace) : Bool :=
  let wordBefore := place.before.any isPlainWord
  let wordAfter := place.after.head?.any isPlainWord
  match anchor with
  | .lineStart => place.before.isNone
  | .lineEnd => place.after.isEmpty
  | .wordStart => !wordBefore && wordAfter
  | .wordEnd => wordBefore && !wordAfter
  | .wordEdge => wordBefore != wordAfter
  | .noWordEdge => wordBefore == wordAfter

/-- Go on from places, once for each round; a round that gains nothing is dropped. -/
def roundsFrom (step : LinePlace → List LinePlace) : Nat → List LinePlace → List LinePlace
  | 0, places => places
  | rounds + 1, places =>
      let further := (places.flatMap step).filter fun place => !places.contains place
      if further.isEmpty then places
      else (places ++ roundsFrom step rounds further.eraseDups).eraseDups

namespace Pattern

/-- The places where a part that the pattern fits can end. -/
def ends : Pattern → LinePlace → List LinePlace
  | .empty, place => [place]
  | .one negated ranges, ⟨_, after⟩ =>
      match after with
      | [] => []
      | c :: rest =>
          if (ranges.any fun (low, high) => low ≤ c && c ≤ high) != negated then [⟨some c, rest⟩]
          else []
  | .anchor condition, place => if condition.holds place then [place] else []
  | .sequence first next, place => ((first.ends place).flatMap next.ends).eraseDups
  | .choice first next, place => (first.ends place ++ next.ends place).eraseDups
  | .repetition pattern least most, place =>
      let begun := (List.replicate least ()).foldl (fun places _ =>
        (places.flatMap pattern.ends).eraseDups) [place]
      roundsFrom pattern.ends ((most.map (· - least)).getD place.after.length) begun

/-- The longest part at a place that the pattern fits, and the place behind it. -/
def longest? (pattern : Pattern) (accept : LinePlace → Bool) (place : LinePlace) :
    Option LinePlace :=
  ((pattern.ends place).filter accept).foldl (fun best place =>
    match best with
    | some found => if place.after.length < found.after.length then some place else some found
    | none => some place) none

/-- The parts of a line that the pattern fits: the first and longest one, then the
next one behind it.  A part is given by the places at its ends. -/
def partsFrom (pattern : Pattern) (accept : LinePlace → LinePlace → Bool) :
    Nat → LinePlace → List (LinePlace × LinePlace)
  | 0, _ => []
  | bound + 1, place =>
      match pattern.longest? (accept place) place, place.after with
      | some stop, c :: rest =>
          (place, stop) ::
            partsFrom pattern accept bound
              (if stop.after.length < place.after.length then stop else ⟨some c, rest⟩)
      | some stop, [] => [(place, stop)]
      | none, c :: rest => partsFrom pattern accept bound ⟨some c, rest⟩
      | none, [] => []

/-- The parts of a line that the pattern fits and that are accepted by their ends. -/
def parts
    (pattern : Pattern) (accept : LinePlace → LinePlace → Bool) (line : Text) :
    List (LinePlace × LinePlace) :=
  pattern.partsFrom accept (line.length + 1) ⟨none, line⟩

/-- The letters of the other case that a range holds. -/
def otherCase (range : CharRange) : List CharRange :=
  let among := fun (low high : Char) (change : Char → Char) =>
    let first := if range.1 < low then low else range.1
    let last := if high < range.2 then high else range.2
    if first ≤ last then [(change first, change last)] else []
  among 'a' 'z' Char.toUpper ++ among 'A' 'Z' Char.toLower

/-- The pattern that makes no difference between the cases of letters. -/
def ignoringCase : Pattern → Pattern
  | .one negated ranges => .one negated (ranges ++ ranges.flatMap otherCase)
  | .sequence first next => .sequence first.ignoringCase next.ignoringCase
  | .choice first next => .choice first.ignoringCase next.ignoringCase
  | .repetition pattern least most => .repetition pattern.ignoringCase least most
  | pattern => pattern

/-- The pattern that fits a text as it is. -/
def ofPlain (text : Text) : Pattern :=
  text.foldr (fun c later => .sequence (.one false [(c, c)]) later) .empty

end Pattern

end Upkeep
