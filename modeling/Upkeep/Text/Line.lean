import Upkeep.Text.Basic

/-!
Two views of a text that is read by lines.  `lines` forgets how a line ends;
`cut` keeps it, so that nothing is lost: `join_cut` puts the text back together.
-/

namespace Upkeep

/-- What ends a line.  Only a last line can be open. -/
inductive Terminator where
  | newline
  | returnNewline
  | endOfText
  deriving DecidableEq, Repr

/-- The characters that a terminator stands for. -/
def Terminator.text : Terminator → Text
  | .newline => ['\n']
  | .returnNewline => ['\r', '\n']
  | .endOfText => []

/-- A line together with what ends it. -/
structure Segment where
  body : Text
  terminator : Terminator
  deriving DecidableEq, Repr

def Segment.text (segment : Segment) : Text :=
  segment.body ++ segment.terminator.text

/-- Cut a text after each newline.  A return directly before a newline belongs
to the terminator, any other return to the body. -/
def cut : Text → List Segment
  | [] => []
  | '\n' :: rest => ⟨[], .newline⟩ :: cut rest
  | '\r' :: '\n' :: rest => ⟨[], .returnNewline⟩ :: cut rest
  | c :: rest =>
      match cut rest with
      | [] => [⟨[c], .endOfText⟩]
      | segment :: segments => ⟨c :: segment.body, segment.terminator⟩ :: segments

/-- Put segments together. -/
def join (segments : List Segment) : Text :=
  segments.flatMap Segment.text

/-- Drop one return at the end. -/
def dropReturn (piece : Text) : Text :=
  match piece.reverse with
  | '\r' :: kept => kept.reverse
  | _ => piece

/-- The pieces between newlines, without the return before a newline.  The last
piece is a line of its own unless it is empty. -/
def linesOfPieces : List Text → List Text
  | [] => []
  | [last] => if last = [] then [] else [last]
  | piece :: pieces => dropReturn piece :: linesOfPieces pieces

/-- The lines of a text without their terminators. -/
def lines (text : Text) : List Text :=
  linesOfPieces (text.splitOn '\n')

/-- Cutting loses nothing. -/
theorem join_cut (text : Text) : join (cut text) = text := by
  induction text using cut.induct with
  | case1 => rfl
  | case2 rest inductionHypothesis =>
      simpa [cut, join, Segment.text, Terminator.text] using inductionHypothesis
  | case3 rest inductionHypothesis =>
      simpa [cut, join, Segment.text, Terminator.text] using inductionHypothesis
  | case4 c rest notNewline notReturn empty inductionHypothesis =>
      rw [cut]
      · simp_all [join, Segment.text, Terminator.text]
      · exact notNewline
      · exact notReturn
  | case5 c rest notNewline notReturn segment segments cuts inductionHypothesis =>
      rw [cut]
      · simp_all [join, Segment.text]
      · exact notNewline
      · exact notReturn

end Upkeep
