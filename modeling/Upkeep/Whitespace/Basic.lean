import Upkeep.Text.Line

/-!
Normal white space: no tab at the start of a line, neither space nor tab at its
end, and a newline at the end of the text.  Each line keeps its terminator.
-/

namespace Upkeep

/-- The characters that do not stay at the end of a line. -/
def isSpaceOrTab (c : Char) : Bool :=
  c == ' ' || c == '\t'

/-- The spaces that stand for a leading tab. -/
def tabWidth : Nat := 4

/-- Replace the leading tabs of a line by spaces. -/
def expandTabs : Text → Text
  | '\t' :: rest => List.replicate tabWidth ' ' ++ expandTabs rest
  | line => line

/-- The normal form of a line. -/
def normalLine (line : Text) : Text :=
  expandTabs (dropEnd isSpaceOrTab line)

/-- A line with its body in normal form. -/
def Segment.normalize (segment : Segment) : Segment :=
  { segment with body := normalLine segment.body }

/-- The normal form of a text. -/
def normalizeText (content : Text) : Text :=
  if content = [] then []
  else
    let normal := join ((cut content).map Segment.normalize)
    if normal.getLast? = some '\n' then normal else normal ++ ['\n']

end Upkeep
