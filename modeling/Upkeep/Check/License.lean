import Upkeep.Check.Basic

/-!
The check for the license header: a block comment at the start of the file, after
nothing but blanks, that holds a given text.
-/

namespace Upkeep

/-- The text before the first place where a mark stands. -/
def before? (mark : Text) : Text → Option Text
  | [] => if mark.isEmpty then some [] else none
  | c :: rest =>
      if mark.isPrefixOf (c :: rest) then some [] else (before? mark rest).map (c :: ·)

/-- The inside of the block comment that opens a text. -/
def leadingComment? (content : Text) : Option Text :=
  (after? ['/', '*'] (trimStart content)).bind (before? ['*', '/'])

/-- Whether a text opens with a comment that holds the marker. -/
def hasLicense (marker content : Text) : Bool :=
  match leadingComment? content with
  | some comment => occursIn marker comment
  | none => false

/-- Warn about files without the license header. -/
def checkLicense (marker : Text) : Check where
  name := "check-license"
  warnings := fun _ file =>
    if hasLicense marker file.content then []
    else [⟨file.path, none, .missingLicense, "missing license header".toList⟩]

end Upkeep
