import Upkeep.Text.Basic

/-!
TOML as a format with two editions.  The second one has more escapes, times of day
without seconds, and tables in braces over several lines; whatever the first one has is
the same in both.
-/

namespace Upkeep

namespace Toml

/-- The editions of the format: the one of version 1.0 and the one of version 1.1. -/
inductive Edition where
  | first
  | second
  deriving DecidableEq, Repr

/-- What is read, or where the text is at fault: the number of characters before the
place. -/
abbrev Reading (Item : Type) := Except Nat Item

/-- Whether a character can stand in a string or a comment as it is. -/
def isPlain (c : Char) : Bool :=
  c == '\t' || (c.toNat ≥ 0x20 && c.toNat != 0x7f)

/-- Whether a character can stand in a bare key. -/
def isBareKey (c : Char) : Bool :=
  c.isAlphanum || c == '_' || c == '-'

namespace Edition

/-- How many brackets and braces may be open at once. -/
def depth : Edition → Nat
  | .first => 79
  | .second => 80

/-- How many parts a key may have. -/
def keyLength : Edition → Nat
  | .first => 79
  | .second => 80

/-- The character of an escape by its letter. -/
def named? (edition : Edition) (letter : Char) : Option Char :=
  match letter with
  | 'b' => some '\x08'
  | 't' => some '\t'
  | 'n' => some '\n'
  | 'f' => some '\x0c'
  | 'r' => some '\r'
  | '"' => some '"'
  | '\\' => some '\\'
  | 'e' => if edition = .second then some '\x1b' else none
  | _ => none

/-- The number of digits of an escape by code. -/
def codeLength? (edition : Edition) (letter : Char) : Option Nat :=
  match letter with
  | 'x' => if edition = .second then some 2 else none
  | 'u' => some 4
  | 'U' => some 8
  | _ => none

/-- Where a letter that no escape has is told: at itself or behind it. -/
def unknownEscape : Edition → Nat
  | .first => 1
  | .second => 0

end Edition

end Toml

end Upkeep
