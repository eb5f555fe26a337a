import Upkeep.Text.Digit
import Upkeep.Text.Utf8

/-!
Escapes in texts that programs write.  Such a text is given byte by byte, each byte
a character, because an escape can stand for any byte.
-/

namespace Upkeep

/-- Which escapes are read besides those that everyone reads. -/
structure EscapeRules where
  /-- A zero may stand in front of the octal digits. -/
  leadingZero : Bool
  hexadecimal : Bool
  doubleQuote : Bool
  deriving DecidableEq, Repr

/-- The character that a letter stands for after a backslash. -/
def controlOf? (c : Char) : Option Char :=
  match c with
  | 'a' => some '\x07'
  | 'b' => some '\x08'
  | 'e' => some '\x1b'
  | 'f' => some '\x0c'
  | 'n' => some '\n'
  | 'r' => some '\r'
  | 't' => some '\t'
  | 'v' => some '\x0b'
  | '\\' => some '\\'
  | _ => none

namespace EscapeRules

/-- Read an escape after its backslash. -/
def escape? (rules : EscapeRules) : Text → Option (Char × Text)
  | [] => none
  | c :: rest =>
      if isDigitOf 8 c then
        let digits := if rules.leadingZero && c == '0' && rest.head?.any (isDigitOf 8) then rest
          else c :: rest
        let read := (digits.take 3).takeWhile (isDigitOf 8)
        some (Char.ofNat (digitsValue 8 read % 256), digits.drop read.length)
      else if rules.hexadecimal && c == 'x' then
        match (rest.take 2).takeWhile (isDigitOf 16) with
        | [] => none
        | read => some (Char.ofNat (digitsValue 16 read), rest.drop read.length)
      else if rules.doubleQuote && c == '"' then some (c, rest)
      else (controlOf? c).map (·, rest)

/-- Read the escapes of a text that is not longer than the bound. -/
def unescapeWithin (rules : EscapeRules) : Nat → Text → Text × Bool
  | 0, _ => ([], false)
  | _ + 1, [] => ([], false)
  | bound + 1, c :: rest =>
      if c = '\\' ∧ rest.head? = some 'c' then ([], true)
      else
        let (read, rest) := if c = '\\' then (rules.escape? rest).getD (c, rest) else (c, rest)
        let (later, stopped) := rules.unescapeWithin bound rest
        (read :: later, stopped)

/-- Read the escapes of a text.  A `\c` ends it early, and the flag says so. -/
def unescape (rules : EscapeRules) (text : Text) : Text × Bool :=
  rules.unescapeWithin text.length text

end EscapeRules

/-- How a byte is written between single quotes. -/
def quotedByte (c : Char) : Text :=
  match c with
  | '\'' => ['\\', '\'']
  | '\\' => ['\\', '\\']
  | '\x07' => ['\\', 'a']
  | '\x08' => ['\\', 'b']
  | '\x0c' => ['\\', 'f']
  | '\n' => ['\\', 'n']
  | '\r' => ['\\', 'r']
  | '\t' => ['\\', 't']
  | '\x0b' => ['\\', 'v']
  | c =>
      if ' ' ≤ c && c ≤ '~' then [c]
      else
        let digits := Nat.toDigits 8 c.toNat
        '\\' :: List.replicate (3 - digits.length) '0' ++ digits

/-- A text between single quotes, in printable characters of ASCII. -/
def inQuotes (text : Text) : String :=
  String.ofList ('\'' :: (byteText text).flatMap quotedByte ++ ['\''])

end Upkeep
