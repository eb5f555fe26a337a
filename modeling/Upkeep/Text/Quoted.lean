import Upkeep.Text.Basic
import Upkeep.Unicode.Printable

/-!
Texts between double quotes, for messages.  The quote and the backslash are
escaped, four controls have names, and what would not show is written as its
code point in hexadecimal.
-/

namespace Upkeep

open Unicode

/-- The digits of a code point in lower-case hexadecimal. -/
def hexDigits (code : Nat) : Text :=
  Nat.toDigits 16 code

def quotedChar (c : Char) : Text :=
  if c = '\x00' then ['\\', '0']
  else if c = '\t' then ['\\', 't']
  else if c = '\r' then ['\\', 'r']
  else if c = '\n' then ['\\', 'n']
  else if c = '"' ∨ c = '\\' then ['\\', c]
  else if extendsGrapheme c || !isPrintable c then
    ['\\', 'u', '\x7b'] ++ hexDigits c.toNat ++ ['\x7d']
  else [c]

/-- A text between double quotes. -/
def quoted (text : Text) : Text :=
  '"' :: text.flatMap quotedChar ++ ['"']

end Upkeep
