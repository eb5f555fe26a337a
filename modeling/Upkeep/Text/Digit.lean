import Upkeep.Text.Basic

/-!
Digits in bases up to sixteen, and the ends of the ranges of whole numbers that fit
into words of 32 and 64 bits.
-/

namespace Upkeep

/-- The value of a digit; letters count on from ten. -/
def digitValue (c : Char) : Nat :=
  if c.isDigit then c.toNat - '0'.toNat else c.toLower.toNat - 'a'.toNat + 10

def digitsValue (base : Nat) (digits : Text) : Nat :=
  digits.foldl (fun value digit => base * value + digitValue digit) 0

/-- Whether a character is a digit of a base up to sixteen. -/
def isDigitOf (base : Nat) (c : Char) : Bool :=
  (c.isDigit || ('a' ≤ c.toLower && c.toLower ≤ 'f')) && digitValue c < base

/-- How many numbers a word of 64 bits can hold. -/
def wordCount : Nat := 0x10000000000000000

/-- How many of them are not negative if there is a sign. -/
def signedWordCount : Nat := 0x8000000000000000

/-- The same for a word of 32 bits. -/
def signedHalfWordCount : Nat := 0x80000000

end Upkeep
