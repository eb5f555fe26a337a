import Upkeep.Command.Escape

/-!
Whole numbers as programs read them from their arguments.
-/

namespace Upkeep

def signOf : Text → Bool × Text
  | '-' :: rest => (true, rest)
  | '+' :: rest => (false, rest)
  | rest => (false, rest)

def signed (negative : Bool) (value : Nat) : Int :=
  if negative then -Int.ofNat value else Int.ofNat value

/-- Read a decimal number with blanks on both sides. -/
def wholeNumber? (text : Text) : Option Int :=
  let (negative, digits) := signOf (trim text)
  if digits.isEmpty || !digits.all Char.isDigit then none
  else some (signed negative (digitsValue 10 digits))

/-- Read the number at the start of a text and hand on what follows.  A zero
announces octal digits, a zero and an `x` hexadecimal ones. -/
def numberAtStart? (text : Text) : Option (Int × Text) :=
  let (negative, unsigned) := signOf (trimStart text)
  let (base, digits) :=
    match unsigned with
    | '0' :: x :: d :: rest =>
        if (x == 'x' || x == 'X') && isDigitOf 16 d then (16, d :: rest) else (8, unsigned)
    | '0' :: _ => (8, unsigned)
    | _ => (10, unsigned)
  match digits.takeWhile (isDigitOf base) with
  | [] => none
  | read => some (signed negative (digitsValue base read), digits.drop read.length)

end Upkeep
