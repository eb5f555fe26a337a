import Upkeep.Decimal.Shortest
import Upkeep.Text.Digit

/-!
Decimals as texts.  They are read with or without a point and an exponent, and written
with a point unless they are very large or very small.
-/

namespace Upkeep

namespace Decimal

/-- A sign at the start of a text: whether it is a minus, and what follows. -/
def sign (text : Text) : Bool × Text :=
  match text with
  | '-' :: rest => (true, rest)
  | '+' :: rest => (false, rest)
  | rest => (false, rest)

/-- Read an exponent, which can be left out. -/
def exponent? : Text → Option Int
  | [] => some 0
  | e :: rest =>
      let (negative, digits) := sign rest
      let value : Int := digitsValue 10 digits
      if (e = 'e' ∨ e = 'E') ∧ digits ≠ [] ∧ digits.all Char.isDigit then
        some (if negative then -value else value)
      else none

/-- Read a decimal after its sign; digits may be missing on one side of the point. -/
def ofText? (text : Text) : Option Decimal :=
  let whole := text.takeWhile Char.isDigit
  let part :=
    match text.drop whole.length with
    | '.' :: rest => rest.takeWhile Char.isDigit
    | _ => []
  let tail :=
    match text.drop whole.length with
    | '.' :: rest => rest.drop part.length
    | rest => rest
  if whole ++ part = [] then none
  else (exponent? tail).map fun exponent =>
    ⟨digitsValue 10 (whole ++ part), exponent - part.length⟩

/-- The power of ten of the first digit. -/
def order (decimal : Decimal) : Int :=
  (Nat.toDigits 10 decimal.digits).length + decimal.exponent - 1

/-- A decimal without an exponent, with at least one digit on each side of the point. -/
def positional (decimal : Decimal) : Text :=
  let digits := Nat.toDigits 10 decimal.digits
  match decimal.exponent with
  | .ofNat zeros => digits ++ List.replicate zeros '0' ++ ['.', '0']
  | .negSucc places =>
      let padded := List.replicate (places + 2 - digits.length) '0' ++ digits
      let point := padded.length - (places + 1)
      padded.take point ++ '.' :: padded.drop point

/-- A decimal with one digit before the point, if there is more than one digit at all, and
an exponent with its sign. -/
def scientific (decimal : Decimal) : Text :=
  let mantissa :=
    match Nat.toDigits 10 decimal.digits with
    | first :: second :: rest => first :: '.' :: second :: rest
    | digits => digits
  let exponentSign := if decimal.order < 0 then '-' else '+'
  mantissa ++ 'e' :: exponentSign :: Nat.toDigits 10 decimal.order.natAbs

/-- The text of a decimal: positional from 0.00001 up to sixteen digits before the point. -/
def text (decimal : Decimal) : Text :=
  if -5 ≤ decimal.order ∧ decimal.order < 16 then decimal.positional else decimal.scientific

/-- The shortest text of the binary number next to a decimal, unless that is too large. -/
def shortestText? (negative : Bool) (decimal : Decimal) : Option Text :=
  decimal.binary?.map fun binary =>
    let digits := (shortest binary).text
    if negative then '-' :: digits else digits

end Decimal

end Upkeep
