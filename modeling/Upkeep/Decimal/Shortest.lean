import Upkeep.Text.Basic

/-!
Fractions as binary floating-point numbers of 64 bits, and the shortest decimal
that reads back as the same number.  All arithmetic is exact; a number is a whole
number of at most 53 bits times a power of two.
-/

namespace Upkeep

/-- A positive fraction, not necessarily reduced. -/
structure Fraction where
  numerator : Nat
  denominator : Nat
  deriving DecidableEq, Repr

namespace Fraction

/-- A fraction times a power of a base. -/
def scale (fraction : Fraction) (base : Nat) (exponent : Int) : Fraction :=
  match exponent with
  | .ofNat power => ⟨fraction.numerator * base.pow power, fraction.denominator⟩
  | .negSucc power => ⟨fraction.numerator, fraction.denominator * base.pow (power + 1)⟩

/-- The nearest whole number; a half goes to the even neighbour. -/
def round (fraction : Fraction) : Nat :=
  let whole := fraction.numerator / fraction.denominator
  let twice := 2 * (fraction.numerator % fraction.denominator)
  if twice < fraction.denominator ∨ (twice = fraction.denominator ∧ whole % 2 = 0) then whole
  else whole + 1

/-- Whether a fraction is less than a whole number. -/
def isBelow (fraction : Fraction) (bound : Nat) : Bool :=
  fraction.numerator < bound * fraction.denominator

end Fraction

/-- A whole number times a power of two. -/
structure Binary where
  significand : Nat
  exponent : Int
  deriving DecidableEq, Repr

namespace Binary

/-- The least exponent of two. -/
def leastExponent : Int := -1074

/-- The greatest exponent of two. -/
def greatestExponent : Int := 971

/-- The number of bits of a significand. -/
def precision : Nat := 53

/-- The value of a binary number. -/
def fraction (binary : Binary) : Fraction :=
  Fraction.scale ⟨binary.significand, 1⟩ 2 binary.exponent

/-- The exponent at which a fraction has as many bits before the point as a
significand has. -/
def exponentOf (fraction : Fraction) : Int :=
  let guess : Int := Nat.log2 fraction.numerator - Nat.log2 fraction.denominator - 52
  let exact := if (fraction.scale 2 (-guess)).isBelow (Nat.pow 2 52) then guess - 1 else guess
  if exact < leastExponent then leastExponent else exact

/-- The nearest binary number, unless the fraction is too large. -/
def ofFraction? (fraction : Fraction) : Option Binary :=
  if fraction.numerator = 0 then some ⟨0, leastExponent⟩
  else
    let exponent := exponentOf fraction
    let significand := (fraction.scale 2 (-exponent)).round
    let rounded : Binary :=
      if significand = Nat.pow 2 precision then ⟨Nat.pow 2 (precision - 1), exponent + 1⟩
      else ⟨significand, exponent⟩
    if rounded.exponent > greatestExponent then none else some rounded

end Binary

/-- Decimal digits and the power of ten of the last one. -/
structure Decimal where
  digits : Nat
  exponent : Int
  deriving DecidableEq, Repr

namespace Decimal

/-- The value of a decimal. -/
def fraction (decimal : Decimal) : Fraction :=
  Fraction.scale ⟨decimal.digits, 1⟩ 10 decimal.exponent

/-- Beyond this many digits before the point, or zeros behind it, there are no binary
numbers but zero. -/
def reach : Int := 400

/-- The nearest binary number, unless the decimal is too large. -/
def binary? (decimal : Decimal) : Option Binary :=
  let size : Int := (Nat.toDigits 10 decimal.digits).length + decimal.exponent
  if decimal.digits = 0 ∨ size < -reach then some ⟨0, Binary.leastExponent⟩
  else if size > reach then none
  else Binary.ofFraction? decimal.fraction

/-- The number of digits before the point, which for small fractions is negative. -/
def magnitude (fraction : Fraction) : Int :=
  let guess : Int :=
    (Nat.toDigits 10 fraction.numerator).length - (Nat.toDigits 10 fraction.denominator).length
  if (fraction.scale 10 (-guess)).isBelow 1 then guess else guess + 1

/-- The decimal with a number of digits that reads back as the binary number, the
nearer one if there are two. -/
def withDigits? (binary : Binary) (count : Nat) : Option Decimal :=
  let exponent := magnitude binary.fraction - count
  let scaled := binary.fraction.scale 10 (-exponent)
  let below : Decimal := ⟨scaled.numerator / scaled.denominator, exponent⟩
  let above : Decimal :=
    if below.digits + 1 = Nat.pow 10 count then ⟨Nat.pow 10 (count - 1), exponent + 1⟩
    else { below with digits := below.digits + 1 }
  let candidates := if scaled.round = below.digits then [below, above] else [above, below]
  candidates.find? fun decimal => decimal.binary? == some binary

/-- The decimal with the fewest digits that reads back as the binary number. -/
def shortest (binary : Binary) : Decimal :=
  if binary.significand = 0 then ⟨0, 0⟩
  else ((List.range' 1 17).findSome? (withDigits? binary)).getD ⟨0, 0⟩

end Decimal

end Upkeep
