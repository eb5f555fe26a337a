import Upkeep.Config.Toml.Basic
import Upkeep.Text.Digit

/-!
Dates and times of day of TOML.  They must be right by the calendar; their value is
not looked at.
-/

namespace Upkeep

namespace Toml

/-- Take a number of so many digits that lies between two bounds. -/
def boundedDigits? (count low high : Nat) (text : Text) : Option (Nat × Text) :=
  let digits := text.take count
  let value := digitsValue 10 digits
  if digits.length = count && digits.all Char.isDigit && low ≤ value && value ≤ high then
    some (value, text.drop count)
  else none

def daysOf (year month : Nat) : Nat :=
  if month = 2 then
    if year % 4 = 0 && (year % 100 != 0 || year % 400 = 0) then 29 else 28
  else if [4, 6, 9, 11].contains month then 30
  else 31

/-- Take a day of the calendar. -/
def day? (text : Text) : Option Text := do
  let (year, rest) ← boundedDigits? 4 0 9999 text
  let (month, rest) ← boundedDigits? 2 1 12 (← after? ['-'] rest)
  let (_, rest) ← boundedDigits? 2 1 (daysOf year month) (← after? ['-'] rest)
  some rest

/-- Take an hour and a minute. -/
def hourAndMinute? (text : Text) : Option Text := do
  let (_, rest) ← boundedDigits? 2 0 23 text
  let (_, rest) ← boundedDigits? 2 0 59 (← after? [':'] rest)
  some rest

/-- Take a time of day, in which a minute may have a leap second.  In the second edition
the seconds can be left out. -/
def timeOfDay? (edition : Edition) (text : Text) : Option Text := do
  match ← hourAndMinute? text with
  | ':' :: rest =>
      let (_, rest) ← boundedDigits? 2 0 60 rest
      match rest with
      | '.' :: c :: rest => if c.isDigit then some (rest.dropWhile Char.isDigit) else none
      | rest => some rest
  | rest => if edition = .second then some rest else none

/-- Take the distance from universal time, which can be left out. -/
def zone? (text : Text) : Option Text :=
  match text with
  | c :: rest =>
      if c = 'Z' ∨ c = 'z' then some rest
      else if c = '+' ∨ c = '-' then hourAndMinute? rest
      else some text
  | [] => some []

/-- Take a date with or without a time of day, or a time of day. -/
def date? (edition : Edition) (text : Text) : Option Text :=
  match text with
  | _ :: _ :: ':' :: _ => timeOfDay? edition text
  | _ =>
      match day? text with
      | some (c :: rest) =>
          if c = 'T' ∨ c = 't' ∨ c = ' ' then (timeOfDay? edition rest).bind zone?
          else none
      | ended => ended

/-- Whether a text is a date or a time of day. -/
def isDate (edition : Edition) (text : Text) : Bool :=
  date? edition text = some []

end Toml

end Upkeep
