import Socks.Toml.Scanner
import Socks.Toml.Value

/-!
# Numbers and moments

Integers of 64 bits in four bases, floating point numbers, and dates and times, which have to exist
in the calendar.
-/

namespace Socks.Toml

open Scanner

/-- Digits of a base, single underscores between them allowed. -/
def digitRun (base : Nat) : Scanner (List Nat) := do
  let first ← digit base
  return first :: (← many (digit base <|> (do let _ ← char '_'; digit base)))

/-- Whether a minus sign stands here; a plus sign is passed over. -/
def sign : Scanner Bool := do
  return (← optional (char '-' <|> char '+')) == some '-'

/-- The digits of a decimal integer: no zero before others. -/
def decimalDigits : Scanner (List Nat) := do
  match ← peek with
  | some '0' => return [← digit 10]
  | _ => digitRun 10

/-- An integer within 64 bits. -/
def ofInt (n : Int) : Scanner Value :=
  if -9223372036854775808 ≤ n ∧ n < 9223372036854775808 then pure (.integer n) else failure

/-- An integer in a base other than ten, after the letter that stands for the base. -/
def basedInteger (letter : Char) (base : Nat) : Scanner Value := do
  literal ['0', letter]
  ofInt (Numeral.value base (← digitRun base))

/-- A decimal integer. -/
def decimalInteger : Scanner Value := do
  let negative ← sign
  let n : Int := Numeral.value 10 (← decimalDigits)
  ofInt (if negative then -n else n)

/-- An integer. -/
def integer : Scanner Value :=
  basedInteger 'x' 16 <|> basedInteger 'o' 8 <|> basedInteger 'b' 2 <|> decimalInteger

/-- The digits after the point. -/
def fractionDigits : Scanner (List Nat) := do
  let _ ← char '.'
  digitRun 10

/-- The power of ten. -/
def exponent : Scanner Int := do
  let _ ← char 'e' <|> char 'E'
  let negative ← sign
  let n : Int := Numeral.value 10 (← digitRun 10)
  return if negative then -n else n

/-- A decimal with a point, a power of ten or both. One too great is no number, unless it is
negative. -/
def decimal : Scanner Value := do
  let negative ← sign
  let whole ← decimalDigits
  let after? ← optional fractionDigits
  let power? ← optional exponent
  if after?.isNone ∧ power?.isNone then failure
  let after := after?.getD []
  let x := Binary64.ofDecimal negative (Numeral.value 10 (whole ++ after))
    (power?.getD 0 - after.length)
  if x = .infinite false then failure else return .float x

/-- Infinity or the value that is no number; the latter has no sign. -/
def special : Scanner Value := do
  let negative ← sign
  (do literal "inf".toList; return .float (.infinite negative)) <|>
    (do literal "nan".toList; return .float .nan)

/-- A floating point number. -/
def float : Scanner Value := decimal <|> special

/-- Whether February has 29 days. -/
def isLeapYear (year : Nat) : Bool := year % 4 == 0 && (year % 100 != 0 || year % 400 == 0)

/-- The number of days in a month. -/
def daysIn (year month : Nat) : Nat :=
  if month = 2 then if isLeapYear year then 29 else 28
  else if month = 4 ∨ month = 6 ∨ month = 9 ∨ month = 11 then 30
  else 31

/-- A number of two digits in a range. -/
def twoDigits (low high : Nat) : Scanner Nat := do
  let n ← number 10 2
  if low ≤ n ∧ n ≤ high then return n else failure

/-- A day of the calendar. -/
def date : Scanner Unit := do
  let year ← number 10 4
  let _ ← char '-'
  let month ← twoDigits 1 12
  let _ ← char '-'
  let _ ← twoDigits 1 (daysIn year month)

/-- A time of the day, with leap seconds and any number of digits after the point. -/
def time : Scanner Unit := do
  let _ ← twoDigits 0 23
  let _ ← char ':'
  let _ ← twoDigits 0 59
  let _ ← char ':'
  let _ ← twoDigits 0 60
  let _ ← optional (do let _ ← char '.'; several (digit 10))

/-- The distance from universal time. -/
def offset : Scanner Unit := do
  match ← satisfy fun _ => true with
  | 'Z' | 'z' => return
  | '+' | '-' =>
    let _ ← twoDigits 0 23
    let _ ← char ':'
    let _ ← twoDigits 0 59
  | _ => failure

/-- A date, a time, or a date with a time and perhaps its distance from universal time. -/
def moment : Scanner Value :=
  (do
    date
    let _ ← optional do
      let _ ← char 'T' <|> char 't' <|> char ' '
      time
      optional offset
    return .moment) <|>
  (do
    time
    return .moment)

/-- A number or a moment. -/
def numeric : Scanner Value := moment <|> float <|> integer

end Socks.Toml
