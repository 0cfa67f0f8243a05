/-!
# Numerals

Naturals as digits in a base from 2 to 16: the value of a digit, of a run of digits, and the
digits at the front of a text.
-/

namespace Socks.Numeral

/-- The value of a digit in the given base; letters count from ten in either case. -/
def digit? (base : Nat) (c : Char) : Option Nat :=
  let value? :=
    if '0' ≤ c ∧ c ≤ '9' then some (c.toNat - 48)
    else if 'a' ≤ c ∧ c ≤ 'f' then some (c.toNat - 87)
    else if 'A' ≤ c ∧ c ≤ 'F' then some (c.toNat - 55)
    else none
  value?.filter (· < base)

/-- The digits at the front of a text, and what follows them. -/
def span (base : Nat) : List Char → List Nat × List Char
  | [] => ([], [])
  | c :: rest =>
    match digit? base c with
    | some d => let (ds, rest) := span base rest; (d :: ds, rest)
    | none => ([], c :: rest)

/-- The number that a run of digits writes. -/
def value (base : Nat) (digits : List Nat) : Nat :=
  digits.foldl (fun n d => n * base + d) 0

/-- The number whose digits are exactly this text; no digits write no number. -/
def parse? (base : Nat) (text : List Char) : Option Nat :=
  match span base text with
  | ([], _) => none
  | (digits, []) => some (value base digits)
  | _ => none

/-- The digits of a number, small letters from ten on. -/
def text (base n : Nat) : String := String.ofList (Nat.toDigits base n)

end Socks.Numeral
