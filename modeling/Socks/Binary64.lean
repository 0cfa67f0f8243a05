import Socks.Numeral

/-!
# Binary floating point

Numbers of 53 binary digits: the one nearest to a decimal numeral, and the shortest decimal numeral
that is nearest to a number, found by trying one digit, two digits and so on up to seventeen.
-/

namespace Socks

/-- A binary floating point number; a finite one is `mantissa * 2 ^ exponent` with a sign. -/
inductive Binary64 where
  | finite (negative : Bool) (mantissa : Nat) (exponent : Int)
  | infinite (negative : Bool)
  | nan
deriving DecidableEq

namespace Binary64

/-- The least exponent. -/
def minExponent : Int := -1074

/-- The greatest exponent. -/
def maxExponent : Int := 971

/-- The least mantissa of 53 binary digits. -/
def leadingBit : Nat := 4503599627370496

/-- The quotient, rounded to the nearest natural and to the even one of two. -/
def divideToEven (n d : Nat) : Nat :=
  let q := n / d
  let r := n % d
  if 2 * r < d ∨ (2 * r = d ∧ q % 2 = 0) then q else q + 1

/-- The number nearest to a positive fraction. -/
def ofFraction (negative : Bool) (n d : Nat) : Binary64 :=
  let scale : Int := (n.log2 : Int) - d.log2
  let wholeScale : Bool := if 0 ≤ scale then d <<< scale.toNat ≤ n else d ≤ n <<< (-scale).toNat
  let exponent := max minExponent (if wholeScale then scale - 52 else scale - 53)
  let mantissa :=
    if 0 ≤ exponent then divideToEven n (d <<< exponent.toNat)
    else divideToEven (n <<< (-exponent).toNat) d
  let (mantissa, exponent) :=
    if mantissa = 2 * leadingBit then (leadingBit, exponent + 1) else (mantissa, exponent)
  if maxExponent < exponent then infinite negative else finite negative mantissa exponent

/-- The number nearest to `n * 10 ^ exponent`. Far beyond the range the powers of ten are not
computed. -/
def ofDecimal (negative : Bool) (n : Nat) (exponent : Int) : Binary64 :=
  let size := (Nat.toDigits 10 n).length + exponent
  if n = 0 ∨ size < -330 then finite negative 0 0
  else if 310 < size then infinite negative
  else if 0 ≤ exponent then ofFraction negative (n * Nat.pow 10 exponent.toNat) 1
  else ofFraction negative n (Nat.pow 10 (-exponent).toNat)

/-- A positive number with the reals that round to it, as fractions of one denominator; the ends of
the interval belong to it when `closed`. -/
structure Neighbourhood where
  low : Nat
  value : Nat
  high : Nat
  denominator : Nat
  closed : Bool

/-- The reals that round to `mantissa * 2 ^ exponent`. -/
def neighbourhood (mantissa : Nat) (exponent : Int) : Neighbourhood :=
  let below := if mantissa = leadingBit ∧ minExponent < exponent then 1 else 2
  let quarter := exponent - 2
  let unit := Nat.pow 2 quarter.toNat
  ⟨(4 * mantissa - below) * unit, 4 * mantissa * unit, (4 * mantissa + 2) * unit,
    Nat.pow 2 (-quarter).toNat, mantissa % 2 == 0⟩

namespace Neighbourhood

/-- Whether a fraction of the same denominator lies in the interval. -/
def contains (i : Neighbourhood) (x : Nat) : Bool :=
  if i.closed then i.low ≤ x && x ≤ i.high else i.low < x && x < i.high

/-- The interval in units of `10 ^ place`. -/
def scaled (i : Neighbourhood) (place : Int) : Neighbourhood :=
  let up := Nat.pow 10 (-place).toNat
  ⟨i.low * up, i.value * up, i.high * up, i.denominator * Nat.pow 10 place.toNat, i.closed⟩

/-- The multiple of `10 ^ place` next to the value that lies in the interval: the nearer one of
two, the upper one of two equally near. -/
def onGrid? (i : Neighbourhood) (place : Int) : Option Nat :=
  let i := i.scaled place
  let n := i.value / i.denominator
  let lower := n * i.denominator
  let upper := (n + 1) * i.denominator
  match i.contains lower, i.contains upper with
  | true, true => if i.value - lower < upper - i.value then some n else some (n + 1)
  | true, false => some n
  | false, true => some (n + 1)
  | false, false => none

/-- How many places of ten make the fraction at least one. -/
def leadingPlaces (n d : Nat) : Nat → Nat
  | 0 => 0
  | fuel + 1 => if d ≤ n then 0 else leadingPlaces (n * 10) d fuel + 1

/-- The number of digits before the decimal point, negative for zeros after it. -/
def digitsBefore (i : Neighbourhood) : Int :=
  let whole := i.value / i.denominator
  if whole = 0 then 1 - (leadingPlaces i.value i.denominator 400 : Int)
  else (Nat.toDigits 10 whole).length

/-- The shortest `n * 10 ^ place` in the interval, `count` digits being tried next. -/
def shortestFrom (i : Neighbourhood) (count : Nat) : Nat → Nat × Int
  | 0 => (i.value / i.denominator, 0)
  | fuel + 1 =>
    let place := i.digitsBefore - count
    match i.onGrid? place with
    | some n => (n, place)
    | none => shortestFrom i (count + 1) fuel

end Neighbourhood

/-- Digits after the point without zeros at the end, but at least one. -/
def fraction (digits : List Char) : List Char :=
  match (digits.reverse.dropWhile (· == '0')).reverse with
  | [] => ['0']
  | kept => kept

/-- The decimal numeral of `n * 10 ^ place`, always with a digit on both sides of the point. -/
def positional (n : Nat) (place : Int) : String :=
  let digits := Nat.toDigits 10 n ++ List.replicate place.toNat '0'
  let after := (-place).toNat
  let digits := List.replicate (after + 1 - digits.length) '0' ++ digits
  let before := digits.length - after
  String.ofList (digits.take before ++ '.' :: fraction (digits.drop before))

/-- The text of a number: the shortest numeral that reads back, without an exponent. -/
def toText : Binary64 → String
  | nan => "NaN"
  | infinite negative => if negative then "-inf" else "inf"
  | finite negative mantissa exponent =>
    let magnitude :=
      if mantissa = 0 then "0.0"
      else
        let (n, place) := (neighbourhood mantissa exponent).shortestFrom 1 17
        positional n place
    if negative then "-" ++ magnitude else magnitude

end Binary64

end Socks
