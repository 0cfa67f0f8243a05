import Socks.Numeral

/-!
# Scanning text

Readers of the front of a text. A reader that does not find what it looks for gives nothing, and
another one may then be tried at the same place.
-/

namespace Socks.Toml

/-- Reads something at the front of a text. -/
abbrev Scanner := StateT (List Char) Option

namespace Scanner

variable {α : Type}

/-- The next character, which stays where it is. -/
def peek : Scanner (Option Char) := fun text => some (text.head?, text)

/-- The next character of a kind. -/
def satisfy (p : Char → Bool) : Scanner Char
  | c :: rest => if p c then some (c, rest) else none
  | [] => none

/-- A given character. -/
def char (c : Char) : Scanner Char := satisfy (· == c)

/-- Given characters, one after the other. -/
def literal : List Char → Scanner Unit
  | [] => pure ()
  | c :: cs => do
    let _ ← char c
    literal cs

/-- All characters of a kind. -/
def takeWhile (p : Char → Bool) : Scanner (List Char) := fun text =>
  some (text.takeWhile p, text.dropWhile p)

/-- As many as there are, at most so many. -/
def upTo (p : Scanner α) : Nat → Scanner (List α)
  | 0 => pure []
  | n + 1 => fun text =>
    match p text with
    | none => some ([], text)
    | some (a, rest) =>
      match upTo p n rest with
      | none => none
      | some (more, rest) => some (a :: more, rest)

/-- As many as there are. Each takes at least one character, so there are at most as many as
characters. -/
def many (p : Scanner α) : Scanner (List α) := fun text => upTo p text.length text

/-- At least one, and as many as there are. -/
def several (p : Scanner α) : Scanner (List α) := do
  let a ← p
  return a :: (← many p)

/-- At least one, with a separator between each two. -/
def separated (p : Scanner α) (separator : Scanner Unit) : Scanner (List α) := do
  let a ← p
  return a :: (← many (do separator; p))

/-- The end of the text. -/
def atEnd : Scanner Unit
  | [] => some ((), [])
  | _ => none

/-- A digit of a base, by its value. -/
def digit (base : Nat) : Scanner Nat
  | c :: rest => (Numeral.digit? base c).map fun d => (d, rest)
  | [] => none

/-- So many digits of a base, by their value. -/
def digits (base : Nat) : Nat → Nat → Scanner Nat
  | 0, value => pure value
  | n + 1, value => do
    let d ← digit base
    digits base n (value * base + d)

/-- A number of so many digits. -/
def number (base count : Nat) : Scanner Nat := digits base count 0

end Scanner

end Socks.Toml
