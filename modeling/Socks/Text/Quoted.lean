import Socks.Text.SpelledOut

/-!
# Quoted text

A text between double quotes, so that every character can be told: some have a short escape, and
those that would not be seen as themselves are written by number.
-/

namespace Socks.Text

/-- A code point by number. -/
def byNumber (c : Char) : List Char := '\\' :: 'u' :: '\x7b' :: Nat.toDigits 16 c.toNat ++ ['\x7d']

/-- A character within quotes. -/
def quoteChar (c : Char) : List Char :=
  if c = '\x00' then ['\\', '0']
  else if c = '\t' then ['\\', 't']
  else if c = '\n' then ['\\', 'n']
  else if c = '\r' then ['\\', 'r']
  else if c = '"' then ['\\', '"']
  else if c = '\\' then ['\\', '\\']
  else if isSpelledOut c.toNat then byNumber c
  else [c]

/-- A text in double quotes. -/
def quoted (s : String) : String := String.ofList ('"' :: s.toList.flatMap quoteChar ++ ['"'])

end Socks.Text
