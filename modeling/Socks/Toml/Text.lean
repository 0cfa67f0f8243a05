import Socks.Toml.Scanner

/-!
# Blanks, comments, strings and keys

Strings stand in double quotes, where a backslash escapes, or in single quotes, where nothing does;
three quotes open a string that may run over lines. Line ends inside strings become line feeds.
-/

namespace Socks.Toml

open Scanner

/-- A blank or a tab. -/
def isBlank (c : Char) : Bool := c == ' ' || c == '\t'

/-- A character of a comment or a string: no control character but the tab. -/
def isPlain (c : Char) : Bool := c == '\t' || (0x20 ≤ c.toNat && c.toNat != 0x7F)

/-- Blanks within a line. -/
def blanks : Scanner Unit := do
  let _ ← takeWhile isBlank

/-- The end of a line. -/
def newline : Scanner Unit := do
  let _ ← optional (char '\r')
  let _ ← char '\n'

/-- A comment up to the end of its line. -/
def comment : Scanner Unit := do
  let _ ← char '#'
  let _ ← takeWhile isPlain

/-- The rest of a line that holds nothing more. -/
def lineEnd : Scanner Unit := do
  blanks
  let _ ← optional comment
  newline <|> atEnd

/-- Blanks, comments and line ends, as they stand between the items of an array. -/
def gap : Scanner Unit := do
  let _ ← many ((do let _ ← satisfy isBlank) <|> newline <|> comment)

/-- The character of a code point. -/
def ofCodePoint (n : Nat) : Scanner Char :=
  if n.isValidChar then pure (Char.ofNat n) else failure

/-- What a backslash stands for with the characters after it. -/
def escape : Scanner Char := do
  let _ ← char '\\'
  match ← satisfy fun _ => true with
  | 'b' => return '\x08'
  | 't' => return '\t'
  | 'n' => return '\n'
  | 'f' => return '\x0c'
  | 'r' => return '\r'
  | '"' => return '"'
  | '\\' => return '\\'
  | 'u' => ofCodePoint (← number 16 4)
  | 'U' => ofCodePoint (← number 16 8)
  | _ => failure

/-- A line end inside a string. -/
def stringNewline : Scanner Char := do
  newline
  return '\n'

/-- A character of a string in double quotes as it stands. -/
def unescaped : Scanner Char := satisfy fun c => isPlain c && c != '"' && c != '\\'

/-- A backslash at the end of a line, with all blanks and line ends that follow. -/
def continuation : Scanner (List Char) := do
  let _ ← char '\\'
  blanks
  newline
  let _ ← many ((do let _ ← satisfy isBlank) <|> newline)
  return []

/-- A string in double quotes. -/
def basicString : Scanner (List Char) := do
  let _ ← char '"'
  let text ← many (unescaped <|> escape)
  let _ ← char '"'
  return text

/-- A character of a string in single quotes. -/
def literalChar : Scanner Char := satisfy fun c => isPlain c && c != '\''

/-- A string in single quotes. -/
def literalString : Scanner (List Char) := do
  let _ ← char '\''
  let text ← many literalChar
  let _ ← char '\''
  return text

/-- One or two quotes that belong to the text, as something that is no quote follows them. -/
def innerQuotes (quote : Char) : Scanner (List Char) := fun text =>
  let quotes := text.takeWhile (· == quote)
  if quotes.length = 1 ∨ quotes.length = 2 then some (quotes, text.drop quotes.length) else none

/-- The three quotes that end a string, after up to two that belong to it. -/
def closingQuotes (quote : Char) : Scanner (List Char) := fun text =>
  let count := (text.takeWhile (· == quote)).length
  if 3 ≤ count ∧ count ≤ 5 then some (List.replicate (count - 3) quote, text.drop count)
  else none

/-- A string between three quotes; a line end right after the first three is left out. -/
def longString (quote : Char) (part : Scanner (List Char)) : Scanner (List Char) := do
  literal [quote, quote, quote]
  let _ ← optional newline
  let parts ← many (part <|> innerQuotes quote)
  return parts.flatten ++ (← closingQuotes quote)

/-- A part of a long string in double quotes. -/
def basicPart : Scanner (List Char) :=
  continuation <|> (do return [← unescaped <|> escape <|> stringNewline])

/-- A part of a long string in single quotes. -/
def literalPart : Scanner (List Char) := do
  return [← literalChar <|> stringNewline]

/-- A string of any of the four kinds. -/
def anyString : Scanner String := do
  let text ← longString '"' basicPart <|> longString '\'' literalPart <|> basicString <|>
    literalString
  return String.ofList text

/-- A character of a key without quotes. -/
def isBare (c : Char) : Bool := c.isAlphanum || c == '_' || c == '-'

/-- One part of a key. -/
def simpleKey : Scanner String := do
  let text ← basicString <|> literalString <|> several (satisfy isBare)
  return String.ofList text

/-- The most parts of a key, and the most arrays and inline tables within each other. -/
def maxDepth : Nat := 79

/-- A key: parts with dots between. -/
def key : Scanner (List String) := do
  let parts ← separated (do blanks; let part ← simpleKey; blanks; return part) do
    let _ ← char '.'
  if parts.length ≤ maxDepth then return parts else failure

end Socks.Toml
