import Socks.Toml.Number
import Socks.Toml.Text
import Socks.Toml.Tree

/-!
# Reading TOML documents

A document is a sequence of lines: a header opens a table, and the keys that follow get their
values in it. A text is a document or it is not; nothing is said about where it goes wrong.
-/

namespace Socks.Toml

open Scanner

/-- A key, an equals sign and a value, the last part of the key apart from the others. -/
def definition (value : Scanner Value) : Scanner (List String × String × Value) := do
  let path ← key
  let _ ← char '='
  blanks
  let v ← value
  match path.getLast? with
  | some last => return (path.dropLast, last, v)
  | none => failure

/-- The items of an array after its opening bracket. -/
def arrayRest (value : Scanner Value) : Scanner Value := do
  gap
  let first ← optional value
  match first with
  | none =>
    let _ ← char ']'
    return .array []
  | some v =>
    let more ← many (do gap; let _ ← char ','; gap; value)
    gap
    let _ ← optional (char ',')
    gap
    let _ ← char ']'
    return .array (v :: more)

/-- The table that definitions between braces make. -/
def inlineTable? (ds : List (List String × String × Value)) : Option Value :=
  (ds.foldlM (fun es (path, last, v) => Entries.define es path last v) []).map fun es =>
    .table (Entries.toTable es)

/-- The definitions of an inline table after its opening brace, all on one line. -/
def inlineRest (value : Scanner Value) : Scanner Value := do
  blanks
  let item := do
    let d ← definition value
    blanks
    return d
  let ds ← optional (separated item do
    let _ ← char ',')
  blanks
  let _ ← char '\x7d'
  match inlineTable? (ds.getD []) with
  | some v => return v
  | none => failure

/-- A value that holds no others. -/
def scalar : Scanner Value :=
  (do return .string (← anyString)) <|>
    numeric <|>
    (do literal "true".toList; return .boolean true) <|>
    (do literal "false".toList; return .boolean false)

/-- A value, with arrays and inline tables up to a depth. -/
def value : Nat → Scanner Value
  | 0 => scalar
  | depth + 1 => do
    match ← peek with
    | some '[' =>
      let _ ← char '['
      arrayRest (value depth)
    | some '\x7b' =>
      let _ ← char '\x7b'
      inlineRest (value depth)
    | _ => scalar

/-- What a line holds. -/
inductive Line where
  | empty
  | header (path : List String)
  | element (path : List String)
  | definition (path : List String) (last : String) (value : Value)

/-- A line with its end. -/
def line : Scanner Line := do
  blanks
  match ← peek with
  | some '[' =>
    let l ←
      (do
        literal ['[', '[']
        let path ← key
        literal [']', ']']
        return .element path) <|>
      (do
        let _ ← char '['
        let path ← key
        let _ ← char ']'
        return .header path)
    lineEnd
    return l
  | some '#' | some '\r' | some '\n' | none =>
    lineEnd
    return .empty
  | _ =>
    let (path, last, v) ← definition (value maxDepth)
    lineEnd
    return .definition path last v

/-- The table that lines are adding to: the first one, that of a header, or one more of an
array. -/
inductive Place where
  | root
  | table (path : List String) (key : String)
  | element (path : List String) (key : String)

/-- A document of which some lines have been read: all tables but the one being added to, and that
one. -/
structure Draft where
  closed : Entries
  place : Place
  current : Entries

namespace Draft

/-- The document before its first line. -/
def start : Draft := ⟨[], .root, []⟩

/-- The document with the current table put into its place. -/
def close (d : Draft) : Option Entries :=
  match d.place with
  | .root => some d.current
  | .table path key => d.closed.closeTable path key d.current
  | .element path key => d.closed.closeElement path key d.current

/-- The document after one more line. -/
def add (d : Draft) : Line → Option Draft
  | .empty => some d
  | .definition path last v => do
    return { d with current := ← d.current.define path last v }
  | .header path => do
    let key ← path.getLast?
    let (closed, current) ← (← d.close).openTable path.dropLast key
    return ⟨closed, .table path.dropLast key, current⟩
  | .element path => do
    let key ← path.getLast?
    let closed ← (← d.close).openElement path.dropLast key
    return ⟨closed, .element path.dropLast key, []⟩

end Draft

/-- Reads lines up to the end of the text. Each takes at least one character, so there are at most
as many as characters. -/
def lines : Nat → Draft → Scanner Draft
  | 0, d => do
    atEnd
    return d
  | n + 1, d => fun text =>
    if text.isEmpty then some (d, text)
    else (do
      match d.add (← line) with
      | some d => lines n d
      | none => failure) text

/-- The document that a text writes; a byte order mark may come first. -/
def parse? (text : String) : Option Table :=
  let text :=
    match text.toList with
    | '\uFEFF' :: rest => rest
    | text => text
  match lines text.length .start text with
  | some (d, _) => d.close.map Entries.toTable
  | none => none

end Socks.Toml
