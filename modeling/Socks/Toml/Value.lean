import Socks.Binary64

/-!
# Values of a TOML document

A document is a table: keys with their values in the order in which they stand.
-/

namespace Socks.Toml

/-- A value. Of dates and times only that they are one is kept. -/
inductive Value where
  | string (text : String)
  | integer (n : Int)
  | float (x : Binary64)
  | boolean (b : Bool)
  | moment
  | array (items : List Value)
  | table (entries : List (String × Value))

/-- Keys and their values, in order; no key stands twice. -/
abbrev Table := List (String × Value)

/-- The value of a key. -/
def Table.get? (t : Table) (key : String) : Option Value :=
  (t.find? fun e => e.1 == key).map Prod.snd

end Socks.Toml
