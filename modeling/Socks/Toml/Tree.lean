import Socks.Toml.Value

/-!
# Documents under construction

A document grows line by line. A table remembers how it came to be: by a header, because a header
named something inside it, or because a dotted key did. A header may complete a table of the second
kind, once; dotted keys may only add to tables of the third kind; and nothing is defined twice.
-/

namespace Socks.Toml

/-- How a table came to be. -/
inductive Origin where
  | header | implied | dotted
deriving DecidableEq

/-- What a key of an unfinished document holds: a value, a table, or tables in an array, the last
of which is the one to add to. -/
inductive Node where
  | leaf (value : Value)
  | table (origin : Origin) (entries : List (String × Node))
  | tables (elements : List (List (String × Node)))

/-- The contents of an unfinished table. -/
abbrev Entries := List (String × Node)

namespace Entries

/-- What a key holds. -/
def get? (es : Entries) (key : String) : Option Node :=
  (es.find? fun e => e.1 == key).map Prod.snd

/-- Puts something else in the place of what a key holds. -/
def replace (es : Entries) (key : String) (n : Node) : Entries :=
  es.map fun e => if e.1 == key then (key, n) else e

/-- Adds a key at the end. -/
def append (es : Entries) (key : String) (n : Node) : Entries := es ++ [(key, n)]

/-- Takes a key away. -/
def erase (es : Entries) (key : String) : Entries := es.filter fun e => e.1 != key

/-- Changes the table at the end of a path, and makes the tables on the way that are missing. A
path of dotted keys does not lead into a table that has a header. -/
def descend {α : Type} (dotted : Bool) (change : Origin → Entries → Option (Entries × α)) :
    List String → Origin → Entries → Option (Entries × α)
  | [], origin, es => change origin es
  | key :: path, _, es =>
    match es.get? key with
    | none => do
      let origin := if dotted then .dotted else .implied
      let (inner, a) ← descend dotted change path origin []
      return (es.append key (.table origin inner), a)
    | some (.leaf _) => none
    | some (.table origin inner) =>
      if dotted ∧ origin = .header then none
      else do
        let (inner, a) ← descend dotted change path origin inner
        return (es.replace key (.table origin inner), a)
    | some (.tables elements) => do
      let last ← elements.getLast?
      let (last, a) ← descend dotted change path .header last
      return (es.replace key (.tables (elements.dropLast ++ [last])), a)

/-- Gives a value to a dotted key. -/
def define (es : Entries) (path : List String) (key : String) (v : Value) : Option Entries :=
  let put (origin : Origin) (inner : Entries) : Option (Entries × Unit) :=
    if (origin == .dotted) == path.isEmpty then none
    else if (inner.get? key).isSome then none
    else some (inner.append key (.leaf v), ())
  (descend true put path .header es).map Prod.fst

/-- Opens the table of a header: what headers have put into it before is taken out of the document
for now. -/
def openTable (es : Entries) (path : List String) (key : String) : Option (Entries × Entries) :=
  let take (_ : Origin) (inner : Entries) : Option (Entries × Entries) :=
    match inner.get? key with
    | none => some (inner, [])
    | some (.table .implied contents) => some (inner.erase key, contents)
    | some _ => none
  descend false take path .header es

/-- Puts the table of a header into the document. -/
def closeTable (es : Entries) (path : List String) (key : String) (contents : Entries) :
    Option Entries :=
  let put (_ : Origin) (inner : Entries) : Option (Entries × Unit) :=
    some (inner.append key (.table .header contents), ())
  (descend false put path .header es).map Prod.fst

/-- Prepares an array for one more table. -/
def openElement (es : Entries) (path : List String) (key : String) : Option Entries :=
  let prepare (_ : Origin) (inner : Entries) : Option (Entries × Unit) :=
    match inner.get? key with
    | none => some (inner.append key (.tables []), ())
    | some (.tables _) => some (inner, ())
    | some _ => none
  (descend false prepare path .header es).map Prod.fst

/-- Adds a table to an array. -/
def closeElement (es : Entries) (path : List String) (key : String) (contents : Entries) :
    Option Entries :=
  let put (_ : Origin) (inner : Entries) : Option (Entries × Unit) :=
    match inner.get? key with
    | some (.tables elements) =>
      some (inner.replace key (.tables (elements ++ [contents])), ())
    | _ => none
  (descend false put path .header es).map Prod.fst

end Entries

mutual

/-- The value that a node has become. -/
def Node.toValue : Node → Value
  | .leaf v => v
  | .table _ es => .table (Entries.toTable es)
  | .tables elements => .array (Entries.toItems elements)

/-- The table that the contents of an unfinished one have become. -/
def Entries.toTable : List (String × Node) → Table
  | [] => []
  | (key, n) :: es => (key, n.toValue) :: Entries.toTable es

/-- The tables of an array. -/
def Entries.toItems : List (List (String × Node)) → List Value
  | [] => []
  | es :: rest => .table (Entries.toTable es) :: Entries.toItems rest

end

end Socks.Toml
