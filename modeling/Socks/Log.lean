import Socks.Failure

/-!
# The log

What the program tells about itself: lines with a level and an origin, kept from a level on, and
written as plain text or as JSON.
-/

namespace Socks

/-- The name of the program. -/
def programName : String := "socksd"

/-- How important a line of the log is. -/
inductive Level where
  | error | warn | info | debug | trace
deriving DecidableEq

namespace Level

/-- The name of a level. -/
def name : Level → String
  | error => "ERROR"
  | warn => "WARN"
  | info => "INFO"
  | debug => "DEBUG"
  | trace => "TRACE"

/-- How much is told from a level on. -/
def verbosity : Level → Nat
  | error => 0
  | warn => 1
  | info => 2
  | debug => 3
  | trace => 4

/-- Whether a log that is kept at a level shows the lines of another. -/
def shows (kept line : Level) : Bool := line.verbosity ≤ kept.verbosity

/-- The level that a word names; every other word means `info`. -/
def ofWord (word : String) : Level :=
  let word := word.map Char.toLower
  if word = "trace" then trace
  else if word = "debug" then debug
  else if word = "warn" ∨ word = "warning" then warn
  else if word = "error" then error
  else info

end Level

/-- A line of the log. -/
structure LogLine where
  level : Level
  origin : String
  text : String
deriving DecidableEq

namespace LogLine

/-- The lines that are shown at a level. -/
def shown (kept : Level) (log : List LogLine) : List LogLine :=
  log.filter fun l => kept.shows l.level

/-- A line as plain text. -/
def plain (time : String) (l : LogLine) : String :=
  let pad := String.ofList (List.replicate (5 - l.level.name.length) ' ')
  time ++ " " ++ pad ++ l.level.name ++ " " ++ l.origin ++ ": " ++ l.text

/-- A character in a JSON string. -/
def escaped (c : Char) : String :=
  if c = '"' then "\\\""
  else if c = '\\' then "\\\\"
  else if c = '\n' then "\\n"
  else if c = '\r' then "\\r"
  else if c = '\t' then "\\t"
  else if c = '\x08' then "\\b"
  else if c = '\x0c' then "\\f"
  else if c.toNat < 32 then "\\u" ++ hexWord (UInt16.ofNat c.toNat)
  else c.toString

/-- A text as a JSON string. -/
def jsonString (text : String) : String :=
  "\"" ++ String.join (text.toList.map escaped) ++ "\""

/-- The members of a JSON object. -/
def jsonObject (members : List (String × String)) : String :=
  "\x7b" ++ ",".intercalate (members.map fun m => jsonString m.1 ++ ":" ++ m.2) ++ "\x7d"

/-- A line as JSON. -/
def json (time : String) (l : LogLine) : String :=
  jsonObject
    [("timestamp", jsonString time), ("level", jsonString l.level.name),
     ("fields", jsonObject [("message", jsonString l.text)]), ("target", jsonString l.origin)]

/-- Where the server writes its lines. -/
def serverOrigin : String := programName ++ "::server"

/-- Where the lines about requests are written. -/
def handlerOrigin : String := programName ++ "::socks::handler"

/-- A request was read. -/
def requested (r : Request) : LogLine :=
  ⟨.info, handlerOrigin,
    r.toText ++ " from " ++ (r.client?.map Endpoint.toText).getD "unknown"⟩

/-- The rules denied a request. -/
def denied (r : Request) : LogLine := ⟨.warn, handlerOrigin, r.toText ++ " denied by rules"⟩

/-- A client connected. -/
def accepted (client : Endpoint) : LogLine :=
  ⟨.debug, serverOrigin, "Accepted connection from " ++ client.toText⟩

/-- A connection ended in failure. -/
def failed (client : Endpoint) (f : Failure) : LogLine :=
  ⟨.warn, serverOrigin,
    "Connection from " ++ client.toText ++ " closed with error: " ++ f.message⟩

/-- No connection could be accepted. -/
def notAccepted (e : IoError) : LogLine :=
  ⟨.error, serverOrigin, "Failed to accept connection: " ++ e.text⟩

end LogLine

end Socks
