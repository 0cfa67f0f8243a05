import Socks.Config
import Socks.Text
import Socks.Text.Quoted
import Socks.Toml.Parser

/-!
# Reading configurations

A configuration is a TOML document with a table `server`. Known keys are judged in the order in
which they stand, then missing ones are filled in, then the whole is checked for conflicts. A group
of settings may also be an array of its values in order.
-/

namespace Socks.Config

open Toml

/-- Why a document is not a configuration. -/
inductive Misfit where
  | missing (field : String)
  | wrongType (found : Value) (wanted : String)
  | negative (n : Int)
  | tooShort (length : Nat) (group : String) (size : Nat)

/-- Why there is no configuration. -/
inductive Problem where
  | unreadable (file : String) (error : IoError)
  | malformed
  | misfit (misfit : Misfit)
  | conflict (conflict : Conflict)

namespace Misfit

/-- What a value is, in words. -/
def describe : Value → String
  | .string s => "string " ++ Text.quoted s
  | .integer n => "integer `" ++ toString n ++ "`"
  | .float x => "floating point `" ++ x.toText ++ "`"
  | .boolean b => "boolean `" ++ toString b ++ "`"
  | .moment => "map"
  | .array _ => "sequence"
  | .table _ => "map"

/-- The wording of a misfit. -/
def message : Misfit → String
  | missing field => "missing field `" ++ field ++ "`"
  | wrongType found wanted => "invalid type: " ++ describe found ++ ", expected " ++ wanted
  | negative n => "invalid value: integer `" ++ toString n ++ "`, expected u64"
  | tooShort length group size =>
    "invalid length " ++ Nat.repr length ++ ", expected struct " ++ group ++ " with " ++
      Nat.repr size ++ " elements"

end Misfit

namespace Problem

/-- The wording of a problem, without that of an input error. -/
def message : Problem → String
  | unreadable file _ => "Failed to read config file: " ++ file
  | malformed => "Failed to parse configuration"
  | misfit m => "Failed to parse configuration: " ++ m.message
  | conflict c => "Invalid SOCKS configuration: " ++ c.message

/-- The part of the wording that says at which stage the problem arose. -/
def stage : Problem → String
  | unreadable file _ => "Failed to read config file: " ++ file
  | malformed => "Failed to parse configuration"
  | misfit _ => "Failed to parse configuration"
  | conflict _ => "Invalid SOCKS configuration"

/-- The input error behind a problem. -/
def ioError? : Problem → Option IoError
  | unreadable _ e => some e
  | _ => none

end Problem

/-- Judges a value. -/
abbrev Reader (α : Type) := Value → Except Misfit α

namespace Reader

/-- A text. -/
def text : Reader String
  | .string s => .ok s
  | v => .error (.wrongType v "a string")

/-- Yes or no. -/
def flag : Reader Bool
  | .boolean b => .ok b
  | v => .error (.wrongType v "a boolean")

/-- A number that is not negative. -/
def count : Reader UInt64
  | .integer n => if 0 ≤ n then .ok (UInt64.ofNat n.toNat) else .error (.negative n)
  | v => .error (.wrongType v "u64")

end Reader

/-- A group of settings as written: its values by name, and what to say of one that is missing. -/
structure Group where
  entries : Table
  absent : String → Misfit

namespace Group

/-- The group that a value writes: a table, or an array of its first values in order. A date holds
no settings. -/
def ofValue (name : String) (fields : List String) : Reader Group
  | .table t => .ok ⟨t, .missing⟩
  | .moment => .ok ⟨[], .missing⟩
  | .array items => .ok ⟨fields.zip items, fun _ => .tooShort items.length name fields.length⟩
  | v => .error (.wrongType v ("struct " ++ name))

/-- A setting, if it is there. -/
def get? {α : Type} (g : Group) (field : String) (read : Reader α) : Except Misfit (Option α) :=
  match g.entries.get? field with
  | some v => (read v).map some
  | none => .ok none

/-- A setting that may be missing. -/
def getD {α : Type} (g : Group) (field : String) (read : Reader α) (default : α) :
    Except Misfit α :=
  (g.get? field read).map fun v? => v?.getD default

/-- A setting that may not be missing. -/
def get {α : Type} (g : Group) (field : String) (read : Reader α) : Except Misfit α := do
  match ← g.get? field read with
  | some a => .ok a
  | none => .error (g.absent field)

/-- Judges the settings in the order in which they stand. -/
def judge (g : Group) (check : String → Value → Except Misfit Unit) : Except Misfit Unit :=
  g.entries.forM fun e => check e.1 e.2

end Group

/-- A judgement without the value. -/
def judged {α : Type} (r : Except Misfit α) : Except Misfit Unit := r.map fun _ => ()

/-- The settings of the protocols, in order. -/
def protocolFields : List String :=
  ["auth_required", "username", "password", "allow_connect", "allow_bind", "allow_udp",
   "request_timeout", "bind_timeout"]

/-- The judgement on a setting of the protocols. -/
def checkProtocol (field : String) (v : Value) : Except Misfit Unit :=
  if field ∈ ["auth_required", "allow_connect", "allow_bind", "allow_udp"] then
    judged (Reader.flag v)
  else if field ∈ ["username", "password"] then judged (Reader.text v)
  else if field ∈ ["request_timeout", "bind_timeout"] then judged (Reader.count v)
  else .ok ()

/-- The settings of the protocols. -/
def readProtocol : Reader Protocol := fun v => do
  let g ← Group.ofValue "SocksConfig" protocolFields v
  g.judge checkProtocol
  let d := Protocol.default
  return {
    authRequired := ← g.getD "auth_required" Reader.flag d.authRequired
    username? := ← g.get? "username" Reader.text
    password? := ← g.get? "password" Reader.text
    allowConnect := ← g.getD "allow_connect" Reader.flag d.allowConnect
    allowBind := ← g.getD "allow_bind" Reader.flag d.allowBind
    allowDatagrams := ← g.getD "allow_udp" Reader.flag d.allowDatagrams
    requestLimit := ← g.getD "request_timeout" Reader.count d.requestLimit
    bindLimit := ← g.getD "bind_timeout" Reader.count d.bindLimit }

/-- The settings of TCP sockets, in order. -/
def tcpFields : List String := ["nodelay", "keepalive_secs", "keepalive_interval"]

/-- The judgement on a setting of TCP sockets. -/
def checkTcp (field : String) (v : Value) : Except Misfit Unit :=
  if field = "nodelay" then judged (Reader.flag v)
  else if field ∈ ["keepalive_secs", "keepalive_interval"] then judged (Reader.count v)
  else .ok ()

/-- The settings of TCP sockets. -/
def readTcp : Reader Tcp := fun v => do
  let g ← Group.ofValue "TcpConfig" tcpFields v
  g.judge checkTcp
  let d := Tcp.default
  return {
    nodelay := ← g.getD "nodelay" Reader.flag d.nodelay
    keepaliveIdle := ← g.getD "keepalive_secs" Reader.count d.keepaliveIdle
    keepaliveInterval := ← g.getD "keepalive_interval" Reader.count d.keepaliveInterval }

/-- The settings of a server, in order. -/
def serverFields : List String := ["listen_addr", "socks", "tcp"]

/-- The judgement on a setting of a server. -/
def checkServer (field : String) (v : Value) : Except Misfit Unit :=
  if field = "listen_addr" then judged (Reader.text v)
  else if field = "socks" then judged (readProtocol v)
  else if field = "tcp" then judged (readTcp v)
  else .ok ()

/-- The settings of a server. -/
def readServer : Reader Server := fun v => do
  let g ← Group.ofValue "ServerConfig" serverFields v
  g.judge checkServer
  return {
    listenAddress := ← g.get "listen_addr" Reader.text
    protocol := ← g.getD "socks" readProtocol Protocol.default
    tcp := ← g.getD "tcp" readTcp Tcp.default }

/-- The server that a document configures. -/
def ofDocument (t : Table) : Except Misfit Server :=
  Group.get ⟨t, .missing⟩ "server" readServer

/-- A server whose configuration makes sense. -/
def checked (s : Server) : Except Problem Server :=
  match s.protocol.conflict? with
  | some c => .error (.conflict c)
  | none => .ok s

/-- The server that a text configures. -/
def parse (text : String) : Except Problem Server :=
  match Toml.parse? text with
  | none => .error .malformed
  | some t =>
    match ofDocument t with
    | .error m => .error (.misfit m)
    | .ok s => checked s

/-- The error of a file that is not there. -/
def fileNotFound : IoError := ⟨.notFound, "No such file or directory (os error 2)"⟩

/-- The error of a file that is no text. -/
def fileNotText : IoError := ⟨.invalidData, "stream did not contain valid UTF-8"⟩

/-- The server that a file configures, given what reading the file brought. -/
def load (file : String) (content : Except IoError Bytes) : Except Problem Server :=
  match content with
  | .error e => .error (.unreadable file e)
  | .ok bytes =>
    match Text.ofBytes? bytes with
    | none => .error (.unreadable file fileNotText)
    | some text => parse text

end Socks.Config
