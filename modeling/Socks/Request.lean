import Socks.Address

/-!
# Requests

What a client asks for: the protocol version it speaks, the command, the destination and who it
has shown to be.
-/

namespace Socks

/-- The protocol versions; SOCKS4 includes its extension by host names. -/
inductive Version where
  | v4 | v5
deriving DecidableEq

namespace Version

/-- The name of a version. -/
def name : Version → String
  | v4 => "SOCKS4"
  | v5 => "SOCKS5"

/-- The byte that opens a connection of this version. -/
def byte : Version → UInt8
  | v4 => 4
  | v5 => 5

/-- The version that a byte opens. -/
def ofByte? (b : UInt8) : Option Version :=
  if b = 4 then some v4 else if b = 5 then some v5 else none

end Version

/-- What a client can ask for. -/
inductive Command where
  | connect | bind | associate
deriving DecidableEq

namespace Command

/-- The name of a command. -/
def name : Command → String
  | connect => "CONNECT"
  | bind => "BIND"
  | associate => "UDP ASSOCIATE"

/-- The byte of a command. -/
def byte : Command → UInt8
  | connect => 1
  | bind => 2
  | associate => 3

/-- The command of a byte; SOCKS4 has no datagrams. -/
def ofByte? (version : Version) (b : UInt8) : Option Command :=
  if b = 1 then some connect
  else if b = 2 then some bind
  else if b = 3 ∧ version = .v5 then some associate
  else none

end Command

/-- The authentication methods of SOCKS5 that a server may support. -/
inductive Method where
  | noAuth | userPass
deriving DecidableEq

namespace Method

/-- The name of a method. -/
def name : Method → String
  | noAuth => "NoAuth"
  | userPass => "UserPass"

/-- The byte of a method. -/
def byte : Method → UInt8
  | noAuth => 0
  | userPass => 2

/-- The method of a byte. -/
def ofByte? (b : UInt8) : Option Method :=
  if b = 0 then some noAuth else if b = 2 then some userPass else none

end Method

/-- Who the client is: the method it went through and the user name it gave, if any. -/
structure Identity where
  method : Method
  username? : Option String
deriving DecidableEq

namespace Identity

/-- A client that gave no name. -/
def anonymous : Identity := ⟨.noAuth, none⟩

/-- A client that gave a name. -/
def user (method : Method) (username : String) : Identity := ⟨method, some username⟩

end Identity

/-- A complete request. -/
structure Request where
  version : Version
  command : Command
  destination : Address
  identity : Identity
  client? : Option Endpoint
deriving DecidableEq

namespace Request

/-- The request in words. -/
def toText (r : Request) : String :=
  r.version.name ++ " " ++ r.command.name ++ " to " ++ r.destination.toText

end Request

end Socks
