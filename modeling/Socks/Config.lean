import Socks.IoError

/-!
# Configuration

What the server is told at its start, the defaults, and what makes a configuration invalid.
-/

namespace Socks

namespace Config

/-- How the SOCKS protocols are served; time limits are in seconds. -/
structure Protocol where
  authRequired : Bool
  username? : Option String
  password? : Option String
  allowConnect : Bool
  allowBind : Bool
  allowDatagrams : Bool
  requestLimit : UInt64
  bindLimit : UInt64
deriving DecidableEq

/-- The options of TCP sockets; zero seconds switch keepalive off. -/
structure Tcp where
  nodelay : Bool
  keepaliveIdle : UInt64
  keepaliveInterval : UInt64
deriving DecidableEq

/-- A server: where it listens, and how it serves. -/
structure Server where
  listenAddress : String
  protocol : Protocol
  tcp : Tcp
deriving DecidableEq

namespace Protocol

/-- Everybody may connect and exchange datagrams, nobody may let others connect. -/
def default : Protocol := ⟨false, none, none, true, false, true, 10, 60⟩

/-- Whether there is a user that can authenticate. -/
def hasCredentials (c : Protocol) : Bool := c.username?.isSome && c.password?.isSome

end Protocol

namespace Tcp

/-- The options unless told otherwise. -/
def default : Tcp := ⟨true, 20, 8⟩

end Tcp

/-- Why a configuration makes no sense. -/
inductive Conflict where
  | noCredentials
  | noRequestTime
  | noBindTime
deriving DecidableEq

namespace Conflict

/-- The wording of a conflict. -/
def message : Conflict → String
  | noCredentials => "Authentication required but no credentials configured"
  | noRequestTime => "request_timeout must be greater than zero"
  | noBindTime => "bind_timeout must be greater than zero"

end Conflict

/-- The first conflict of a configuration. -/
def Protocol.conflict? (c : Protocol) : Option Conflict :=
  if c.authRequired ∧ ¬c.hasCredentials then some .noCredentials
  else if c.requestLimit = 0 then some .noRequestTime
  else if c.bindLimit = 0 then some .noBindTime
  else none

end Config

end Socks
