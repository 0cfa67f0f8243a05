import Socks.Clock
import Socks.Config
import Socks.Endpoint
import Socks.IoError

/-!
# Hosts

The machine the server runs on, as far as its sockets are concerned: the addresses at which sockets
can be opened, and what becomes of an attempt to reach an endpoint.
-/

namespace Socks

/-- The options of a TCP socket; no number of seconds switches keepalive off. -/
structure SocketOptions where
  nodelay : Bool
  keepaliveIdle? : Option UInt64
  keepaliveInterval? : Option UInt64
deriving DecidableEq

namespace SocketOptions

/-- A number of seconds, of which zero stands for none. -/
def seconds? (n : UInt64) : Option UInt64 := if n = 0 then none else some n

/-- The options that a configuration asks for. -/
def ofConfig (c : Config.Tcp) : SocketOptions :=
  ⟨c.nodelay, seconds? c.keepaliveIdle, seconds? c.keepaliveInterval⟩

/-- The options unless told otherwise. -/
def default : SocketOptions := ofConfig .default

/-- Keepalive is on when both of its times are given. -/
def keepalive? (o : SocketOptions) : Option (UInt64 × UInt64) := do
  return (← o.keepaliveIdle?, ← o.keepaliveInterval?)

end SocketOptions

/-- How connections are opened: with which options, and for how long an answer is awaited. -/
structure Dialer where
  options : SocketOptions
  limit : UInt64
deriving DecidableEq

namespace Dialer

/-- The dialer unless told otherwise. -/
def default : Dialer := ⟨.default, 10⟩

/-- The error of a destination that does not answer in time. -/
def timedOut (destination : Endpoint) : IoError :=
  ⟨.timedOut, "connection timeout to " ++ destination.toText⟩

end Dialer

/-- What becomes of an attempt to reach an endpoint. -/
inductive Contact where
  | accepted
  | failed (error : IoError)
  | silent
deriving DecidableEq

/-- The sockets of a machine. -/
structure Host where
  canBind : IpAddress → Bool
  contact : Endpoint → Contact

namespace Host

/-- The outcome of opening a listening or datagram socket. -/
def bind (h : Host) (place : Endpoint) : Except IoError Endpoint :=
  if h.canBind place.ip then .ok place else .error .addrNotAvailable

/-- What has become of dialing a destination after some milliseconds of waiting, if anything. -/
def dial (h : Host) (d : Dialer) (destination : Endpoint) (waited : Nat) :
    Option (Except IoError SocketOptions) :=
  match h.contact destination with
  | .accepted => some (.ok d.options)
  | .failed e => some (.error e)
  | .silent =>
    if Clock.deadline 0 d.limit ≤ waited then some (.error (Dialer.timedOut destination)) else none

/-- Whether two addresses are of one family. -/
def sameFamily : IpAddress → IpAddress → Bool
  | .v4 _, .v4 _ => true
  | .v6 _, .v6 _ => true
  | _, _ => false

/-- The most bytes that a datagram of a family carries. -/
def maxPayload : IpAddress → Nat
  | .v4 _ => 65507
  | .v6 _ => 65527

/-- Whether a socket takes a datagram for a destination: one of its own family with a port, and
not too long. -/
def carries (via destination : Endpoint) (payload : Bytes) : Bool :=
  sameFamily via.ip destination.ip && destination.port != 0 &&
    payload.length ≤ maxPayload via.ip

/-- A machine without network: IPv4 sockets may have any address, IPv6 ones only that of all
interfaces or one that maps an IPv4 address, and nothing can be reached. -/
def isolated : Host where
  canBind
    | .v4 _ => true
    | .v6 o => o == Block.zero 16 || IpAddress.mapsV4 o
  contact e :=
    match e.ip with
    | .v4 _ => .failed .networkUnreachable
    | .v6 o => .failed (if IpAddress.mapsV4 o then .networkUnreachable else .addrNotAvailable)

/-- The addresses of this machine by name. -/
def localNames (host : String) : List IpAddress :=
  if host = "localhost" then
    [.v6 ⟨List.replicate 15 0 ++ [1], rfl⟩, .ofOctets 127 0 0 1]
  else (IpAddress.parse? host).toList

/-- A port after a name; a plus sign may come first. -/
def namedPort? : List Char → Option UInt16
  | '+' :: digits => Endpoint.port? digits
  | digits => Endpoint.port? digits

/-- The host and the port of a text that has them before and after its last colon. -/
def namedPlace? (text : String) : Option (String × UInt16) :=
  let reversed := text.toList.reverse
  let port := (reversed.takeWhile (· != ':')).reverse
  match reversed.dropWhile (· != ':'), namedPort? port with
  | _ :: host, some port => some (String.ofList host.reverse, port)
  | _, _ => none

/-- The places that a text may mean: an endpoint, or a host of this machine and a port. -/
def places (text : String) : List Endpoint :=
  match Endpoint.parse? text, namedPlace? text with
  | some e, _ => [e]
  | none, some (host, port) => (localNames host).map fun ip => ⟨ip, port⟩
  | none, none => []

/-- Whether two listeners would be in each other's way: they have a port in common, and one of them
takes what comes to the other. -/
def clash (a b : Endpoint) : Bool :=
  a.port != 0 && a.port == b.port && (a.ip.covers b.ip || b.ip.covers a.ip)

/-- Where a server listens that is told to do so by a text: at the first place that is free, given
the listeners that are there already. -/
def listen? (h : Host) (listeners : List Endpoint) (text : String) : Option Endpoint :=
  (places text).find? fun e => h.canBind e.ip && !listeners.any (clash e)

end Host

end Socks
