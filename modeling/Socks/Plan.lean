import Socks.Reply
import Socks.Rules

/-!
# Plans

What the server does about a request: a tree whose nodes consult the rules, reply, or ask for a
look-up, a connection, a listener or a socket. A plan reads nothing from the control stream; it
ends with a result, or by handing the stream over to a relay or an association.
-/

namespace Socks

/-- A pair of datagram sockets for a client: where it sends to, where its datagrams leave from,
and the only host it may send from, if it named one. -/
structure Sockets where
  inner : Endpoint
  outer : Endpoint
  expected? : Option IpAddress
deriving DecidableEq

/-- What is done about a request. A reply that cannot be written ends the plan. A connection or a
listener may be there although nobody can tell its own address. Waiting for a caller may fail, or
bring nobody within the limit. -/
inductive Plan where
  | finish (result : Except Failure Unit)
  | consult (request : Request) (next : Bool → Plan)
  | reply (message : Reply) (next : Plan)
  | resolve (host : String) (next : Except IoError IpAddress → Plan)
  | dial (destination : Endpoint) (next : Except IoError (Except IoError Endpoint) → Plan)
  | listen (place : Endpoint) (next : Except IoError (Except IoError Endpoint) → Plan)
  | openSocket (place : Endpoint) (next : Except IoError Endpoint → Plan)
  | accept (limit : UInt64) (next : Except IoError (Option Endpoint) → Plan)
  | relay
  | associate (sockets : Sockets)

namespace Address

/-- How a destination becomes an endpoint: it is one, its name has to be looked up, or it is
nowhere. -/
inductive Route where
  | known (destination : Endpoint)
  | lookup (host : String) (port : UInt16)
  | nowhere

/-- The way to a destination; a name goes before a literal. -/
def route (a : Address) : Route :=
  if a.name = "" then
    match a.ip? with
    | some ip => .known ⟨ip, a.port⟩
    | none => .nowhere
  else .lookup a.name a.port

/-- The endpoint of a destination, given what look-ups come to. -/
def resolve (lookup : String → Except IoError IpAddress) (a : Address) : Except Failure Endpoint :=
  match a.route with
  | .known destination => .ok destination
  | .lookup host port =>
    match lookup host with
    | .ok ip => .ok ⟨ip, port⟩
    | .error e => .error (.unresolved host e)
  | .nowhere => .error (.protocol .noDestination)

end Address

namespace Plan

/-- Replies without an address and ends in failure. -/
def giveUp (version : Version) (status : Status) (f : Failure) : Plan :=
  .reply (.bare version status) (.finish (.error f))

/-- Dials a known destination and relays to it. A connection whose own address cannot be told is
given up without a reply. -/
def dialing (r : Request) (destination : Endpoint) : Plan :=
  .dial destination fun
    | .ok (.ok here) => .reply (.granted r.version here) .relay
    | .ok (.error e) => .finish (.error (.transport e))
    | .error e =>
      giveUp r.version (Status.ofDialError e) (.unreachable r.destination.hostText e)

/-- The plan of CONNECT. -/
def connect (r : Request) : Plan :=
  match r.destination.route with
  | .known destination => dialing r destination
  | .lookup host port =>
    .resolve host fun
      | .ok ip => dialing r ⟨ip, port⟩
      | .error e => giveUp r.version .hostUnreachable (.unresolved host e)
  | .nowhere => giveUp r.version .hostUnreachable (.protocol .noDestination)

/-- Whether a caller may take up a BIND request: the host that the request names, if it names
one. -/
def welcome (r : Request) (caller : Endpoint) : Plan :=
  match r.destination.literalHost? with
  | some expected =>
    if caller.ip = expected then .reply (.granted r.version caller) .relay
    else giveUp r.version .ruleFailure (.blocked (.peer caller expected))
  | none => .reply (.granted r.version caller) .relay

/-- The plan of BIND: listen on the address the client reached, report the listener, and relay
the first caller that comes within the limit. A listener whose own address cannot be told is given
up without a reply. -/
def bind (limit : UInt64) (here? : Option IpAddress) (r : Request) : Plan :=
  .listen ⟨here?.getD .anyV4, 0⟩ fun
    | .ok (.ok bound) =>
      .reply (.granted r.version bound) <|
        .accept limit fun
          | .ok (some caller) => welcome r caller
          | .ok none => giveUp r.version .ttlExpired (.command (.nobodyConnected bound limit))
          | .error e => giveUp r.version .serverFailure (.transport e)
    | .ok (.error e) => .finish (.error (.transport e))
    | .error e => giveUp r.version .serverFailure (.command (.noListener e))

/-- The plan of UDP ASSOCIATE: one socket on the address the client reached, one for the way
out. An inner socket whose own address cannot be told is as good as none; nobody asks for that of
the outer one. -/
def datagrams (here? : Option IpAddress) (r : Request) : Plan :=
  let here := here?.getD .anyV4
  let noSockets e := giveUp r.version .serverFailure (.command (.noRelaySockets e))
  .openSocket ⟨here, 0⟩ fun
    | .ok inner =>
      .openSocket ⟨here.wildcard, 0⟩ fun
        | .ok outer =>
          .reply (.granted r.version inner) <|
            .associate ⟨inner, outer, r.destination.literalHost?⟩
        | .error e => noSockets e
    | .error e => noSockets e

/-- The plan of an allowed request. -/
def perform (limit : UInt64) (here? : Option IpAddress) (r : Request) : Plan :=
  match r.command with
  | .connect => connect r
  | .bind => bind limit here? r
  | .associate => datagrams here? r

/-- The plan of a request: the rules first, and nothing else if they deny it. `limit` bounds the
wait for a caller, `here?` is the address the client reached. -/
def ofRequest (limit : UInt64) (here? : Option IpAddress) (r : Request) : Plan :=
  .consult r fun allowed =>
    if allowed then perform limit here? r
    else giveUp r.version .ruleFailure (.blocked (.request r))

end Plan

end Socks
