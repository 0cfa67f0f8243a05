import Socks.Datagram
import Socks.Plan

/-!
# Datagram associations

An association belongs to the first source whose datagram reaches it from an expected host. It
takes the header off that client's datagrams and sends them on, looking up names one at a time, and
puts a header before what comes back. Datagrams of anybody else, fragments and malformed ones are
dropped.
-/

namespace Socks

/-- A datagram that was sent: from which of the sockets, to whom, with what in it. -/
structure Sending where
  via : Endpoint
  destination : Endpoint
  payload : Bytes
deriving DecidableEq

/-- A datagram that has reached a socket, and whether what is sent on for it, if anything, will be
taken by the socket that it leaves from. -/
structure Packet where
  bytes : Bytes
  carried : Bool
deriving DecidableEq

/-- A payload that waits for the address of its destination. -/
structure Parcel where
  host : String
  port : UInt16
  payload : Bytes
  carried : Bool
deriving DecidableEq

/-- An association: its sockets, the client it belongs to, the payload whose destination is being
looked up with the datagrams that arrived meanwhile, and the errors of its sockets. -/
structure Association where
  sockets : Sockets
  client? : Option Endpoint
  parcel? : Option Parcel
  waiting : List (Endpoint × Packet)
  innerError? : Option IoError
  outerError? : Option IoError

/-- What becomes of a datagram of the client. -/
inductive Fate where
  | dropped
  | forwarded (destination : Endpoint) (payload : Bytes)
  | lookup (parcel : Parcel)
deriving DecidableEq

/-- The answers to look-ups, where there are any yet. -/
abbrev Answers := String → Option (Except IoError IpAddress)

namespace Association

/-- An association to which nothing has come yet. -/
def start (sockets : Sockets) : Association := ⟨sockets, none, none, [], none, none⟩

/-- Whether a source may be the client. -/
def expects (a : Association) (source : Endpoint) : Bool :=
  match a.sockets.expected? with
  | some ip => source.ip == ip
  | none => true

/-- The association after a datagram has come from a source: the first one that is expected makes
its source the client. -/
def learn (a : Association) (source : Endpoint) : Association :=
  if a.expects source ∧ a.client? = none then { a with client? := some source } else a

/-- Whether a source is the client that an association has learned. -/
def owns (a : Association) (source : Endpoint) : Bool :=
  a.expects source && a.client? == some source

/-- What becomes of a datagram that the client sent. -/
def route (packet : Packet) : Fate :=
  match Datagram.parse packet.bytes with
  | .error _ => .dropped
  | .ok d =>
    if d.isFragment then .dropped
    else
      match d.address.endpoint? with
      | some destination => .forwarded destination d.payload
      | none => .lookup ⟨d.address.name, d.address.port, d.payload, packet.carried⟩

/-- What becomes of a datagram, once its source had its chance to become the client. -/
def fate (a : Association) (source : Endpoint) (packet : Packet) : Fate :=
  if (a.learn source).owns source then route packet else .dropped

/-- What an association does to the outside. -/
inductive Action where
  | lookup (host : String)
  | send (sending : Sending)
deriving DecidableEq

/-- Sends from a socket, unless it refuses. -/
def send (carried : Bool) (via destination : Endpoint) (payload : Bytes) : List Action :=
  if carried then [.send ⟨via, destination, payload⟩] else []

/-- Sends a payload whose destination has been looked up; without an answer it is dropped. -/
def release (a : Association) (p : Parcel) : Except IoError IpAddress → List Action
  | .ok ip => send p.carried a.sockets.outer ⟨ip, p.port⟩ p.payload
  | .error _ => []

variable (resolve : Answers)

/-- Treats one datagram of the client side. -/
def handle (a : Association) (source : Endpoint) (packet : Packet) : Association × List Action :=
  let next := a.learn source
  match a.fate source packet with
  | .dropped => (next, [])
  | .forwarded destination payload =>
    (next, send packet.carried a.sockets.outer destination payload)
  | .lookup p =>
    match resolve p.host with
    | some answer => (next, .lookup p.host :: a.release p answer)
    | none => ({ next with parcel? := some p }, [.lookup p.host])

/-- Treats datagrams in order, up to one whose look-up has no answer yet. -/
def handleAll (a : Association) : List (Endpoint × Packet) → Association × List Action
  | [] => (a, [])
  | d :: rest =>
    match a.parcel? with
    | some _ => ({ a with waiting := d :: rest }, [])
    | none =>
      let (next, actions) := a.handle resolve d.1 d.2
      let (last, more) := next.handleAll rest
      (last, actions ++ more)

/-- A datagram reaches the inner socket. -/
def receive (a : Association) (source : Endpoint) (packet : Packet) : Association × List Action :=
  if a.innerError?.isSome then (a, [])
  else { a with waiting := [] }.handleAll resolve (a.waiting ++ [(source, packet)])

/-- The look-up under way is answered. -/
def answer (a : Association) (ip : Except IoError IpAddress) : Association × List Action :=
  match a.parcel? with
  | none => (a, [])
  | some p =>
    let (next, actions) := { a with parcel? := none, waiting := [] }.handleAll resolve a.waiting
    (next, a.release p ip ++ actions)

/-- A datagram reaches the outer socket: the client gets it with its source in the header. -/
def deliver (a : Association) (source : Endpoint) (packet : Packet) : List Action :=
  match a.outerError?, a.client?, Datagram.encode (.whole (.ofEndpoint source) packet.bytes) with
  | none, some client, .ok bytes => send packet.carried a.sockets.inner client bytes
  | _, _, _ => []

/-- Receiving on the inner socket fails; nothing more comes from the client side. -/
def failInner (a : Association) (e : IoError) : Association :=
  { a with innerError? := a.innerError? <|> some e, waiting := [] }

/-- Receiving on the outer socket fails; nothing more comes from the far side. -/
def failOuter (a : Association) (e : IoError) : Association :=
  { a with outerError? := a.outerError? <|> some e }

/-- What an association ends with when its control connection does. -/
def result (a : Association) : Except Failure Unit :=
  match a.innerError? <|> a.outerError? with
  | some e => .error (.transport e)
  | none => .ok ()

end Association

end Socks
