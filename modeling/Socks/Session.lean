import Socks.Association
import Socks.Handshake
import Socks.Relay

/-!
# Sessions

One control connection from its first byte to its end, as a machine that is moved by events: bytes
of the client, time, answers to what the server asked for, callers of a listener, and what the far
side sends. After every event the session goes on until it can do nothing more. It keeps the calls
that it made to the rules, the resolver and the dialer, and the datagrams that it sent, in order.
-/

namespace Socks

/-- What the server asked others to do. -/
inductive Call where
  | rules (request : Request) (allowed : Bool)
  | resolve (host : String)
  | dial (destination : Endpoint)
  | listen (place : Endpoint)
  | openSocket (place : Endpoint)
deriving DecidableEq

/-- How the server treats every connection. -/
structure Service where
  authenticator : Authenticator
  rules : Rules
  requestLimit : UInt64
  bindLimit : UInt64

/-- The two ends of a control connection, as far as they are known. -/
structure Connection where
  client? : Option Endpoint
  server? : Option Endpoint

/-- What a session meets outside. What has no answer here is answered by a later event, if ever. A
socket is told how many were opened before it. -/
structure Surroundings where
  resolve : Answers
  dial : Endpoint → Option (Except IoError (Except IoError Endpoint))
  listen : Endpoint → Option (Except IoError (Except IoError Endpoint))
  openSocket : Nat → Endpoint → Option (Except IoError Endpoint)

/-- What a session is busy with. -/
inductive Phase where
  | handshake (dialogue : Dialogue Request) (deadline : Nat)
  | resolving (next : Except IoError IpAddress → Plan)
  | dialing (next : Except IoError (Except IoError Endpoint) → Plan)
  | listening (next : Except IoError (Except IoError Endpoint) → Plan)
  | opening (next : Except IoError Endpoint → Plan)
  | accepting (next : Except IoError (Option Endpoint) → Plan) (deadline : Nat)
  | relaying
  | associated (association : Association)
  | over (result : Except Failure Unit)

/-- What moves a session. -/
inductive Event where
  | clientSends (bytes : Bytes)
  | clientEnds
  | clientBreaks (error : IoError)
  | timePasses (milliseconds : Nat)
  | resolved (answer : Except IoError IpAddress)
  | dialed (answer : Except IoError (Except IoError Endpoint))
  | listened (answer : Except IoError (Except IoError Endpoint))
  | opened (answer : Except IoError Endpoint)
  | calledBy (caller : Endpoint)
  | acceptFails (error : IoError)
  | farSends (bytes : Bytes)
  | farEnds
  | farResets
  | innerReceives (source : Endpoint) (packet : Packet)
  | outerReceives (source : Endpoint) (packet : Packet)
  | innerFails (error : IoError)
  | outerFails (error : IoError)

/-- A control connection being served. -/
structure Session where
  control : Stream
  far? : Option Stream
  clock : Nat
  phase : Phase
  calls : List Call
  sent : List Sending

namespace Session

/-- What the session has come to, once it is over. -/
def result? (s : Session) : Option (Except Failure Unit) :=
  match s.phase with
  | .over r => some r
  | _ => none

/-- Whether the session is over. -/
def isOver (s : Session) : Bool := s.result?.isSome

/-- Whether a caller would be taken up. -/
def awaitsCaller (s : Session) : Bool :=
  match s.phase with
  | .accepting _ _ => true
  | _ => false

/-- The association that is going on. -/
def association? (s : Session) : Option Association :=
  match s.phase with
  | .associated a => some a
  | _ => none

/-- What the session waits to be told. -/
def question? (s : Session) : Option Call :=
  match s.phase with
  | .resolving _ | .dialing _ | .listening _ | .opening _ => s.calls.getLast?
  | .associated a => a.parcel?.map fun p => .resolve p.host
  | _ => none

/-- The moment at which the session goes on by itself. -/
def deadline? (s : Session) : Option Nat :=
  match s.phase with
  | .handshake _ deadline => some deadline
  | .accepting _ deadline => some deadline
  | _ => none

/-- The session once all that it wrote, sent and called has been taken away. -/
def collected (s : Session) : Session :=
  let emptied (stream : Stream) : Stream := { stream with written := [] }
  { s with control := emptied s.control, far? := s.far?.map emptied, calls := [], sent := [] }

/-- The session after its end. -/
def finish (s : Session) (r : Except Failure Unit) : Session := { s with phase := .over r }

/-- The session after a call. -/
def record (s : Session) (c : Call) : Session := { s with calls := s.calls ++ [c] }

/-- How many sockets were asked for. -/
def socketsOpened (s : Session) : Nat :=
  s.calls.countP fun
    | .openSocket _ => true
    | _ => false

/-- Copies between client and far side as far as possible. -/
def relayOn (s : Session) : Session :=
  match s.far? with
  | none => { s with phase := .relaying }
  | some far =>
    let r := (Relay.start s.control far).settle
    let s := { s with control := r.left, far? := some r.right, phase := .relaying }
    match r.result? with
    | some result => s.finish result
    | none => s

/-- An association takes no notice of what the client writes on the control stream, and ends with
it. -/
def watch (s : Session) (a : Association) : Session :=
  let control := { s.control with incoming := [] }
  match control.ending with
  | .awaited => { s with control := control, phase := .associated a }
  | _ => { s with control := control }.finish a.result

/-- Carries out what an association did. -/
def act (s : Session) (actions : List Association.Action) : Session :=
  actions.foldl
    (fun s action =>
      match action with
      | .lookup host => s.record (.resolve host)
      | .send d => { s with sent := s.sent ++ [d] })
    s

/-- The session after a dial: a far side is there if it succeeded. -/
def reach (s : Session) : Except IoError (Except IoError Endpoint) → Session
  | .ok _ => { s with far? := some .idle }
  | .error _ => s

/-- Goes on with a plan up to the first question that has no answer yet. -/
def pursue (out : Surroundings) (rules : Rules) : Plan → Session → Session
  | .finish r, s => s.finish r
  | .consult request next, s =>
    let allowed := rules request
    pursue out rules (next allowed) (s.record (.rules request allowed))
  | .reply message next, s =>
    match s.control.writeAll message.bytes with
    | (.ok (), control) => pursue out rules next { s with control := control }
    | (.error e, control) => { s with control := control }.finish (.error (.transport e))
  | .resolve host next, s =>
    let s := s.record (.resolve host)
    match out.resolve host with
    | some answer => pursue out rules (next answer) s
    | none => { s with phase := .resolving next }
  | .dial destination next, s =>
    let s := s.record (.dial destination)
    match out.dial destination with
    | some answer => pursue out rules (next answer) (s.reach answer)
    | none => { s with phase := .dialing next }
  | .listen place next, s =>
    let s := s.record (.listen place)
    match out.listen place with
    | some answer => pursue out rules (next answer) s
    | none => { s with phase := .listening next }
  | .openSocket place next, s =>
    let before := s.socketsOpened
    let s := s.record (.openSocket place)
    match out.openSocket before place with
    | some answer => pursue out rules (next answer) s
    | none => { s with phase := .opening next }
  | .accept limit next, s =>
    let deadline := Clock.deadline s.clock limit
    if deadline ≤ s.clock then pursue out rules (next (.ok none)) s
    else { s with phase := .accepting next deadline }
  | .relay, s => s.relayOn
  | .associate sockets, s => s.watch (.start sockets)

/-- The request of a connection, with the address of its client. -/
def planFor (service : Service) (c : Connection) (r : Request) : Plan :=
  .ofRequest service.bindLimit (c.server?.map Endpoint.ip) { r with client? := c.client? }

/-- Goes on with what the session is busy with, until something from outside is missing. A
handshake that has come to its end is not too slow, whatever the time. -/
def settle (service : Service) (c : Connection) (out : Surroundings) (s : Session) : Session :=
  match s.phase with
  | .handshake dialogue deadline =>
    match dialogue.resume s.control with
    | (.finished (.ok r), control) =>
      pursue out service.rules (planFor service c r) { s with control := control }
    | (.finished (.error f), control) => { s with control := control }.finish (.error f)
    | (.listening field n next, control) =>
      let s := { s with control := control, phase := .handshake (.read field n next) deadline }
      if deadline ≤ s.clock then s.finish (.error (Handshake.tooSlow service.requestLimit)) else s
  | .accepting next deadline =>
    if deadline ≤ s.clock then pursue out service.rules (next (.ok none)) s else s
  | .relaying => s.relayOn
  | .associated a => s.watch a
  | _ => s

/-- The session after its association has taken a step. -/
def associate (s : Session) (step : Association × List Association.Action) : Session :=
  { s with phase := .associated step.1 }.act step.2

/-- The session right after an event, before it goes on. -/
def take (service : Service) (out : Surroundings) (s : Session) (event : Event) : Session :=
  match event, s.phase with
  | .clientSends bytes, _ => { s with control := s.control.arrive bytes }
  | .clientEnds, _ => { s with control := s.control.close }
  | .clientBreaks e, _ => { s with control := s.control.breakOff e }
  | .timePasses ms, _ => { s with clock := s.clock + ms }
  | .resolved answer, .resolving next => pursue out service.rules (next answer) s
  | .resolved answer, .associated a => s.associate (a.answer out.resolve answer)
  | .dialed answer, .dialing next => pursue out service.rules (next answer) (s.reach answer)
  | .listened answer, .listening next => pursue out service.rules (next answer) s
  | .opened answer, .opening next => pursue out service.rules (next answer) s
  | .calledBy caller, .accepting next _ =>
    pursue out service.rules (next (.ok (some caller))) { s with far? := some .idle }
  | .acceptFails e, .accepting next _ => pursue out service.rules (next (.error e)) s
  | .farSends bytes, .relaying => { s with far? := s.far?.map fun far => far.arrive bytes }
  | .farEnds, .relaying => { s with far? := s.far?.map Stream.close }
  | .farResets, .relaying =>
    let s := { s with far? := s.far?.map fun far => Stream.breakOff far .connectionReset }
    { s.relayOn with far? := none }
  | .innerReceives source packet, .associated a =>
    s.associate (a.receive out.resolve source packet)
  | .outerReceives source packet, .associated a => s.act (a.deliver source packet)
  | .innerFails e, .associated a => { s with phase := .associated (a.failInner e) }
  | .outerFails e, .associated a => { s with phase := .associated (a.failOuter e) }
  | _, _ => s

/-- The session after an event. -/
def step (service : Service) (c : Connection) (out : Surroundings) (s : Session) (event : Event) :
    Session :=
  (s.take service out event).settle service c out

/-- The session after a number of events. -/
def trace (service : Service) (c : Connection) (out : Surroundings) (s : Session)
    (events : List Event) : Session :=
  events.foldl (step service c out) s

/-- A connection of which nothing has been read, busy with something. -/
def fresh (control : Stream) (phase : Phase) : Session := ⟨control, none, 0, phase, [], []⟩

/-- A connection from its first byte. -/
def start (service : Service) (c : Connection) (out : Surroundings) (control : Stream) : Session :=
  (fresh control (.handshake (Handshake.greet service.authenticator)
    (Clock.deadline 0 service.requestLimit))).settle service c out

/-- A connection whose request is known. -/
def ofRequest (service : Service) (c : Connection) (out : Surroundings) (control : Stream)
    (r : Request) : Session :=
  pursue out service.rules (.ofRequest service.bindLimit (c.server?.map Endpoint.ip) r)
    (fresh control (.over (.ok ())))

end Session

end Socks
