import Std.Async.DNS
import Std.Async.TCP
import Std.Async.Timer
import Std.Async.UDP
import Std.Sync.CancellationToken
import Socks.Log
import Socks.Resolver
import Socks.Server

/-!
# The network

Sessions on real sockets. Each connection is driven by a loop that waits for whatever comes first,
tells the session, and carries out what the session then wrote, sent and asked for. While a write
to one side is under way nothing is read from the other.
-/

namespace Socks.Network

open Std.Async

/-! ### Addresses and errors -/

/-- An address as the library has it. -/
def ofAddress : Std.Net.IPAddr → IpAddress
  | .v4 a => .v4 ⟨a.octets.toList, by simp⟩
  | .v6 a => .v6 ⟨a.segments.toList.flatMap fun w => (Block.ofWord w).bytes, by
      simp [List.length_flatMap, Block.ofWord, List.map_const']⟩

/-- An address as sockets have it. -/
def toAddress : IpAddress → Std.Net.IPAddr
  | .v4 o =>
    let part (i : Nat) : UInt8 := o.bytes.getD i 0
    .v4 (.ofParts (part 0) (part 1) (part 2) (part 3))
  | .v6 o =>
    let part (i : Nat) : UInt16 := UInt16.ofNat ((IpAddress.groups o.bytes).getD i 0)
    .v6 (.ofParts (part 0) (part 1) (part 2) (part 3) (part 4) (part 5) (part 6) (part 7))

/-- An endpoint as the library has it. -/
def ofSocketAddress (a : Std.Net.SocketAddress) : Endpoint := ⟨ofAddress a.ipAddr, a.port⟩

/-- An endpoint as sockets have it. -/
def toSocketAddress (e : Endpoint) : Std.Net.SocketAddress :=
  match toAddress e.ip with
  | .v4 a => .v4 ⟨a, e.port⟩
  | .v6 a => .v6 ⟨a, e.port⟩

/-- The number of a system error, which may be given negated. -/
def systemNumber (code : UInt32) : Nat :=
  if code < 0x80000000 then code.toNat else (0 - code).toNat

/-- An error as the library has it. -/
def ofError : IO.Error → IoError
  | .alreadyExists _ code text | .interrupted _ code text | .noFileOrDirectory _ code text
  | .invalidArgument _ code text | .permissionDenied _ code text
  | .resourceExhausted _ code text | .inappropriateType _ code text | .noSuchThing _ code text
  | .otherError code text | .resourceBusy code text | .resourceVanished code text
  | .unsupportedOperation code text | .hardwareFault code text
  | .unsatisfiedConstraints code text | .illegalOperation code text | .protocolError code text
  | .timeExpired code text => .ofSystem (systemNumber code) text
  | .unexpectedEof => .endOfNumber
  | .userError text => ⟨.other, text⟩

/-- The outcome of an action. -/
def outcome {α : Type} (action : IO α) : IO (Except IoError α) := do
  try
    return .ok (← action)
  catch e =>
    return .error (ofError e)

/-! ### Waiting -/

/-- Waits for the end of a task. -/
def done {α : Type} (t : Task α) : Selector α where
  tryFn := do
    if ← IO.hasFinished t then return some t.get else return none
  registerFn waiter := do
    BaseIO.chainTask t fun a => waiter.race (return ()) fun p => p.resolve (.ok a)
  unregisterFn := return ()

/-- Waits for something that may fail, where a failure is one of the outcomes. -/
def caught {α : Type} (s : Selector α) : Selector (Except IO.Error α) where
  tryFn := do
    try
      return (← s.tryFn).map .ok
    catch e =>
      return some (.error e)
  registerFn waiter := do
    let inner ← IO.Promise.new
    BaseIO.chainTask inner.result? fun
      | none => return ()
      | some r => waiter.promise.resolve (.ok r)
    s.registerFn (waiter.withPromise inner)
  unregisterFn := s.unregisterFn

/-- Waits for a number of milliseconds, at most as many as a timer can hold. -/
def elapsed (milliseconds : Nat) : IO (Selector Unit) :=
  (Selector.sleep (.ofNat (min milliseconds (UInt64.size - 1)))).block

/-! ### Opening sockets -/

/-- The addresses of a name, as the network knows them. -/
def lookup (host : String) : Async (List IpAddress) := do
  return (← DNS.getAddrInfo host "0").toList.map ofAddress

/-- The addresses of a name; `wait` waits for the network. -/
def addresses (wait : Async (List IpAddress) → IO (Except IoError (List IpAddress)))
    (host : String) : IO (Except IoError (List IpAddress)) := do
  match Resolver.resolve host with
  | .ok ip => return .ok [ip]
  | .error e => if e = Resolver.zeroByte then return .error e else wait (lookup host)

/-- Sets what options of a connection can be set. -/
def apply (o : SocketOptions) (socket : TCP.Socket.Client) : IO Unit := do
  if o.nodelay then discard (outcome socket.noDelay)
  for (idle, _) in o.keepalive? do
    discard (outcome (socket.native.keepAlive 1 (UInt32.ofNat idle.toNat)))

/-- The address that a socket is asked for. -/
def told (address : IO Std.Net.SocketAddress) : IO (Except IoError Endpoint) :=
  outcome do return ofSocketAddress (← address)

/-- Opens a listener, and asks for its address. -/
def listen (place : Endpoint) :
    IO (Except IoError (TCP.Socket.Server × Except IoError Endpoint)) :=
  outcome do
    let socket ← TCP.Socket.Server.mk
    socket.bind (toSocketAddress place)
    socket.listen 1024
    return (socket, ← told socket.getSockName)

/-- Opens a datagram socket. -/
def openSocket (place : Endpoint) : IO (Except IoError (UDP.Socket × Endpoint)) :=
  outcome do
    let socket ← UDP.Socket.mk
    socket.bind (toSocketAddress place)
    return (socket, ofSocketAddress (← socket.getSockName))

/-- Opens the first listener that can be opened of the places that a text may mean. -/
def listenAt? (text : String) : IO (Option (TCP.Socket.Server × Endpoint)) := do
  let candidates ← match Endpoint.parse? text, Host.namedPlace? text with
    | some e, _ => pure [e]
    | none, some (host, port) =>
      match ← addresses (fun found => outcome found.block) host with
      | .ok ips => pure (ips.map fun ip => ⟨ip, port⟩)
      | .error _ => pure []
    | none, none => pure []
  for place in candidates do
    if let .ok (socket, .ok here) ← listen place then return some (socket, here)
  return none

/-! ### Connections -/

/-- What all connections share: the server, the log, and the end of the program. -/
structure Site where
  server : Server
  log : LogLine → IO Unit
  stop : Std.CancellationToken

namespace Site

/-- The error of what the end of the program cuts short. -/
def stopping : IoError := ⟨.interrupted, "the server is being stopped"⟩

/-- Waits for an action, but no longer than the program lasts and, if there is a limit, than so
many milliseconds. -/
def wait {α : Type} (site : Site) (limit? : Option (Nat × IoError)) (action : Async α) :
    IO (Except IoError α) := do
  let task ← action.toIO
  let timer ← limit?.toList.mapM fun (limit, late) => return (← elapsed limit, late)
  let late : List (Selectable (Except IoError α)) :=
    timer.map fun (s, e) => .case s fun _ => return .error e
  (Selectable.one (#[
    .case (done task) fun r => return r.mapError ofError,
    .case site.stop.selector fun _ => return .error stopping] ++ late.toArray)).block

/-- The first address of a name. -/
def resolve (site : Site) (host : String) : IO (Except IoError IpAddress) := do
  match ← addresses (site.wait none) host with
  | .error e => return .error e
  | .ok [] => return .error (Resolver.unknown host)
  | .ok (ip :: _) => return .ok ip

/-- Connects to an endpoint, if that happens within the limit, and asks for the address of the
connection. -/
def dial (site : Site) (destination : Endpoint) :
    IO (Except IoError (TCP.Socket.Client × Except IoError Endpoint)) := do
  let d := site.server.dialer
  let socket ← TCP.Socket.Client.mk
  let limit := (Clock.deadline 0 d.limit, Dialer.timedOut destination)
  match ← site.wait (some limit) (socket.connect (toSocketAddress destination)) with
  | .error e => return .error e
  | .ok () =>
    apply d.options socket
    return .ok (socket, ← told socket.getSockName)

end Site

/-- A session with its sockets, the writes under way, and when its clock was set last. -/
structure Link where
  session : Session
  ends : Connection
  moment : Nat
  client : TCP.Socket.Client
  far? : Option TCP.Socket.Client
  listener? : Option TCP.Socket.Server
  inner? : Option (UDP.Socket × Endpoint)
  outer? : Option (UDP.Socket × Endpoint)
  toClient? : Option (AsyncTask Unit)
  toFar? : Option (AsyncTask Unit)

/-- Surroundings that answer nothing at once. -/
def surroundings : Surroundings :=
  ⟨fun _ => none, fun _ => none, fun _ => none, fun _ _ => none⟩

/-- What is logged of a call. -/
def linesOf : Call → List LogLine
  | .rules r true => [.requested r]
  | .rules r false => [.requested r, .denied r]
  | _ => []

namespace Link

/-- The link after some time and some events. -/
def advance (l : Link) (site : Site) (events : List Event) : IO Link := do
  let now ← IO.monoMsNow
  let events := .timePasses (now - l.moment) :: events
  let session := l.session.trace site.server.service l.ends surroundings events
  let listener? := if session.awaitsCaller then l.listener? else none
  return { l with session := session, moment := now, listener? := listener? }

/-- Begins to write some bytes, unless there are none; then the write before may go on. -/
def write (socket? : Option TCP.Socket.Client) (before? : Option (AsyncTask Unit))
    (bytes : Bytes) : IO (Option (AsyncTask Unit)) := do
  match socket?, bytes with
  | some socket, _ :: _ => return some (← (socket.send ⟨bytes.toArray⟩).toIO)
  | _, _ => return before?

/-- Carries out what the session wrote, sent and has to tell. -/
def flush (l : Link) (site : Site) : IO Link := do
  let s := l.session
  for line in s.calls.flatMap linesOf do
    site.log line
  for d in s.sent do
    for (socket, place) in l.inner?.toList ++ l.outer?.toList do
      if place = d.via then
        discard (socket.send ⟨d.payload.toArray⟩ (some (toSocketAddress d.destination))).toIO
  let toClient? ← write (some l.client) l.toClient? s.control.written
  let toFar? ← write l.far? l.toFar? ((s.far?.map Stream.written).getD [])
  return { l with session := s.collected, toClient? := toClient?, toFar? := toFar? }

/-- Asks what the session wants to know. -/
def ask (l : Link) (site : Site) : Call → IO Link
  | .rules _ _ => return l
  | .resolve host => do l.advance site [.resolved (← site.resolve host)]
  | .dial destination => do
    match ← site.dial destination with
    | .error e => l.advance site [.dialed (.error e)]
    | .ok (socket, here) =>
      let l := { l with far? := some socket }
      l.advance site [.dialed (.ok here)]
  | .listen place => do
    match ← listen place with
    | .error e => l.advance site [.listened (.error e)]
    | .ok (socket, here) =>
      let l ← l.advance site [.listened (.ok here)]
      return { l with listener? := some socket }
  | .openSocket place => do
    match ← openSocket place with
    | .error e => l.advance site [.opened (.error e)]
    | .ok (socket, here) =>
      let l := if l.inner?.isNone then { l with inner? := some (socket, here) }
        else { l with outer? := some (socket, here) }
      l.advance site [.opened (.ok here)]

/-- A link with events that have come. -/
abbrev News := Link × List Event

/-- What may come from the client. -/
def fromClient (l : Link) : Selectable News :=
  .case (caught (l.client.recvSelector 8192)) fun
    | .ok (some bytes) => return (l, [.clientSends bytes.toList])
    | .ok none => return (l, [.clientEnds])
    | .error e => return (l, [.clientBreaks (ofError e)])

/-- What may come from the far side. -/
def fromFar (l : Link) (socket : TCP.Socket.Client) : Selectable News :=
  .case (caught (socket.recvSelector 8192)) fun
    | .ok (some bytes) => return (l, [.farSends bytes.toList])
    | .ok none => return (l, [.farEnds])
    | .error _ => return (l, [.farResets])

/-- The end of a write to the client. -/
def writtenToClient (l : Link) (t : AsyncTask Unit) : Selectable News :=
  .case (done t) fun
    | .ok () => return ({ l with toClient? := none }, [])
    | .error e => return ({ l with toClient? := none }, [.clientBreaks (ofError e)])

/-- The end of a write to the far side. -/
def writtenToFar (l : Link) (t : AsyncTask Unit) : Selectable News :=
  .case (done t) fun
    | .ok () => return ({ l with toFar? := none }, [])
    | .error _ => return ({ l with toFar? := none }, [.farResets])

/-- Somebody who may call a listener. -/
def fromCaller (l : Link) (listener : TCP.Socket.Server) : Selectable News :=
  .case (caught listener.acceptSelector) fun
    | .ok socket => do
      match ← outcome socket.getPeerName with
      | .ok caller =>
        return ({ l with far? := some socket }, [.calledBy (ofSocketAddress caller)])
      | .error _ => return (l, [])
    | .error e => return (l, [.acceptFails (ofError e)])

/-- What may come to a datagram socket. What is sent on for it is handed to the sockets, whether or
not they take it. -/
def fromSocket (l : Link) (socket : UDP.Socket) (receives : Endpoint → Packet → Event)
    (fails : IoError → Event) : Selectable News :=
  .case (caught (socket.recvSelector 65535)) fun
    | .ok (bytes, some source) =>
      return (l, [receives (ofSocketAddress source) ⟨bytes.toList, true⟩])
    | .ok (_, none) => return (l, [])
    | .error e => return (l, [fails (ofError e)])

/-- How long the session waits at most. -/
def patience? (l : Link) : Option Nat := l.session.deadline?.map (· - l.session.clock)

/-- All that a link waits for, given how the end of its patience shows. -/
def awaited (l : Link) (timer? : Option (Selector Unit)) : List (Selectable News) :=
  let idleClient := l.toClient?.isNone
  let streams :=
    match l.session.phase, l.far? with
    | .relaying, some far =>
      (if l.toFar?.isNone then [l.fromClient] else []) ++
        (if idleClient then [l.fromFar far] else [])
    | .handshake _ _, _ | .associated _, _ => if idleClient then [l.fromClient] else []
    | _, _ => []
  let datagrams :=
    match l.session.association? with
    | none => []
    | some a =>
      (if a.innerError?.isSome then [] else
        l.inner?.toList.map fun s => l.fromSocket s.1 .innerReceives .innerFails) ++
      (if a.outerError?.isSome then [] else
        l.outer?.toList.map fun s => l.fromSocket s.1 .outerReceives .outerFails)
  let timer := timer?.toList.map fun s => .case s fun _ => return (l, [])
  streams ++ datagrams ++ timer ++ l.toClient?.toList.map l.writtenToClient ++
    l.toFar?.toList.map l.writtenToFar ++ l.listener?.toList.map l.fromCaller

/-- Waits for the first that comes of all that a link waits for, or for the end of the program. -/
def next? (l : Link) (site : Site) : IO (Option News) := do
  let timer? ← l.patience?.mapM elapsed
  let news : List (Selectable (Option News)) :=
    (l.awaited timer?).map fun (.case source tell) =>
      .case source fun a => return some (← tell a)
  let stopping : Selectable (Option News) := .case site.stop.selector fun _ => return none
  (Selectable.one (stopping :: news).toArray).block

/-- Takes leave of a link: what was written last still goes out, unless a relay was cut short. -/
def leave (l : Link) (site : Site) (result : Except Failure Unit) : IO Unit := do
  if l.far?.isNone then
    for t in l.toClient? do
      discard (site.wait none (Async.ofAsyncTask t))
  match result, l.ends.client? with
  | .error f, some client => site.log (.failed client f)
  | _, _ => return ()

/-- Drives a link to its end, or to that of the program. -/
partial def drive (l : Link) (site : Site) : IO Unit := do
  if ← site.stop.isCancelled then return
  let question? := l.session.question?
  let l ← l.flush site
  match l.session.result?, question? with
  | some result, _ => l.leave site result
  | none, some question => drive (← l.ask site question) site
  | none, none =>
    match ← l.next? site with
    | none => return ()
    | some (l, events) => drive (← l.advance site events) site

end Link

/-- Serves a client that has connected. -/
def serveClient (site : Site) (client : TCP.Socket.Client) : IO Unit := do
  let remote := ofSocketAddress (← client.getPeerName)
  let here ← outcome client.getSockName
  apply site.server.options client
  site.log (.accepted remote)
  let ends : Connection := ⟨some remote, (here.map ofSocketAddress).toOption⟩
  let session := Session.start site.server.service ends surroundings .idle
  let link : Link :=
    ⟨session, ends, ← IO.monoMsNow, client, none, none, none, none, none, none⟩
  link.drive site

/-- Serves all who connect to a listener, each on a thread of its own, until the program ends and
those that are being served have noticed. -/
partial def serve (site : Site) (listener : TCP.Socket.Server)
    (served : List (Task (Except IO.Error Unit))) : IO Unit := do
  let next? ← (Selectable.one #[
    .case site.stop.selector fun _ => return none,
    .case (caught listener.acceptSelector) fun r => return some r]).block
  match next? with
  | none =>
    for task in served do
      discard (IO.wait task)
  | some (.ok client) =>
    let task ← IO.asTask (serveClient site client) .dedicated
    let rest ← served.filterM fun t => return !(← IO.hasFinished t)
    serve site listener (task :: rest)
  | some (.error e) =>
    site.log (.notAccepted (ofError e))
    IO.sleep 100
    serve site listener served

end Socks.Network
