import Socks.Proofs.Session.Asking
import Socks.Proofs.Session.Entrance

/-!
# What a CONNECT comes to

A CONNECT looks up the host that it names, dials, and relays to whoever is there. What it comes to
can be told from what happens outside: the answer to the look-up, if there is one, and the answer to
the dial. `ConnectOutcome.ofEvents` tells it without a look at the session.

Main statement: `Session.connect_outcome`.
-/

namespace Socks

theorem Reply.bare_ne_granted {v : Version} {status : Status} {here : Endpoint} :
    bare v status ≠ granted v here := by
  intro h
  cases congrArg Reply.bound? h

/-- What a CONNECT has come to: its look-up is awaited or has failed, it names no destination, its
dial is awaited or has failed, nobody can tell where its connection leaves from, or it is connected
from `here`, and `later` happened after that. -/
inductive ConnectOutcome where
  | asking
  | unresolved (error : IoError)
  | nowhere
  | dialing (destination : Endpoint)
  | unreached (destination : Endpoint) (error : IoError)
  | nameless (destination : Endpoint) (error : IoError)
  | connected (destination here : Endpoint) (later : List Event)

namespace ConnectOutcome

/-! ### From what happens outside -/

/-- What comes of a dial: no answer yet, or one, and the events after it. -/
def ofDial (destination : Endpoint) :
    Option (Except IoError (Except IoError Endpoint) × List Event) → ConnectOutcome
  | none => .dialing destination
  | some (.error e, _) => .unreached destination e
  | some (.ok (.error e), _) => .nameless destination e
  | some (.ok (.ok here), later) => .connected destination here later

def ofKnown (out : Surroundings) (destination : Endpoint) (events : List Event) : ConnectOutcome :=
  ofDial destination (answeredIn? Event.dialed? (out.dial destination) events)

/-- What comes of a look-up: no answer yet, or one, and the events after it. -/
def ofLookup (out : Surroundings) (port : UInt16) :
    Option (Except IoError IpAddress × List Event) → ConnectOutcome
  | none => .asking
  | some (.error e, _) => .unresolved e
  | some (.ok ip, later) => ofKnown out ⟨ip, port⟩ later

/-- What a CONNECT to the destination `a` comes to when these events happen. A name goes before a
literal address. -/
def ofEvents (out : Surroundings) (a : Address) (events : List Event) : ConnectOutcome :=
  if a.name = "" then
    match a.ip? with
    | some ip => ofKnown out ⟨ip, a.port⟩ events
    | none => .nowhere
  else ofLookup out a.port (answeredIn? Event.resolved? (out.resolve a.name) events)

/-! ### What it shows -/

/-- The destination that is known, if there is one. -/
def destination? : ConnectOutcome → Option Endpoint
  | dialing destination | unreached destination _ | nameless destination _
  | connected destination _ _ => some destination
  | asking | unresolved _ | nowhere => none

/-- What is asked of others: the host is looked up if it has a name, and a destination that is known
is dialed. -/
def calls (a : Address) (o : ConnectOutcome) : List Call :=
  (if a.name = "" then [] else [.resolve a.name]) ++ o.destination?.toList.map Call.dial

/-- What a client is told about a dial that has failed with an error of a kind. -/
def dialStatus : IoError.Kind → Status
  | .connectionRefused => .connectionRefused
  | .networkUnreachable => .networkUnreachable
  | .timedOut => .ttlExpired
  | _ => .hostUnreachable

/-- What a client has been told. -/
def replies (v : Version) : ConnectOutcome → List Reply
  | asking | dialing _ | nameless _ _ => []
  | unresolved _ | nowhere => [.bare v .hostUnreachable]
  | unreached _ e => [.bare v (dialStatus e.kind)]
  | connected _ here _ => [.granted v here]

def told (o : ConnectOutcome) (v : Version) : Bytes := (o.replies v).flatMap Reply.bytes

/-- Why a CONNECT to `a` is over, unless it goes on or a relay does. -/
def failure? (a : Address) : ConnectOutcome → Option Failure
  | unresolved e => some (.unresolved a.name e)
  | nowhere => some (.protocol .noDestination)
  | unreached _ e => some (.unreachable a.hostText e)
  | nameless _ e => some (.transport e)
  | asking | dialing _ | connected _ _ _ => none

/-- The far side to which nothing is relayed: that of a connection that is given up. -/
def abandoned? : ConnectOutcome → Option Stream
  | nameless _ _ => some .idle
  | _ => none

/-- There is somebody to relay to. -/
def Connected (o : ConnectOutcome) : Prop :=
  ∃ destination here later, o = .connected destination here later

/-- What has happened since there is somebody to relay to. -/
def since : ConnectOutcome → List Event
  | connected _ _ later => later
  | _ => []

theorem calls_ofDial (a : Address) (destination : Endpoint)
    (answered? : Option (Except IoError (Except IoError Endpoint) × List Event)) :
    (ofDial destination answered?).calls a =
      (if a.name = "" then [] else [.resolve a.name]) ++ [.dial destination] := by
  match answered? with
  | none => rfl
  | some (.error e, _) => rfl
  | some (.ok (.error e), _) => rfl
  | some (.ok (.ok here), _) => rfl

theorem not_connected_of_replies {o : ConnectOutcome} {v : Version}
    (h : ∀ here, o.replies v ≠ [.granted v here]) : ¬o.Connected := by
  rintro ⟨destination, here, later, rfl⟩
  exact h here rfl

end ConnectOutcome

namespace Plan

/-- What a CONNECT does once it has an answer about its dial. -/
def dialed (r : Request) : Except IoError (Except IoError Endpoint) → Plan
  | .ok (.ok here) => .reply (.granted r.version here) .relay
  | .ok (.error e) => .finish (.error (.transport e))
  | .error e => giveUp r.version (Status.ofDialError e) (.unreachable r.destination.hostText e)

/-- What a CONNECT does once it has an answer about the host that it names. -/
def lookedUp (r : Request) : Except IoError IpAddress → Plan
  | .ok ip => dialing r ⟨ip, r.destination.port⟩
  | .error e => giveUp r.version .hostUnreachable (.unresolved r.destination.name e)

theorem dialing_eq (r : Request) (destination : Endpoint) :
    dialing r destination = .dial destination (dialed r) := by
  unfold dialing
  congr 1

theorem connect_eq (r : Request) :
    connect r =
      if r.destination.name = "" then
        match r.destination.ip? with
        | some ip => dialing r ⟨ip, r.destination.port⟩
        | none => giveUp r.version .hostUnreachable (.protocol .noDestination)
      else .resolve r.destination.name (lookedUp r) := by
  unfold connect Address.route
  by_cases hname : r.destination.name = ""
  · rw [if_pos hname, if_pos hname]
    cases r.destination.ip? <;> rfl
  · rw [if_neg hname, if_neg hname]
    dsimp only
    congr 1

theorem grounded_lookedUp (r : Request) (answer : Except IoError IpAddress) :
    (lookedUp r answer).Grounded false := by
  cases answer with
  | ok ip => exact grounded_dialing ..
  | error e => exact grounded_giveUp ..

end Plan

namespace Session

open Handshake

variable {service : Service} {c : Connection} {out : Surroundings} {control : Stream}
  {calls : List Call} {s : Session} {events before later : List Event} {r : Request}
  {o : ConnectOutcome}

/-! ### What a session shows of a CONNECT -/

/-- What a session shows that began a CONNECT with the stream `control` after these calls, and has
come to this: it has asked what there is to ask; it has told its client what there is to tell, and
nothing after that but what the far side has sent; it is over with the failure, if there is one; and
it relays if there is somebody to relay to, from the moment on at which the reply was written, and
not otherwise. -/
structure Connects (service : Service) (c : Connection) (out : Surroundings) (r : Request)
    (calls : List Call) (control : Stream) (events : List Event) (o : ConnectOutcome)
    (s : Session) : Prop where
  calls : s.calls = calls ++ o.calls r.destination
  written : ∃ relayed, s.control.written = control.written ++ o.told r.version ++ relayed ∧
    relayed <+: heardFar o.since
  result : ¬o.Connected → s.result? = (o.failure? r.destination).map .error
  unrelayed : ¬o.Connected → s.far? = o.abandoned?
  relays : ∀ destination here later, o = .connected destination here later → ∃ before s₁,
    events = before ++ later ∧ s₁.far? = some .idle ∧
      s₁.control = (control.passed before).wrote (o.told r.version) ∧
      s = s₁.relayOn.trace service c out later ∧ Relayed s₁ later s

/-- A session that began with the stream `control` after the calls `calls`, when some events have
passed and it has done no more than to make the calls `cs`. -/
structure Asked (calls : List Call) (control : Stream) (before : List Event) (cs : List Call)
    (s : Session) : Prop where
  control : s.control = control.passed before
  far : s.far? = none
  calls : s.calls = calls ++ cs

section asked

variable {cs : List Call}

theorem Asked.passed (h : Asked calls control before cs s) (events : List Event) :
    Asked calls control (before ++ events) cs (s.passed events) := by
  refine ⟨?_, h.far, h.calls⟩
  have hpassed : (s.passed events).control = s.control.passed events := rfl
  rw [hpassed, h.control, Stream.passed_passed]

theorem Asked.record (h : Asked calls control before cs s) (call : Call) :
    Asked calls control before (cs ++ [call]) (s.record call) := by
  refine ⟨h.control, h.far, ?_⟩
  show s.calls ++ [call] = _
  rw [h.calls, List.append_assoc]

theorem Asked.withPhase (h : Asked calls control before cs s) (phase : Phase) :
    Asked calls control before cs { s with phase := phase } := ⟨h.control, h.far, h.calls⟩

theorem Asked.takes {n : Nat} (h : Asked calls control before cs s) (ht : control.Takes n) :
    s.control.Takes n := by
  rw [h.control]
  exact ht

end asked

theorem Asked.connects_pending (h : Asked calls control events (o.calls r.destination) s)
    (ho : o.replies r.version = []) (hf : o.failure? r.destination = none)
    (hfar : o.abandoned? = none) (hp : s.result? = none) :
    Connects service c out r calls control events o s := by
  have hno : ¬o.Connected := ConnectOutcome.not_connected_of_replies (v := r.version) (by simp [ho])
  refine ⟨h.calls, ⟨[], ?_, List.nil_prefix⟩, fun _ => ?_, fun _ => h.far.trans hfar.symm, ?_⟩
  · rw [h.control, ConnectOutcome.told, ho]
    simp [Stream.passed]
  · rw [hp, hf]
    rfl
  · rintro destination here later rfl
    exact absurd ⟨destination, here, later, rfl⟩ hno

theorem Asked.connects_giveUp {status : Status} {f : Failure}
    (h : Asked calls control before (o.calls r.destination) s)
    (ht : control.Takes (o.told r.version).length)
    (ho : o.replies r.version = [.bare r.version status]) (hf : o.failure? r.destination = some f)
    (hfar : o.abandoned? = none) :
    Connects service c out r calls control events o
      ((pursue out service.rules (.giveUp r.version status f) s).trace service c out later) := by
  have htold : o.told r.version = (Reply.bare r.version status).bytes := by
    rw [ConnectOutcome.told, ho, List.flatMap_singleton]
  have hno : ¬o.Connected := by
    refine ConnectOutcome.not_connected_of_replies (v := r.version) fun here hgranted => ?_
    rw [ho, List.singleton_inj] at hgranted
    exact Reply.bare_ne_granted hgranted
  rw [htold] at ht
  rw [pursue_giveUp f (h.takes ht), trace_of_over later rfl]
  refine ⟨h.calls, ⟨[], ?_, List.nil_prefix⟩, fun _ => ?_, fun _ => h.far.trans hfar.symm, ?_⟩
  · show (s.control.wrote (Reply.bare r.version status).bytes).written = _
    rw [h.control, htold, List.append_nil]
    rfl
  · rw [hf]
    rfl
  · rintro destination here later rfl
    exact absurd ⟨destination, here, later, rfl⟩ hno

/-- A CONNECT whose connection has no address that can be told is over, and has told nobody. -/
theorem Asked.connects_nameless {destination : Endpoint} {e : IoError}
    (h : Asked calls control before
      ((ConnectOutcome.nameless destination e).calls r.destination) s) :
    Connects service c out r calls control events (.nameless destination e)
      ((pursue out service.rules (.finish (.error (.transport e)))
        { s with far? := some .idle }).trace service c out later) := by
  rw [trace_of_over later rfl]
  refine ⟨h.calls, ⟨[], ?_, List.nil_prefix⟩, fun _ => rfl, fun _ => rfl, ?_⟩
  · show s.control.written = _
    rw [h.control]
    simp [Stream.passed, ConnectOutcome.told, ConnectOutcome.replies]
  · intro destination' here later' ho
    cases ho

theorem Asked.connects_connected {destination here : Endpoint}
    (h : Asked calls control before
      ((ConnectOutcome.connected destination here later).calls r.destination) s)
    (he : events = before ++ later)
    (ht : control.Takes (Reply.granted r.version here).bytes.length) :
    Connects service c out r calls control events (.connected destination here later)
      ((pursue out service.rules (.reply (.granted r.version here) .relay)
        { s with far? := some .idle }).trace service c out later) := by
  let s₁ := replied { s with far? := some .idle } (.granted r.version here)
  have htold : (ConnectOutcome.connected destination here later).told r.version =
      (Reply.granted r.version here).bytes := List.flatMap_singleton ..
  have hs₁ : s₁.control = (control.passed before).wrote (Reply.granted r.version here).bytes := by
    show s.control.wrote _ = _
    rw [h.control]
  have hroom : ({ s with far? := some .idle } : Session).control.Takes
      (Reply.granted r.version here).bytes.length := h.takes ht
  have hstart : Relayed s₁ [] s₁.relayOn := relayed_start rfl
  have hrelayed : Relayed s₁ later (s₁.relayOn.trace service c out later) := hstart.trace later
  have hno : ¬¬(ConnectOutcome.connected destination here later).Connected :=
    not_not.mpr ⟨destination, here, later, rfl⟩
  rw [pursue_reply hroom]
  show Connects _ _ _ _ _ _ _ _ (s₁.relayOn.trace service c out later)
  refine ⟨?_, ?_, fun hn => absurd hn hno, fun hn => absurd hn hno, ?_⟩
  · rw [hrelayed.calls]
    exact h.calls
  · obtain ⟨relayed, hw, hback⟩ := hrelayed.back
    refine ⟨relayed, ?_, hback⟩
    rw [hw, hs₁, htold]
    rfl
  · intro destination' here' later' ho
    cases ho
    exact ⟨before, s₁, he, rfl, by rw [htold, hs₁], rfl, hrelayed⟩

/-! ### The course of a CONNECT -/

theorem Answers.connects_dial {destination : Endpoint} {s' : Session}
    {answered? : Option (Except IoError (Except IoError Endpoint) × List Event)}
    (ha : Answers service c out
      (fun answer s => pursue out service.rules (.dialed r answer) (s.reach answer))
      s (.dialing (.dialed r)) later answered? s')
    (h : Asked calls control before ((ConnectOutcome.ofDial destination answered?).calls
      r.destination) s)
    (he : events = before ++ later)
    (ht : control.Takes ((ConnectOutcome.ofDial destination answered?).told r.version).length) :
    Connects service c out r calls control events (.ofDial destination answered?) s' := by
  cases ha with
  | pending =>
      rw [he]
      exact ((h.passed later).withPhase _).connects_pending rfl rfl rfl rfl
  | @answered asked rest answer phase hl =>
      have hasked := (h.passed asked).withPhase phase
      cases answer with
      | error e => exact hasked.connects_giveUp ht rfl rfl rfl
      | ok here? =>
          cases here? with
          | error e => exact hasked.connects_nameless
          | ok here =>
              have hroom : control.Takes (Reply.granted r.version here).bytes.length := by
                simpa [ConnectOutcome.ofDial, ConnectOutcome.told, ConnectOutcome.replies] using ht
              exact hasked.connects_connected (by rw [he, hl, List.append_assoc]) hroom

theorem Asked.connects_dialing {destination : Endpoint} {cs : List Call}
    (h : Asked calls control before cs s) (he : events = before ++ later)
    (hcs : cs = if r.destination.name = "" then [] else [.resolve r.destination.name])
    (ht : control.Takes ((ConnectOutcome.ofKnown out destination later).told r.version).length) :
    Connects service c out r calls control events (.ofKnown out destination later)
      ((pursue out service.rules (.dialing r destination) s).trace service c out later) := by
  have hg : (Plan.dial destination (.dialed r)).Grounded false := by
    rw [← Plan.dialing_eq]
    exact Plan.grounded_dialing destination false
  have ha := @answers_dial service c out (.dialed r) destination hg s later
  have hdialed := h.record (.dial destination)
  rw [hcs, ← ConnectOutcome.calls_ofDial r.destination destination
    (answeredIn? Event.dialed? (out.dial destination) later)] at hdialed
  rw [Plan.dialing_eq]
  exact ha.connects_dial hdialed he ht

theorem Answers.connects_resolve {s' : Session}
    {answered? : Option (Except IoError IpAddress × List Event)}
    (ha : Answers service c out (fun answer => pursue out service.rules (.lookedUp r answer))
      s (.resolving (.lookedUp r)) events answered? s')
    (h : Asked calls control [] [.resolve r.destination.name] s) (hname : r.destination.name ≠ "")
    (ht : control.Takes ((ConnectOutcome.ofLookup out r.destination.port answered?).told
      r.version).length) :
    Connects service c out r calls control events
      (.ofLookup out r.destination.port answered?) s' := by
  have hcalls : ∀ {o : ConnectOutcome}, o.destination? = none →
      o.calls r.destination = [.resolve r.destination.name] := by
    intro o ho
    rw [ConnectOutcome.calls, ho, if_neg hname]
    rfl
  cases ha with
  | pending =>
      have hpassed := (h.passed events).withPhase (.resolving (.lookedUp r))
      rw [← hcalls (o := .asking) rfl] at hpassed
      exact hpassed.connects_pending rfl rfl rfl rfl
  | @answered asked rest answer phase hl =>
      have hasked := (h.passed asked).withPhase phase
      cases answer with
      | error e =>
          rw [← hcalls (o := .unresolved e) rfl] at hasked
          exact hasked.connects_giveUp ht rfl rfl rfl
      | ok ip => exact hasked.connects_dialing hl (if_neg hname).symm ht

theorem connects_trace (r : Request) (events : List Event) (hfar : s.far? = none)
    (ht : s.control.Takes
      ((ConnectOutcome.ofEvents out r.destination events).told r.version).length) :
    Connects service c out r s.calls s.control events (.ofEvents out r.destination events)
      ((pursue out service.rules (.connect r) s).trace service c out events) := by
  have hasked : Asked s.calls s.control [] [] s :=
    ⟨by simp [Stream.passed], hfar, (List.append_nil _).symm⟩
  rw [Plan.connect_eq]
  unfold ConnectOutcome.ofEvents at ht ⊢
  by_cases hname : r.destination.name = ""
  · rw [if_pos hname] at ht ⊢
    rw [if_pos hname]
    cases hip : r.destination.ip? with
    | some ip =>
        rw [hip] at ht
        exact hasked.connects_dialing rfl (if_pos hname).symm ht
    | none =>
        rw [hip] at ht
        have hnowhere : Asked s.calls s.control []
            (ConnectOutcome.nowhere.calls r.destination) s := by
          rw [ConnectOutcome.calls, if_pos hname]
          exact hasked
        exact hnowhere.connects_giveUp ht rfl rfl rfl
  · rw [if_neg hname] at ht ⊢
    rw [if_neg hname]
    have ha := @answers_resolve service c out (.lookedUp r) r.destination.name
      (Plan.grounded_lookedUp r) s events
    exact ha.connects_resolve (hasked.record (.resolve r.destination.name)) hname ht

theorem connects_ofRequest {limit : UInt64} {here? : Option IpAddress}
    (hcommand : r.command = .connect) (hr : service.rules r = true) (hfar : s.far? = none)
    (ht : s.control.Takes
      ((ConnectOutcome.ofEvents out r.destination events).told r.version).length) :
    Connects service c out r (s.calls ++ [.rules r true]) s.control events
      (.ofEvents out r.destination events)
      ((pursue out service.rules (.ofRequest limit here? r) s).trace service c out events) := by
  rw [pursue_ofRequest hr, Plan.perform, hcommand]
  exact connects_trace (s := s.record (.rules r true)) r events hfar ht

/-- What a CONNECT comes to, whatever the resolver and the dialer answer and whenever: carried out
by itself, for a request that is known from the start, and for one that comes in a handshake. As
long as its reply can be written, it is as `ConnectOutcome.ofEvents` tells. -/
theorem connect_outcome (service : Service) (c : Connection) (out : Surroundings) (control : Stream)
    (events : List Event) :
    let comes (r : Request) (late : List Event) : ConnectOutcome :=
      .ofEvents out r.destination late
    (∀ r (s : Session), s.far? = none →
      s.control.Takes ((comes r events).told r.version).length →
        Connects service c out r s.calls s.control events (comes r events)
          ((pursue out service.rules (.connect r) s).trace service c out events)) ∧
    (∀ r, r.command = .connect → service.rules r = true →
      control.Takes ((comes r events).told r.version).length →
        Connects service c out r [.rules r true] control events (comes r events)
          ((ofRequest service c out control r).trace service c out events)) ∧
    let s := (start service c out control).trace service c out events
    Outside s ∨
      ∃ before after r hello rest said, events = before ++ after ∧
        Accepts service.authenticator r hello said ∧ sentBy control before = hello ++ rest ∧
        let stream : Stream :=
          { control with
            incoming := rest
            ending := endingAfter control.ending before
            written := control.written ++ said }
        let asked : Request := { r with client? := c.client? }
        r.command = .connect → service.rules asked = true →
          stream.Takes ((comes r after).told r.version).length →
            Connects service c out asked [.rules asked true] stream after (comes r after) s := by
  intro comes
  refine ⟨fun r s hfar ht => connects_trace r events hfar ht, fun r hcommand hr ht => ?_, ?_⟩
  · exact connects_ofRequest (s := fresh control (.over (.ok ()))) hcommand hr rfl ht
  · intro s
    cases enters_trace service c out control events with
    | outside ho => exact .inl ho
    | @inside before after r hello rest said phase he ha hsent hs =>
        refine .inr ⟨before, after, r, hello, rest, said, he, ha, hsent, ?_⟩
        intro stream asked hcommand hr ht
        have hafter : s = (pursue out service.rules (planFor service c r)
            (greeted control (endingAfter control.ending before) (elapsed before) rest said
              phase)).trace service c out after := by
          rw [← hs, ← trace_append, ← he]
        rw [hafter]
        exact connects_ofRequest (s := greeted control (endingAfter control.ending before)
          (elapsed before) rest said phase) hcommand hr rfl ht

/-- A host that is looked up and cannot be reached in time. -/
theorem connect_outcome_timed_out :
    let service : Service := ⟨.anyone, fun _ => true, 10, 60⟩
    let r : Request := ⟨.v5, .connect, .named "a.b" 80, .anonymous, none⟩
    let place : Endpoint := ⟨.ofOctets 10 0 0 1, 80⟩
    let late : IoError := ⟨.timedOut, "timed out"⟩
    let events : List Event :=
      [.resolved (.ok (.ofOctets 10 0 0 1)), .clientSends [104], .dialed (.error late), .clientEnds]
    let s := (ofRequest service ⟨none, none⟩ .silent .idle r).trace service ⟨none, none⟩ .silent
      events
    s.calls = [.rules r true, .resolve "a.b", .dial place] ∧
      s.control.written = (Reply.bare .v5 .ttlExpired).bytes ∧
      s.result? = some (.error (.unreachable "a.b:80" late)) ∧ s.far? = none := by
  intro service r place late events s
  have hcomes : ConnectOutcome.ofEvents .silent r.destination events = .unreached place late := rfl
  have hconnects : Connects service ⟨none, none⟩ .silent r [.rules r true] .idle events
      (.unreached place late) s := by
    rw [← hcomes]
    exact (connect_outcome service ⟨none, none⟩ .silent .idle events).2.1 r rfl rfl
      (Stream.takes_of_faultless rfl _)
  have hno : ¬(ConnectOutcome.unreached place late).Connected := by
    rintro ⟨_, _, _, ho⟩
    cases ho
  have hhost : r.destination.hostText = "a.b:80" := by decide +kernel
  refine ⟨hconnects.calls, ?_, ?_, hconnects.unrelayed hno⟩
  · obtain ⟨relayed, hw, hrelayed⟩ := hconnects.written
    rw [hw, List.prefix_nil.mp hrelayed]
    rfl
  · rw [← hhost]
    exact hconnects.result hno

end Session

end Socks
