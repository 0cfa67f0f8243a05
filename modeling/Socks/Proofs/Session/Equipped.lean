import Socks.Proofs.Association.Returns
import Socks.Proofs.Association.Treatments
import Socks.Proofs.Session.Associated
import Socks.Proofs.Session.Entrance

/-!
# What a session does that has both sockets

A session that has both sockets and has told its client so does what its association does, as long
as the client goes on: it looks up what the association looks up and sends what the association
sends.

Main statements: `Session.attends_ofRequest` and `Session.attends_start`; `Session.Does.merges` and
`Session.Does.lookups` tell from what has happened what that is.
-/

namespace Socks

namespace Session

variable {service : Service} {c : Connection} {out : Surroundings} {control : Stream}
  {s s' : Session} {calls : List Call} {events before later : List Event} {r : Request}
  {inner outer : Endpoint}

/-- What a session asks for before it has both sockets of an association. -/
def fitting (here? : Option IpAddress) (r : Request) : List Call :=
  let here := here?.getD .anyV4
  [.rules r true, .openSocket ⟨here, 0⟩, .openSocket ⟨here.wildcard, 0⟩]

/-- A session that began with the stream `control` and has done nothing since but to make these
calls. -/
structure Called (calls : List Call) (control : Stream) (before : List Event) (s : Session) :
    Prop where
  replied : Replied control before [] s
  calls : s.calls = calls
  sent : s.sent = []

theorem called_of_new (hcontrol : s.control = control) (hfar : s.far? = none)
    (hcalls : s.calls = []) (hsent : s.sent = []) : Called [] control [] s := by
  refine ⟨⟨?_, fun far hthere => ?_⟩, hcalls, hsent⟩
  · rw [hcontrol]
    simp [Stream.passed, Stream.wrote]
  · rw [hfar] at hthere
    cases hthere

theorem Called.passed (h : Called calls control before s) (events : List Event) (phase : Phase) :
    Called calls control (before ++ events) { s.passed events with phase := phase } :=
  ⟨⟨(h.replied.passed events).control, h.replied.far⟩, h.calls, h.sent⟩

theorem Called.record (h : Called calls control before s) (call : Call) :
    Called (calls ++ [call]) control before (s.record call) := by
  refine ⟨⟨h.replied.control, h.replied.far⟩, ?_, h.sent⟩
  rw [← h.calls]
  rfl

/-! ### How a session comes by both sockets -/

/-- A session that has both sockets goes on with both. -/
def Equips (service : Service) (c : Connection) (out : Surroundings) (r : Request)
    (calls : List Call) (control : Stream) (events : List Event) (o : Outfit) (s' : Session) :
    Prop :=
  ∀ inner outer later, o = .ready inner outer later → ∃ before s, events = before ++ later ∧
    Called calls control before s ∧
      s' = (pursue out service.rules (.fitted r inner outer) s).trace service c out later

theorem Answers.equips_outer {answered? : Option (Except IoError Endpoint × List Event)}
    (h : Answers service c out
      (fun answer => pursue out service.rules (.outerOpened r inner answer)) s
      (.opening (.outerOpened r inner)) later answered? s')
    (he : events = before ++ later) (hs : Called calls control before s) :
    Equips service c out r calls control events (.ofOuter inner answered?) s' := by
  intro inner' outer rest ho
  cases h with
  | pending => cases ho
  | @answered asked rest' answer phase hl =>
      cases answer with
      | error e => cases ho
      | ok outer' =>
          cases ho
          refine ⟨before ++ asked, _, ?_, hs.passed asked phase, rfl⟩
          rw [he, hl, List.append_assoc]

theorem Answers.equips {here : IpAddress}
    {answered? : Option (Except IoError Endpoint × List Event)}
    (h : Answers service c out
      (fun answer => pursue out service.rules (.innerOpened r here answer)) s
      (.opening (.innerOpened r here)) events answered? s')
    (hs : Called calls control [] s) (hopened : s.socketsOpened = 1) :
    Equips service c out r (calls ++ [.openSocket ⟨here.wildcard, 0⟩]) control events
      (.ofInner (out.openSocket 1 ⟨here.wildcard, 0⟩) answered?) s' := by
  cases h with
  | pending =>
      intro inner outer later ho
      cases ho
  | @answered asked later answer phase he =>
      have hasked := hs.passed asked phase
      cases answer with
      | error e =>
          intro inner outer rest ho
          cases ho
      | ok inner =>
          have hsecond := @answers_openSocket service c out _ ⟨here.wildcard, 0⟩
            (Plan.grounded_outerOpened r inner) { s.passed asked with phase := phase } later
          have hone : ({ s.passed asked with phase := phase } : Session).socketsOpened = 1 :=
            hopened
          rw [hone] at hsecond
          exact hsecond.equips_outer he (hasked.record _)

/-- How a session comes by both sockets, if the rules allow it. -/
theorem equips_trace {here? : Option IpAddress} {limit : UInt64} (hcommand : r.command = .associate)
    (hr : service.rules r = true) (hs : Called [] control [] s) :
    let here := here?.getD .anyV4
    Equips service c out r (fitting here? r) control events
      (.ofEvents (out.openSocket 0 ⟨here, 0⟩) (out.openSocket 1 ⟨here.wildcard, 0⟩) events)
      ((pursue out service.rules (.ofRequest limit here? r) s).trace service c out events) := by
  intro here
  have hfirst := @answers_openSocket service c out _ ⟨here, 0⟩ (Plan.grounded_innerOpened r here)
    (s.record (.rules r true)) events
  have hnone : (s.record (.rules r true)).socketsOpened = 0 := by
    simp [socketsOpened, Session.record, hs.calls]
  have hone : ((s.record (.rules r true)).record (.openSocket ⟨here, 0⟩)).socketsOpened = 1 := by
    simp [socketsOpened, Session.record, hs.calls]
  rw [pursue_ofRequest hr, Plan.perform, hcommand]
  dsimp only
  rw [Plan.datagrams_eq]
  rw [hnone] at hfirst
  exact hfirst.equips ((hs.record (.rules r true)).record (.openSocket ⟨here, 0⟩)) hone

/-! ### What it does then -/

/-- What a session has done whose association was asked for with the destination `there`: it has
looked up and sent what the association has, in the course of the events `lived`. -/
structure Does (out : Surroundings) (calls : List Call) (sockets : Sockets) (lived : List Event)
    (s : Session) : Prop where
  calls : s.calls = calls ++
    (Association.lookups ((Association.start sockets).afterAll out.resolve lived).2).map
      Call.resolve
  sent : s.sent =
    Association.sendings ((Association.start sockets).afterAll out.resolve lived).2

section does

open Association

variable {there : Address} {lived : List Event}

/-- What a session has sent is what the client's datagrams come to and what has come back. -/
theorem Does.merges (h : Does out calls ⟨inner, outer, there.literalHost?⟩ lived s) :
    Merges
      ((treatments out.resolve there lived).filterMap (Treatment.sending? outer))
      (returned inner there lived) s.sent := by
  let sockets : Sockets := ⟨inner, outer, there.literalHost?⟩
  have hforth := (@forth_start sockets there rfl out.resolve lived).1
  have hback := @back_start sockets there rfl out.resolve lived
  have hmerges := merges_sendings out.resolve (.start sockets) lived
  rw [hforth, hback] at hmerges
  rw [h.sent]
  exact hmerges

/-- What a session has looked up is what the client's datagrams have wanted. -/
theorem Does.lookups (h : Does out calls ⟨inner, outer, there.literalHost?⟩ lived s) :
    s.calls = calls ++
      ((treatments out.resolve there lived).filterMap fun t => wanted? t.packet.bytes).map
        Call.resolve := by
  let sockets : Sockets := ⟨inner, outer, there.literalHost?⟩
  have hforth := (@forth_start sockets there rfl out.resolve lived).2
  rw [h.calls, lookups_afterAll, hforth]

end does

/-- A session that has told its client about both sockets has done what its association has done as
long as the client went on. -/
def Attends (out : Surroundings) (r : Request) (calls : List Call) (control : Stream)
    (events : List Event) (o : Outfit) (s : Session) : Prop :=
  ∀ inner outer later, o = .ready inner outer later →
    control.Takes (Reply.granted r.version inner).bytes.length →
      ∃ before, events = before ++ later ∧
        Does out calls ⟨inner, outer, r.destination.literalHost?⟩
          (attended (endingAfter control.ending before) later) s

theorem Called.does (h : Called calls control before s)
    (ht : control.Takes (Reply.granted r.version inner).bytes.length) (later : List Event) :
    Does out calls ⟨inner, outer, r.destination.literalHost?⟩
      (attended (endingAfter control.ending before) later)
      ((pursue out service.rules (.fitted r inner outer) s).trace service c out later) := by
  have hending : (s.replied (.granted r.version inner)).control.ending =
      endingAfter control.ending before := by
    show s.control.ending = _
    rw [h.replied.control_eq]
    rfl
  have hdone := @drained_trace_watch service c out (s.replied (.granted r.version inner))
    (.start ⟨inner, outer, r.destination.literalHost?⟩) later
  rw [hending] at hdone
  rw [pursue_fitted h.replied ht]
  have hcalls := congrArg Session.calls hdone
  have hsent := congrArg Session.sent hdone
  refine ⟨hcalls.trans ?_, hsent.trans ?_⟩
  · show s.calls ++ _ = _
    rw [h.calls]
  · show s.sent ++ _ = _
    rw [h.sent, List.nil_append]

theorem Equips.attends {o : Outfit} (h : Equips service c out r calls control events o s) :
    Attends out r calls control events o s := by
  intro inner outer later ho ht
  obtain ⟨before, s, he, hs, rfl⟩ := h inner outer later ho
  exact ⟨before, he, hs.does ht later⟩

theorem attends_ofRequest (hcommand : r.command = .associate) (hr : service.rules r = true)
    (events : List Event) :
    Attends out r (fitting (c.server?.map Endpoint.ip) r) control events
      (.ofConnection c out events)
      ((ofRequest service c out control r).trace service c out events) := by
  have hs : Called [] control [] (fresh control (.over (.ok ()))) :=
    called_of_new rfl rfl rfl rfl
  exact (equips_trace hcommand hr hs).attends

theorem attends_start {rest said : Bytes} {phase : Phase} (hcommand : r.command = .associate)
    (hr : service.rules { r with client? := c.client? } = true)
    (hs : (start service c out control).trace service c out before =
      pursue out service.rules (planFor service c r)
        (greeted control (endingAfter control.ending before) (elapsed before) rest said phase))
    (late : List Event) :
    let stream : Stream :=
      { control with
        incoming := rest
        ending := endingAfter control.ending before
        written := control.written ++ said }
    let asked : Request := { r with client? := c.client? }
    Attends out asked (fitting (c.server?.map Endpoint.ip) asked) stream late
      (.ofConnection c out late)
      ((start service c out control).trace service c out (before ++ late)) := by
  intro stream asked
  have hcalled : Called [] stream []
      (greeted control (endingAfter control.ending before) (elapsed before) rest said phase) :=
    called_of_new rfl rfl rfl rfl
  rw [trace_append, hs]
  exact (equips_trace (r := asked) hcommand hr hcalled).attends

end Session

end Socks
