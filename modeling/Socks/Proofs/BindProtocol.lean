import Socks.Proofs.Session.Asking
import Socks.Proofs.Session.Entrance

/-!
# The protocol of BIND

A BIND opens a listener, waits for a caller and relays it. What it comes to can be told from what
happens outside: what becomes of the listener, who calls first, and how much time passes before.
`BindOutcome.ofEvents` tells it without a look at the session.

Main statement: `Session.bind_protocol`.
-/

namespace Socks

/-- What a BIND has come to: its listener is awaited, cannot be had, or cannot tell its own address;
a caller is awaited or has not come in time; the first caller was turned away, or it was served, and
`later` happened after that. -/
inductive BindOutcome where
  | opening
  | unopened (error : IoError)
  | nameless (error : IoError)
  | waiting (bound : Endpoint)
  | expired (bound : Endpoint)
  | rejected (bound caller : Endpoint) (expected : IpAddress)
  | served (bound caller : Endpoint) (later : List Event)

namespace BindOutcome

def ofCaller (a : Address) (bound caller : Endpoint) (later : List Event) : BindOutcome :=
  match a.otherHost? caller with
  | some expected => .rejected bound caller expected
  | none => .served bound caller later

/-- What comes of waiting on a listener. -/
def ofReception (a : Address) (bound : Endpoint) : Reception → BindOutcome
  | .pending => .waiting bound
  | .nobody => .expired bound
  | .caller caller later => ofCaller a bound caller later

/-- What comes of asking for a listener: no answer yet, or one, and the events after it. -/
def ofAnswer (limit : UInt64) (a : Address) :
    Option (Except IoError (Except IoError Endpoint) × List Event) → BindOutcome
  | none => .opening
  | some (.error e, _) => .unopened e
  | some (.ok (.error e), _) => .nameless e
  | some (.ok (.ok bound), later) => ofReception a bound (reception (limit.toNat * 1000) later)

/-- What a BIND to the destination `a` comes to when these events happen; `listened?` is the answer
about its listener, where that is there at once. -/
def ofEvents (limit : UInt64) (a : Address)
    (listened? : Option (Except IoError (Except IoError Endpoint))) (events : List Event) :
    BindOutcome :=
  ofAnswer limit a (answeredIn? Event.listened? listened? events)

/-- What a client has been told. -/
def replies (v : Version) : BindOutcome → List Reply
  | opening | nameless _ => []
  | unopened _ => [.bare v .serverFailure]
  | waiting bound => [.granted v bound]
  | expired bound => [.granted v bound, .bare v .ttlExpired]
  | rejected bound _ _ => [.granted v bound, .bare v .ruleFailure]
  | served bound caller _ => [.granted v bound, .granted v caller]

/-- Why a BIND is over, unless it goes on or a relay does. -/
def failure? (limit : UInt64) : BindOutcome → Option Failure
  | unopened e => some (.command (.noListener e))
  | nameless e => some (.transport e)
  | expired bound => some (.command (.nobodyConnected bound limit))
  | rejected _ caller expected => some (.blocked (.peer caller expected))
  | opening | waiting _ | served _ _ _ => none

def Serves (o : BindOutcome) : Prop := ∃ bound caller later, o = .served bound caller later

def told (o : BindOutcome) (v : Version) : Bytes := (o.replies v).flatMap Reply.bytes

/-- Whether a caller is relayed, or none ever will be. -/
def Decided (o : BindOutcome) : Prop := o ≠ .opening ∧ ∀ bound, o ≠ .waiting bound

/-- What a BIND has come to when some more events have happened. -/
def followedBy (more : List Event) : BindOutcome → BindOutcome
  | served bound caller later => .served bound caller (later ++ more)
  | o => o

/-- What has been decided stays so. -/
theorem ofEvents_append {limit : UInt64} {a : Address}
    {listened? : Option (Except IoError (Except IoError Endpoint))} {events : List Event}
    (h : (ofEvents limit a listened? events).Decided) (more : List Event) :
    ofEvents limit a listened? (events ++ more) =
      (ofEvents limit a listened? events).followedBy more := by
  unfold ofEvents at h ⊢
  cases hopened : answeredIn? Event.listened? listened? events with
  | none =>
      rw [hopened] at h
      exact absurd rfl h.1
  | some answered =>
      obtain ⟨answer, later⟩ := answered
      rw [hopened] at h
      rw [answeredIn?_append hopened]
      match answer with
      | .error e => rfl
      | .ok (.error e) => rfl
      | .ok (.ok bound) =>
          simp only [ofAnswer] at h ⊢
          have hreceived : reception (limit.toNat * 1000) later ≠ .pending := by
            intro hpending
            rw [hpending] at h
            exact h.2 bound rfl
          rw [reception_append hreceived]
          cases reception (limit.toNat * 1000) later with
          | pending | nobody => rfl
          | caller caller rest =>
              simp only [Reception.followedBy, ofReception, ofCaller]
              split
              · rfl
              · rfl

theorem not_serves_of_failure? {o : BindOutcome} {limit : UInt64} {f : Failure}
    (h : o.failure? limit = some f) : ¬o.Serves := by
  rintro ⟨bound, caller, later, rfl⟩
  cases h

theorem replies_ofReception (v : Version) (a : Address) (bound : Endpoint) (received : Reception) :
    ∃ more, (ofReception a bound received).replies v = .granted v bound :: more := by
  cases received with
  | pending | nobody => exact ⟨_, rfl⟩
  | caller caller later =>
      show ∃ more, (ofCaller a bound caller later).replies v = .granted v bound :: more
      unfold ofCaller
      split
      · exact ⟨_, rfl⟩
      · exact ⟨_, rfl⟩

end BindOutcome

/-- What a BIND does once its listener is bound and its wait is over. -/
def Plan.received (limit : UInt64) (r : Request) (bound : Endpoint) :
    Except IoError (Option Endpoint) → Plan
  | .ok (some caller) => welcome r caller
  | .ok none => giveUp r.version .ttlExpired (.command (.nobodyConnected bound limit))
  | .error e => giveUp r.version .serverFailure (.transport e)

/-- What a BIND does once it has an answer about its listener. -/
def Plan.listened (limit : UInt64) (r : Request) : Except IoError (Except IoError Endpoint) → Plan
  | .ok (.ok bound) => .reply (.granted r.version bound) (.accept limit (received limit r bound))
  | .ok (.error e) => finish (.error (.transport e))
  | .error e => giveUp r.version .serverFailure (.command (.noListener e))

theorem Plan.bind_eq (limit : UInt64) (here? : Option IpAddress) (r : Request) :
    bind limit here? r = .listen ⟨here?.getD .anyV4, 0⟩ (listened limit r) := by
  unfold bind
  congr 1

namespace Session

open Handshake

variable {service : Service} {c : Connection} {out : Surroundings} {control : Stream} {s : Session}
  {events before : List Event} {limit : UInt64} {r : Request} {v : Version} {o : BindOutcome}

/-! ### What a session shows of a BIND -/

/-- What a session shows that began a BIND with the stream `control` and has come to this: the
replies have been written, and nothing else before a relay; it is over with the failure, if there is
one; a caller can be taken up only while one is awaited; and the one that is served is relayed from
then on, with all that the client has sent, while nobody else is ever sent anything. -/
structure Bound (service : Service) (c : Connection) (out : Surroundings) (v : Version)
    (control : Stream) (events : List Event) (o : BindOutcome) (s : Session) : Prop where
  written : ∃ relayed, s.control.written = control.written ++ o.told v ++ relayed ∧
    (relayed ≠ [] → o.Serves)
  result : ¬o.Serves → s.result? = (o.failure? service.bindLimit).map .error
  awaits : s.awaitsCaller = true ↔ ∃ bound, o = .waiting bound
  ignores : s.awaitsCaller = false → ∀ caller, s.step service c out (.calledBy caller) = s
  relays : ∀ bound caller later, o = .served bound caller later → ∃ before s₁,
    events = before ++ later ∧ s₁.far? = some .idle ∧
      s₁.control = (control.passed before).wrote (o.told v) ∧ Relayed s₁ later s
  unserved : ¬o.Serves → ∀ far, s.far? = some far → far.written = []

theorem Replied.written_eq (h : Replied control before (o.replies v) s) :
    ∃ relayed, s.control.written = control.written ++ o.told v ++ relayed ∧
      (relayed ≠ [] → o.Serves) :=
  ⟨[], by rw [h.control, List.append_nil]; rfl, fun hne => absurd rfl hne⟩

theorem Replied.nothing_relayed {ms : List Reply} (h : Replied control before ms s) :
    ∀ far, s.far? = some far → far.written = [] := by
  intro far hfar
  rw [h.far far hfar]
  rfl

theorem Replied.bound_of_over {f : Failure} (h : Replied control before (o.replies v) s)
    (hp : s.phase = .over (.error f)) (hf : o.failure? service.bindLimit = some f) :
    Bound service c out v control events o s := by
  have hserves := BindOutcome.not_serves_of_failure? hf
  refine ⟨h.written_eq, fun _ => ?_, ?_, fun _ caller => ?_, fun bound caller later ho => ?_,
    fun _ => h.nothing_relayed⟩
  · rw [result?, hp, hf]
    rfl
  · rw [awaitsCaller, hp]
    refine ⟨fun ha => (by cases ha), ?_⟩
    rintro ⟨bound, rfl⟩
    cases hf
  · rw [step_of_over hp, passed_of_not_common id]
  · exact absurd ⟨bound, caller, later, ho⟩ hserves

theorem Replied.bound_of_opening {next : Except IoError (Except IoError Endpoint) → Plan}
    (h : Replied control before [] s) (hp : s.phase = .listening next) :
    Bound service c out v control events .opening s := by
  have hserves : ¬BindOutcome.Serves .opening := by
    rintro ⟨bound, caller, later, ho⟩
    cases ho
  refine ⟨h.written_eq, fun _ => by rw [result?, hp]; rfl, ?_, fun _ caller => ?_,
    fun bound caller later ho => (by cases ho), fun _ => h.nothing_relayed⟩
  · rw [awaitsCaller, hp]
    exact ⟨fun ha => (by cases ha), fun ⟨bound, ho⟩ => by cases ho⟩
  · simp [step, take, settle, hp]

theorem Replied.bound_of_waiting {next : Except IoError (Option Endpoint) → Plan} {deadline : Nat}
    {bound : Endpoint} (h : Replied control before [.granted v bound] s)
    (hp : s.phase = .accepting next deadline) :
    Bound service c out v control events (.waiting bound) s := by
  have ha : s.awaitsCaller = true := by rw [awaitsCaller, hp]
  refine ⟨h.written_eq, fun _ => by rw [result?, hp]; rfl, ⟨fun _ => ⟨bound, rfl⟩, fun _ => ha⟩,
    fun hno => ?_, fun bound caller later ho => (by cases ho), fun _ => h.nothing_relayed⟩
  rw [ha] at hno
  cases hno

theorem Relayed.bound {bound caller : Endpoint} {later : List Event} {s₁ : Session}
    (h : Relayed s₁ later s) (he : events = before ++ later) (hfar : s₁.far? = some .idle)
    (hcontrol : s₁.control =
      (control.passed before).wrote (BindOutcome.told (.served bound caller later) v)) :
    Bound service c out v control events (.served bound caller later) s := by
  have hserves : BindOutcome.Serves (.served bound caller later) := ⟨bound, caller, later, rfl⟩
  have hstays : s.awaitsCaller = false ∧
      ∀ caller, s.step service c out (.calledBy caller) = s := by
    rcases h.stage with ⟨hp, far, hr, -⟩ | ⟨⟨result, hp⟩, -⟩
    · refine ⟨by rw [awaitsCaller, hp], fun caller => ?_⟩
      have htake : s.take service out (.calledBy caller) = s := by simp [take, hp]
      rw [Session.step, htake, h.settle_eq]
    · refine ⟨by rw [awaitsCaller, hp], fun caller => ?_⟩
      rw [Session.step_of_over hp, passed_of_not_common id]
  refine ⟨?_, fun hno => absurd hserves hno, ?_, fun _ => hstays.2, ?_,
    fun hno => absurd hserves hno⟩
  · obtain ⟨relayed, hw, -⟩ := h.back
    exact ⟨relayed, by rw [hw, hcontrol]; rfl, fun _ => hserves⟩
  · rw [hstays.1]
    constructor
    · intro ha
      cases ha
    · rintro ⟨bound', ho⟩
      cases ho
  · intro bound' caller' later' ho
    cases ho
    exact ⟨before, s₁, he, hfar, hcontrol, h⟩

/-! ### The course of a BIND -/

theorem bound_giveUp {status : Status} {f : Failure} {ms : List Reply} {later : List Event}
    (h : Replied control before ms s) (ht : control.Takes (o.told v).length)
    (ho : o.replies v = ms ++ [.bare v status]) (hf : o.failure? service.bindLimit = some f) :
    Bound service c out v control events o
      ((pursue out service.rules (.giveUp v status f) s).trace service c out later) := by
  rw [BindOutcome.told, ho] at ht
  have hroom : s.control.Takes (Reply.bare v status).bytes.length := by
    simpa using h.takes ht
  have hover := (h.reply (.bare v status)).passed later
  rw [← ho] at hover
  rw [pursue_giveUp f hroom, trace_of_over later rfl]
  exact Replied.bound_of_over ⟨hover.control, hover.far⟩ rfl hf

theorem bound_welcome {bound caller : Endpoint} {later : List Event}
    (h : Replied control before [.granted r.version bound] s) (hfar : s.far? = some .idle)
    (he : events = before ++ later)
    (ht : control.Takes ((BindOutcome.ofCaller r.destination bound caller later).told
      r.version).length) :
    Bound service c out r.version control events
      (.ofCaller r.destination bound caller later)
      ((pursue out service.rules (.welcome r caller) s).trace service c out later) := by
  unfold BindOutcome.ofCaller at ht ⊢
  rw [Plan.welcome_eq]
  cases hother : r.destination.otherHost? caller with
  | some expected =>
      rw [hother] at ht
      exact bound_giveUp h ht rfl rfl
  | none =>
      rw [hother] at ht
      have hmore : s.control.Takes
          ([Reply.granted r.version caller].flatMap Reply.bytes).length := h.takes ht
      have hroom : s.control.Takes (Reply.granted r.version caller).bytes.length := by
        simpa using hmore
      have hreplied := h.reply (.granted r.version caller)
      have hstart : Relayed (s.replied (.granted r.version caller)) []
          (s.replied (.granted r.version caller)).relayOn := relayed_start hfar
      dsimp only
      rw [pursue_reply hroom]
      exact (hstart.trace later).bound he hfar hreplied.control

theorem Receives.bound {bound : Endpoint} {later : List Event} {received : Reception} {s' : Session}
    (hr : Receives service c out (.received service.bindLimit r bound) s later received s')
    (h : Replied control before [.granted r.version bound] s) (he : events = before ++ later)
    (ht : control.Takes ((BindOutcome.ofReception r.destination bound received).told
      r.version).length) :
    Bound service c out r.version control events
      (.ofReception r.destination bound received) s' := by
  cases hr with
  | pending hp => exact (h.passed later).bound_of_waiting hp
  | nobody hl => exact bound_giveUp (h.passed _) ht rfl rfl
  | @caller waited rest caller hl =>
      have hcalled : Replied control (before ++ waited) [.granted r.version bound]
          { s.passed waited with far? := some .idle } := by
        refine ⟨(h.passed waited).control, fun far hfar => ?_⟩
        cases hfar
        rfl
      exact bound_welcome hcalled rfl (by rw [he, hl, List.append_assoc]) ht

theorem Answers.bound {answered? : Option (Except IoError (Except IoError Endpoint) × List Event)}
    {s' : Session}
    (ho : Answers service c out
      (fun answer => pursue out service.rules (.listened service.bindLimit r answer)) s
      (.listening (.listened service.bindLimit r)) events answered? s')
    (h : Replied control [] [] s) (hf : ∀ error, .acceptFails error ∉ events)
    (ht : control.Takes ((BindOutcome.ofAnswer service.bindLimit r.destination answered?).told
      r.version).length) :
    Bound service c out r.version control events
      (.ofAnswer service.bindLimit r.destination answered?) s' := by
  cases ho with
  | pending =>
      have hwaits := h.passed events
      exact Replied.bound_of_opening ⟨hwaits.control, hwaits.far⟩ rfl
  | @answered asked later answer phase he =>
      have hasked : Replied control asked [] { s.passed asked with phase := phase } :=
        ⟨(h.passed asked).control, (h.passed asked).far⟩
      match answer with
      | .error e => exact bound_giveUp hasked ht rfl rfl
      | .ok (.error e) =>
          have hover := hasked.passed later
          dsimp only [Plan.listened, pursue]
          rw [trace_of_over later rfl]
          exact Replied.bound_of_over ⟨hover.control, hover.far⟩ rfl rfl
      | .ok (.ok bound) =>
          have hlater : ∀ error, .acceptFails error ∉ later := by
            intro error hmem
            exact hf error (by rw [he]; exact List.mem_append_right _ hmem)
          obtain ⟨more, hmore⟩ := BindOutcome.replies_ofReception r.version r.destination bound
            (reception (service.bindLimit.toNat * 1000) later)
          have hall : control.Takes ((Reply.granted r.version bound :: more).flatMap
              Reply.bytes).length := by
            rw [← hmore]
            exact ht
          have hroom : ({ s.passed asked with phase := phase } : Session).control.Takes
              (Reply.granted r.version bound).bytes.length :=
            Stream.Takes.of_append (hasked.takes hall)
          have hreplied := hasked.reply (.granted r.version bound)
          obtain ⟨phase', hr⟩ := @receives_accept service c out service.bindLimit
            (.received service.bindLimit r bound) Plan.grounded_welcome
            (replied { s.passed asked with phase := phase } (.granted r.version bound)) later hlater
          dsimp only [Plan.listened]
          rw [pursue_reply hroom]
          exact hr.bound ⟨hreplied.control, hreplied.far⟩ he ht

/-- A session that carries out an allowed BIND shows what the BIND comes to. -/
theorem bound_trace {here? : Option IpAddress} (hcommand : r.command = .bind)
    (hr : service.rules r = true) (hfar : s.far? = none)
    (hf : ∀ error, .acceptFails error ∉ events)
    (ht : s.control.Takes ((BindOutcome.ofEvents service.bindLimit r.destination
      (out.listen ⟨here?.getD .anyV4, 0⟩) events).told r.version).length) :
    Bound service c out r.version s.control events
      (.ofEvents service.bindLimit r.destination (out.listen ⟨here?.getD .anyV4, 0⟩) events)
      ((pursue out service.rules (.ofRequest service.bindLimit here? r) s).trace service c out
        events) := by
  have hg : ∀ answer, (Plan.listened service.bindLimit r answer).Grounded false := by
    have hbind := @Plan.grounded_bind service.bindLimit here? r
    rwa [Plan.bind_eq] at hbind
  have ho := @answers_listen service c out (.listened service.bindLimit r)
    ⟨here?.getD .anyV4, 0⟩ hg (s.record (.rules r true)) events
  have hreplied : Replied s.control [] []
      ((s.record (.rules r true)).record (.listen ⟨here?.getD .anyV4, 0⟩)) := by
    refine ⟨?_, fun far hthere => ?_⟩
    · simp [record, Stream.passed, Stream.wrote]
    · have hnone : s.far? = some far := hthere
      rw [hfar] at hnone
      cases hnone
  rw [pursue_ofRequest hr, Plan.perform, hcommand]
  dsimp only
  rw [Plan.bind_eq]
  exact ho.bound hreplied hf ht

/-- The protocol of BIND, for a request that is known from the start and for one that comes in a
handshake: the client is told about the listener before anybody is taken up, then at most one thing
more, and nobody is served but the first caller, if it comes in time and from the right host. Of a
listener whose own address cannot be told the client is told nothing, and nobody is taken up. What
has been decided stays so. -/
theorem bind_protocol (service : Service) (c : Connection) (out : Surroundings) (control : Stream)
    (events : List Event) (hf : ∀ error, .acceptFails error ∉ events) :
    let place : Endpoint := ⟨(c.server?.map Endpoint.ip).getD .anyV4, 0⟩
    let comes (r : Request) (late : List Event) : BindOutcome :=
      .ofEvents service.bindLimit r.destination (out.listen place) late
    (∀ r, r.command = .bind → service.rules r = true →
      control.Takes ((comes r events).told r.version).length →
        Bound service c out r.version control events (comes r events)
          ((ofRequest service c out control r).trace service c out events)) ∧
    (let s := (start service c out control).trace service c out events
     Outside s ∨
      ∃ before after r hello rest said, events = before ++ after ∧
        Accepts service.authenticator r hello said ∧ sentBy control before = hello ++ rest ∧
        (let stream : Stream :=
          { control with
            incoming := rest
            ending := endingAfter control.ending before
            written := control.written ++ said }
         r.command = .bind → service.rules { r with client? := c.client? } = true →
          stream.Takes ((comes r after).told r.version).length →
            Bound service c out r.version stream after (comes r after) s)) ∧
    ∀ r late more, (comes r late).Decided →
      comes r (late ++ more) = (comes r late).followedBy more := by
  intro place comes
  refine ⟨fun r hcommand hr ht => ?_, ?_, fun r late more h => BindOutcome.ofEvents_append h more⟩
  · exact bound_trace (s := fresh control (.over (.ok ()))) hcommand hr rfl hf ht
  · intro s
    cases enters_trace service c out control events with
    | outside ho => exact .inl ho
    | @inside before after r hello rest said phase he ha hsent hs =>
        have hlate : ∀ error, .acceptFails error ∉ after := by
          intro error hmem
          exact hf error (by rw [he]; exact List.mem_append_right _ hmem)
        refine .inr ⟨before, after, r, hello, rest, said, he, ha, hsent, ?_⟩
        intro stream hcommand hr ht
        have hbound := bound_trace (c := c) (r := { r with client? := c.client? })
          (s := greeted control (endingAfter control.ending before) (elapsed before) rest said
            phase) hcommand hr rfl hlate ht
        rw [← planFor, ← hs, ← trace_append, ← he] at hbound
        exact hbound

/-- A caller from another host than the client named is turned away, and the one that was meant
comes too late. -/
theorem bind_protocol_stranger :
    let service : Service := ⟨.anyone, fun _ => true, 10, 60⟩
    let r : Request := ⟨.v5, .bind, .literal (.ofOctets 10 0 0 1) 0, .anonymous, none⟩
    let bound : Endpoint := ⟨.ofOctets 127 0 0 1, 1080⟩
    let events : List Event :=
      [.listened (.ok (.ok bound)), .clientSends [104], .timePasses 59999,
        .calledBy ⟨.ofOctets 10 0 0 2, 9⟩, .calledBy ⟨.ofOctets 10 0 0 1, 9⟩]
    let s := (ofRequest service ⟨none, none⟩ .silent .idle r).trace service ⟨none, none⟩ .silent
      events
    (∀ error, .acceptFails error ∉ events) ∧
      s.result? =
        some (.error (.blocked (.peer ⟨.ofOctets 10 0 0 2, 9⟩ (.ofOctets 10 0 0 1)))) ∧
      s.control.written =
        (Reply.granted .v5 bound).bytes ++ (Reply.bare .v5 .ruleFailure).bytes := by
  intro service r bound events s
  have hf : ∀ error, .acceptFails error ∉ events := by simp [events]
  have hcalled : reception 60000 events.tail =
      .caller ⟨.ofOctets 10 0 0 2, 9⟩ [.calledBy ⟨.ofOctets 10 0 0 1, 9⟩] := by
    show reception 60000 [.clientSends [104], .timePasses 59999,
      .calledBy ⟨.ofOctets 10 0 0 2, 9⟩, .calledBy ⟨.ofOctets 10 0 0 1, 9⟩] = _
    rw [reception_cons rfl, reception_cons rfl, reception_calledBy (by decide)]
  have hcomes : BindOutcome.ofEvents 60 r.destination none events =
      .rejected bound ⟨.ofOctets 10 0 0 2, 9⟩ (.ofOctets 10 0 0 1) := by
    show BindOutcome.ofReception r.destination bound (reception 60000 events.tail) = _
    rw [hcalled]
    rfl
  have h : Bound service ⟨none, none⟩ .silent .v5 .idle events
      (.rejected bound ⟨.ofOctets 10 0 0 2, 9⟩ (.ofOctets 10 0 0 1)) s := by
    rw [← hcomes]
    exact (bind_protocol service ⟨none, none⟩ .silent .idle events hf).1 r rfl rfl
      (Stream.takes_of_faultless rfl _)
  have hserves := @BindOutcome.not_serves_of_failure?
    (.rejected bound ⟨.ofOctets 10 0 0 2, 9⟩ (.ofOctets 10 0 0 1)) 60 _ rfl
  obtain ⟨relayed, hw, hrelayed⟩ := h.written
  have hnothing : relayed = [] := by
    by_contra hne
    exact hserves (hrelayed hne)
  refine ⟨hf, h.result hserves, ?_⟩
  rw [hw, hnothing]
  rfl

end Session

end Socks
