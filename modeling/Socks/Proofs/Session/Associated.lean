import Socks.Proofs.Session.Asking
import Socks.Proofs.Session.Entrance

/-!
# Sessions with an association

A session that has been asked for an association opens two sockets, tells its client about the first
and then attends to the association until the client ends or breaks off.

Main statements: a session that attends to an association is put in closed form by what the
association does (`Session.trace_watch`, `Session.drained_trace_watch`); `Session.fits_ofRequest`
and `Session.fits_start` tell how a session comes to its association.
-/

namespace Socks

/-! ### The time of an association -/

/-- The events up to the one with which the client ends or breaks off. -/
def attended (ending : Ending) : List Event → List Event
  | [] => []
  | e :: events => if ending = .awaited then e :: attended (e.onEnding ending) events else []

/-- The events after the client has ended or broken off. -/
def unattended (ending : Ending) : List Event → List Event
  | [] => []
  | e :: events => if ending = .awaited then unattended (e.onEnding ending) events else e :: events

/-- What is left of some events when the client sends nothing. -/
def quiet (events : List Event) : List Event :=
  events.filter fun
    | .clientSends _ => false
    | _ => true

section time

variable {ending : Ending} {events : List Event}

theorem attended_append_unattended (ending : Ending) (events : List Event) :
    attended ending events ++ unattended ending events = events := by
  induction events generalizing ending with
  | nil => rfl
  | cons e events ih =>
      by_cases ha : ending = .awaited
      · rw [attended, unattended, if_pos ha, if_pos ha, List.cons_append, ih]
      · rw [attended, unattended, if_neg ha, if_neg ha, List.nil_append]

theorem attended_of_ne (h : ending ≠ .awaited) (events : List Event) :
    attended ending events = [] := by
  cases events with
  | nil => rfl
  | cons e events => rw [attended, if_neg h]

/-- The client has ended or broken off when the time of an association is over. -/
theorem endingAfter_attended (ending : Ending) (events : List Event) :
    endingAfter ending (attended ending events) = .awaited ↔
      endingAfter ending events = .awaited := by
  induction events generalizing ending with
  | nil => exact Iff.rfl
  | cons e events ih =>
      by_cases ha : ending = .awaited
      · rw [attended, if_pos ha]
        exact ih (e.onEnding ending)
      · rw [attended, if_neg ha]
        exact iff_of_false ha (endingAfter_ne_awaited ha (e :: events))

/-- As long as the client goes on every event counts. -/
theorem attended_of_awaited (h : endingAfter ending events = .awaited) :
    attended ending events = events := by
  induction events generalizing ending with
  | nil => rfl
  | cons e events ih =>
      have ha : ending = .awaited := by
        by_contra hne
        exact endingAfter_ne_awaited hne (e :: events) h
      rw [attended, if_pos ha, ih h]

theorem quiet_append (a b : List Event) : quiet (a ++ b) = quiet a ++ quiet b :=
  List.filter_append ..

/-- Runs of events that differ in what the client sends, and end alike, begin alike. -/
theorem quiet_before {before before' later later' : List Event}
    (h : quiet (before' ++ later') = quiet (before ++ later))
    (hlater : quiet later' = quiet later) :
    quiet before' = quiet before := by
  rw [quiet_append, quiet_append, hlater] at h
  exact List.append_cancel_right h

/-- What the client sends is left out, and everything else stays. -/
theorem quiet_cons (e : Event) :
    (∃ bytes, e = .clientSends bytes) ∨ ∀ events, quiet (e :: events) = e :: quiet events := by
  cases e with
  | clientSends bytes => exact .inl ⟨bytes, rfl⟩
  | _ => exact .inr fun _ => rfl

theorem endingAfter_quiet (ending : Ending) (events : List Event) :
    endingAfter ending (quiet events) = endingAfter ending events := by
  induction events generalizing ending with
  | nil => rfl
  | cons e events ih =>
      rcases quiet_cons e with ⟨bytes, rfl⟩ | h
      · exact ih ending
      · rw [h]
        exact ih (e.onEnding ending)

/-- Whether the client goes on does not depend on what it sends. -/
theorem endingAfter_congr {other : List Event} (h : quiet other = quiet events) (ending : Ending) :
    endingAfter ending other = endingAfter ending events := by
  rw [← endingAfter_quiet, h, endingAfter_quiet]

theorem attended_quiet (ending : Ending) (events : List Event) :
    attended ending (quiet events) = quiet (attended ending events) := by
  induction events generalizing ending with
  | nil => rfl
  | cons e events ih =>
      by_cases ha : ending = .awaited
      · rw [attended, if_pos ha]
        rcases quiet_cons e with ⟨bytes, rfl⟩ | h
        · exact ih ending
        · rw [h, h, attended, if_pos ha, ih]
      · rw [attended_of_ne ha, attended_of_ne ha]
        rfl

theorem firstAnswer?_quiet {α : Type} {answer? : Event → Option α}
    (hanswer : ∀ bytes, answer? (.clientSends bytes) = none) (events : List Event) :
    firstAnswer? answer? (quiet events) =
      (firstAnswer? answer? events).map fun answered => (answered.1, quiet answered.2) := by
  induction events with
  | nil => rfl
  | cons e events ih =>
      rcases quiet_cons e with ⟨bytes, rfl⟩ | h
      · rw [firstAnswer?_cons_none (hanswer bytes)]
        exact ih
      · rw [h]
        cases he : answer? e with
        | some a => rw [firstAnswer?_cons_some he, firstAnswer?_cons_some he]; rfl
        | none => rw [firstAnswer?_cons_none he, firstAnswer?_cons_none he, ih]

theorem answeredIn?_quiet {α : Type} {answer? : Event → Option α}
    (hanswer : ∀ bytes, answer? (.clientSends bytes) = none) (atOnce? : Option α)
    (events : List Event) :
    answeredIn? answer? atOnce? (quiet events) =
      (answeredIn? answer? atOnce? events).map fun answered => (answered.1, quiet answered.2) := by
  cases atOnce? with
  | some a => rfl
  | none => exact firstAnswer?_quiet hanswer events

end time

theorem Association.afterAll_quiet (resolve : Answers) (a : Association) (events : List Event) :
    a.afterAll resolve (quiet events) = a.afterAll resolve events := by
  induction events generalizing a with
  | nil => rfl
  | cons e events ih =>
      rcases quiet_cons e with ⟨bytes, rfl⟩ | h
      · exact ih a
      · rw [h, afterAll_cons, afterAll_cons, ih]

theorem Association.after_of_common (resolve : Answers) (a : Association) {e : Event}
    (h : e.Common) : a.after resolve e = (a, []) := by
  cases e with
  | clientSends | clientEnds | clientBreaks | timePasses => rfl
  | _ => exact h.elim

namespace Session

variable {service : Service} {c : Connection} {out : Surroundings} {control : Stream}
  {s s' : Session} {events before : List Event} {e : Event}

/-! ### What a session has shown -/

/-- What a session has shown: the datagrams that it sent, what its client was told, and what it has
come to. -/
structure Shown where
  sent : List Sending
  written : Bytes
  result? : Option (Except Failure Unit)
deriving DecidableEq

def shown (s : Session) : Shown := ⟨s.sent, s.control.written, s.result?⟩

/-- A session that is over shows nothing more. -/
theorem shown_trace_of_over (h : s.isOver = true) (events : List Event) :
    (s.trace service c out events).shown = s.shown := by
  unfold isOver result? at h
  split at h
  · rename_i result hp
    rw [trace_of_over events hp]
    rfl
  · cases h

/-- A reply that is not taken whole is the end of its session. -/
theorem shown_reply_cut {m : Reply} (hr : Replied control before [] s) (hs : s.sent = [])
    (ht : ¬control.Takes m.bytes.length) (next : Plan) (later : List Event) :
    ∃ fault, control.fault? = some fault ∧
      fault.after - control.written.length < m.bytes.length ∧
      ((pursue out service.rules (.reply m next) s).trace service c out later).shown =
        ⟨[], control.written ++ m.bytes.take (fault.after - control.written.length),
          some (.error (.transport fault.error))⟩ := by
  have hcontrol := hr.control_eq
  have hroom : ¬s.control.Takes m.bytes.length := fun htakes => ht ((hr.takes_iff _).mp htakes)
  obtain ⟨fault, hfault, hlt, hcut⟩ := pursue_reply_of_not_takes hroom next
  rw [hcontrol] at hfault hlt
  refine ⟨fault, hfault, hlt, ?_⟩
  rw [hcut, shown_trace_of_over rfl, hcontrol, shown, hs]
  rfl

/-- A session that gives up shows its last reply and its failure. -/
theorem shown_giveUp {v : Version} {status : Status} {f : Failure}
    (hr : Replied control before [] s) (hs : s.sent = [])
    (ht : control.Takes (Reply.bare v status).bytes.length) (later : List Event) :
    ((pursue out service.rules (.giveUp v status f) s).trace service c out later).shown =
      ⟨[], control.written ++ (Reply.bare v status).bytes, some (.error f)⟩ := by
  rw [pursue_giveUp f ((hr.takes_iff _).mpr ht), shown_trace_of_over rfl]
  show (⟨s.sent, s.control.written ++ _, _⟩ : Shown) = _
  rw [hs, hr.control_eq]
  rfl

/-! ### Sessions that attend to an association -/

theorem settle_of_associated {a : Association} (hp : s.phase = .associated a) :
    s.settle service c out = s.watch a := by
  simp [settle, hp]

/-- A session that begins to attend to an association when the client still goes on. -/
theorem watch_of_awaited (h : s.control.ending = .awaited) (a : Association) :
    s.watch a = { s with control := s.control.drained, phase := .associated a } := by
  rw [watch_eq, if_pos h]

theorem take_of_associated {a : Association} (hp : s.phase = .associated a) (hc : ¬e.Common) :
    s.take service out e = s.associate (a.after out.resolve e) := by
  have hself : { s with phase := .associated a } = s := by rw [← hp]
  cases e with
  | clientSends | clientEnds | clientBreaks | timePasses => exact absurd trivial hc
  | innerReceives | resolved | outerReceives | innerFails | outerFails =>
      simp [take, hp, Association.after, associate, act_eq]
  | _ => simp [take, hp, Association.after, associate, act_eq, hself]

/-- The session after its association has done something. -/
def acted (s : Session) (actions : List Association.Action) : Session :=
  { s with
    calls := s.calls ++ (Association.lookups actions).map Call.resolve
    sent := s.sent ++ Association.sendings actions }

@[simp] theorem acted_nil (s : Session) : s.acted [] = s := by simp [acted]

theorem acted_passed (s : Session) (events : List Event) (x y : List Association.Action) :
    ((s.acted x).passed events).acted y = (s.passed events).acted (x ++ y) := by
  simp [acted, passed]

/-- An event makes an association do something, and may end it. -/
theorem step_of_associated {a : Association} (hp : s.phase = .associated a) (e : Event) :
    s.step service c out e =
      ((s.passed [e]).acted (a.after out.resolve e).2).watch (a.after out.resolve e).1 := by
  by_cases hc : e.Common
  · have hpassed : (s.passed [e]).phase = .associated a := hp
    rw [step, take_of_common hc, settle_of_associated hpassed, Association.after_of_common _ _ hc,
      acted_nil]
  · have hassociate : (s.associate (a.after out.resolve e)).phase =
        .associated (a.after out.resolve e).1 := by
      rw [associate, act_eq]
    rw [step, take_of_associated hp hc, settle_of_associated hassociate, passed_of_not_common hc,
      associate, act_eq, watch_eq, watch_eq]
    rfl

/-- A session that begins to attend to an association when the client still goes on has an
association then. -/
theorem step_watch (h : s.control.ending = .awaited) (a : Association) (e : Event) :
    (s.watch a).step service c out e =
      ((s.passed [e]).acted (a.after out.resolve e).2).watch (a.after out.resolve e).1 := by
  have hp : (s.watch a).phase = .associated a := by rw [watch_of_awaited h]
  rw [step_of_associated hp, watch_of_awaited h, watch_eq, watch_eq]
  simp [passed, acted, Stream.drained]

/-- What a session has come to that began to attend to an association: it has done what the
association did until the client ended or broke off, and nothing since. -/
theorem trace_watch (s : Session) (a : Association) (events : List Event) :
    (s.watch a).trace service c out events =
      let lived := attended s.control.ending events
      let went := a.afterAll out.resolve lived
      (((s.passed lived).acted went.2).watch went.1).passed
        (unattended s.control.ending events) := by
  induction events generalizing s a with
  | nil => simp [attended, unattended, Association.afterAll, trace]
  | cons e events ih =>
      by_cases ha : s.control.ending = .awaited
      · have hending : ((s.passed [e]).acted (a.after out.resolve e).2).control.ending =
            e.onEnding s.control.ending := rfl
        rw [trace_cons, step_watch ha, ih, hending, attended, unattended, if_pos ha, if_pos ha]
        dsimp only
        rw [acted_passed, passed_passed, Association.afterAll_cons, List.singleton_append]
      · have hover : (s.watch a).phase = .over a.result := by rw [watch_eq, if_neg ha]
        rw [trace_of_over _ hover, attended_of_ne ha, unattended, if_neg ha]
        simp [Association.afterAll]

/-- The session without what it has not read. -/
def drained (s : Session) : Session := { s with control := s.control.drained }

/-- What a session has come to that began to attend to an association, field by field. -/
theorem drained_trace_watch (s : Session) (a : Association) (events : List Event) :
    ((s.watch a).trace service c out events).drained =
      let went := a.afterAll out.resolve (attended s.control.ending events)
      { s with
        control := { s.control.drained with ending := endingAfter s.control.ending events }
        clock := s.clock + elapsed events
        phase :=
          if endingAfter s.control.ending events = .awaited then .associated went.1
          else .over went.1.result
        calls := s.calls ++ (Association.lookups went.2).map Call.resolve
        sent := s.sent ++ Association.sendings went.2 } := by
  have hevents := attended_append_unattended s.control.ending events
  have hending : endingAfter (endingAfter s.control.ending (attended s.control.ending events))
      (unattended s.control.ending events) = endingAfter s.control.ending events := by
    rw [← endingAfter_append, hevents]
  have hclock : s.clock + elapsed (attended s.control.ending events) +
      elapsed (unattended s.control.ending events) = s.clock + elapsed events := by
    rw [Nat.add_assoc, ← elapsed_append, hevents]
  have hover := endingAfter_attended s.control.ending events
  rw [trace_watch]
  simp [watch_eq, drained, passed, acted, Stream.drained, hending, hclock, hover]

/-- What a session shows that attends to an association. -/
theorem shown_trace_watch (s : Session) (a : Association) (events : List Event) :
    let went := a.afterAll out.resolve (attended s.control.ending events)
    ((s.watch a).trace service c out events).shown =
      ⟨s.sent ++ Association.sendings went.2, s.control.written,
        if endingAfter s.control.ending events = .awaited then none else some went.1.result⟩ := by
  intro went
  have hshown := congrArg shown (@drained_trace_watch service c out s a events)
  have hdrained : ((s.watch a).trace service c out events).drained.shown =
      ((s.watch a).trace service c out events).shown := rfl
  rw [← hdrained, hshown]
  by_cases hawaited : endingAfter s.control.ending events = .awaited
  · simp only [hawaited, if_true]
    rfl
  · simp only [hawaited, if_false]
    rfl

end Session

/-! ### How a session comes to its association -/

/-- What has become of the two sockets of an association: one is awaited, one cannot be had, or both
are there, and `later` happened after that. -/
inductive Outfit where
  | opening
  | unopened (error : IoError)
  | ready (inner outer : Endpoint) (later : List Event)

namespace Outfit

/-- What becomes of the second socket. -/
def ofOuter (inner : Endpoint) : Option (Except IoError Endpoint × List Event) → Outfit
  | none => .opening
  | some (.error e, _) => .unopened e
  | some (.ok outer, later) => .ready inner outer later

/-- What becomes of both sockets; the second is asked for when the first is there. -/
def ofInner (outer? : Option (Except IoError Endpoint)) :
    Option (Except IoError Endpoint × List Event) → Outfit
  | none => .opening
  | some (.error e, _) => .unopened e
  | some (.ok inner, later) => ofOuter inner (answeredIn? Event.opened? outer? later)

/-- What becomes of the sockets when these events happen; `inner?` and `outer?` are the answers that
are there at once. -/
def ofEvents (inner? outer? : Option (Except IoError Endpoint)) (events : List Event) : Outfit :=
  ofInner outer? (answeredIn? Event.opened? inner? events)

/-- What becomes of the sockets that an association of the connection `c` asks for. -/
def ofConnection (c : Connection) (out : Surroundings) (events : List Event) : Outfit :=
  let here := (c.server?.map Endpoint.ip).getD .anyV4
  ofEvents (out.openSocket 0 ⟨here, 0⟩) (out.openSocket 1 ⟨here.wildcard, 0⟩) events

/-- What has become of the sockets when the client sends nothing. -/
def quieted : Outfit → Outfit
  | opening => .opening
  | unopened e => .unopened e
  | ready inner outer later => .ready inner outer (quiet later)

theorem ofOuter_quiet (inner : Endpoint)
    (answered? : Option (Except IoError Endpoint × List Event)) :
    ofOuter inner (answered?.map fun answered => (answered.1, quiet answered.2)) =
      (ofOuter inner answered?).quieted := by
  rcases answered? with _ | ⟨answer, later⟩
  · rfl
  · cases answer <;> rfl

theorem ofInner_quiet (outer? : Option (Except IoError Endpoint))
    (answered? : Option (Except IoError Endpoint × List Event)) :
    ofInner outer? (answered?.map fun answered => (answered.1, quiet answered.2)) =
      (ofInner outer? answered?).quieted := by
  rcases answered? with _ | ⟨answer, later⟩
  · rfl
  · cases answer with
    | error e => rfl
    | ok inner =>
        show ofOuter inner (answeredIn? Event.opened? outer? (quiet later)) = _
        rw [answeredIn?_quiet fun _ => rfl, ofOuter_quiet]
        rfl

theorem ofEvents_quiet (inner? outer? : Option (Except IoError Endpoint)) (events : List Event) :
    ofEvents inner? outer? (quiet events) = (ofEvents inner? outer? events).quieted := by
  rw [ofEvents, ofEvents, answeredIn?_quiet fun _ => rfl, ofInner_quiet]

/-- What the client sends does not matter for the sockets. -/
theorem ofConnection_quiet (c : Connection) (out : Surroundings) (events : List Event) :
    ofConnection c out (quiet events) = (ofConnection c out events).quieted :=
  ofEvents_quiet ..

end Outfit

namespace Plan

/-- What is done about an association that cannot have its sockets. -/
def unfitted (r : Request) (e : IoError) : Plan :=
  giveUp r.version .serverFailure (.command (.noRelaySockets e))

/-- What is done about an association that has both sockets. -/
def fitted (r : Request) (inner outer : Endpoint) : Plan :=
  .reply (.granted r.version inner) (.associate ⟨inner, outer, r.destination.literalHost?⟩)

/-- What follows the answer about the second socket. -/
def outerOpened (r : Request) (inner : Endpoint) : Except IoError Endpoint → Plan
  | .ok outer => fitted r inner outer
  | .error e => unfitted r e

/-- What follows the answer about the first socket. -/
def innerOpened (r : Request) (here : IpAddress) : Except IoError Endpoint → Plan
  | .ok inner => .openSocket ⟨here.wildcard, 0⟩ (outerOpened r inner)
  | .error e => unfitted r e

theorem datagrams_eq (here? : Option IpAddress) (r : Request) :
    datagrams here? r =
      .openSocket ⟨here?.getD .anyV4, 0⟩ (innerOpened r (here?.getD .anyV4)) := by
  unfold datagrams
  congr 1

theorem grounded_outerOpened (r : Request) (inner : Endpoint) (answer : Except IoError Endpoint) :
    (outerOpened r inner answer).Grounded false := by
  cases answer with
  | ok outer => trivial
  | error e => exact grounded_giveUp ..

theorem grounded_innerOpened (r : Request) (here : IpAddress) (answer : Except IoError Endpoint) :
    (innerOpened r here answer).Grounded false := by
  cases answer with
  | ok inner => exact grounded_outerOpened r inner
  | error e => exact grounded_giveUp ..

end Plan

namespace Session

variable {service : Service} {c : Connection} {out : Surroundings} {control : Stream}
  {s s' : Session} {events before : List Event} {sent : List Sending} {r : Request}

/-- What a session has come to that began an ASSOCIATE request with the stream `control`: it waits
for a socket, or it went on when it could not have one or had both. -/
inductive Fits (service : Service) (c : Connection) (out : Surroundings) (r : Request)
    (control : Stream) (sent : List Sending) (events : List Event) : Outfit → Session → Prop
  | opening {next : Except IoError Endpoint → Plan} {s : Session} :
      Replied control events [] s → s.sent = sent → s.phase = .opening next →
        Fits service c out r control sent events .opening s
  | unopened {before later : List Event} {e : IoError} {s : Session} :
      events = before ++ later → Replied control before [] s → s.sent = sent →
        Fits service c out r control sent events (.unopened e)
          ((pursue out service.rules (.unfitted r e) s).trace service c out later)
  | ready {before later : List Event} {inner outer : Endpoint} {s : Session} :
      events = before ++ later → Replied control before [] s → s.sent = sent →
        Fits service c out r control sent events (.ready inner outer later)
          ((pursue out service.rules (.fitted r inner outer) s).trace service c out later)

theorem Answers.fits_outer {inner : Endpoint} {later : List Event}
    {answered? : Option (Except IoError Endpoint × List Event)}
    (h : Answers service c out
      (fun answer => pursue out service.rules (.outerOpened r inner answer)) s
      (.opening (.outerOpened r inner)) later answered? s')
    (he : events = before ++ later) (hr : Replied control before [] s) (hs : s.sent = sent) :
    Fits service c out r control sent events (.ofOuter inner answered?) s' := by
  cases h with
  | pending =>
      have hwaits := hr.passed later
      rw [← he] at hwaits
      exact .opening ⟨hwaits.control, hwaits.far⟩ hs rfl
  | @answered asked rest answer phase hl =>
      have hasked := hr.passed asked
      have hall : events = (before ++ asked) ++ rest := by rw [he, hl, List.append_assoc]
      cases answer with
      | error e => exact .unopened hall ⟨hasked.control, hasked.far⟩ hs
      | ok outer => exact .ready hall ⟨hasked.control, hasked.far⟩ hs

theorem Answers.fits {here : IpAddress}
    {answered? : Option (Except IoError Endpoint × List Event)}
    (h : Answers service c out
      (fun answer => pursue out service.rules (.innerOpened r here answer)) s
      (.opening (.innerOpened r here)) events answered? s')
    (hr : Replied control [] [] s) (hs : s.sent = sent) (hopened : s.socketsOpened = 1) :
    Fits service c out r control sent events
      (.ofInner (out.openSocket 1 ⟨here.wildcard, 0⟩) answered?) s' := by
  cases h with
  | pending =>
      have hwaits := hr.passed events
      exact .opening ⟨hwaits.control, hwaits.far⟩ hs rfl
  | @answered asked later answer phase he =>
      have hasked := hr.passed asked
      cases answer with
      | error e => exact .unopened he ⟨hasked.control, hasked.far⟩ hs
      | ok inner =>
          have hsecond := @answers_openSocket service c out _ ⟨here.wildcard, 0⟩
            (Plan.grounded_outerOpened r inner) { s.passed asked with phase := phase } later
          have hone : ({ s.passed asked with phase := phase } : Session).socketsOpened = 1 :=
            hopened
          rw [hone] at hsecond
          exact hsecond.fits_outer he ⟨hasked.control, hasked.far⟩ hs

/-- How a session comes to its association, if the rules allow it. -/
theorem fits_trace {here? : Option IpAddress} {limit : UInt64} (hcommand : r.command = .associate)
    (hr : service.rules r = true) (hfar : s.far? = none) (hcalls : s.calls = []) :
    let here := here?.getD .anyV4
    Fits service c out r s.control s.sent events
      (.ofEvents (out.openSocket 0 ⟨here, 0⟩) (out.openSocket 1 ⟨here.wildcard, 0⟩) events)
      ((pursue out service.rules (.ofRequest limit here? r) s).trace service c out events) := by
  intro here
  have hfirst := @answers_openSocket service c out _ ⟨here, 0⟩ (Plan.grounded_innerOpened r here)
    (s.record (.rules r true)) events
  have hnone : (s.record (.rules r true)).socketsOpened = 0 := by
    simp [socketsOpened, record, hcalls]
  have hone : ((s.record (.rules r true)).record (.openSocket ⟨here, 0⟩)).socketsOpened = 1 := by
    simp [socketsOpened, record, hcalls]
  have hreplied : Replied s.control [] []
      ((s.record (.rules r true)).record (.openSocket ⟨here, 0⟩)) := by
    refine ⟨?_, fun far hthere => ?_⟩
    · simp [record, Stream.passed, Stream.wrote]
    · have hno : s.far? = some far := hthere
      rw [hfar] at hno
      cases hno
  rw [pursue_ofRequest hr, Plan.perform, hcommand]
  dsimp only
  rw [Plan.datagrams_eq]
  rw [hnone] at hfirst
  exact hfirst.fits hreplied rfl hone

/-- How a session whose request is known comes to its association. -/
theorem fits_ofRequest (hcommand : r.command = .associate) (hr : service.rules r = true)
    (events : List Event) :
    Fits service c out r control [] events (.ofConnection c out events)
      ((ofRequest service c out control r).trace service c out events) :=
  fits_trace (s := fresh control (.over (.ok ()))) hcommand hr rfl rfl

/-- How a session whose request has come in a handshake comes to its association. -/
theorem fits_start {rest said : Bytes} {phase : Phase} (hcommand : r.command = .associate)
    (hr : service.rules { r with client? := c.client? } = true)
    (hs : (start service c out control).trace service c out before =
      pursue out service.rules (planFor service c r)
        (greeted control (endingAfter control.ending before) (elapsed before) rest said phase))
    (late : List Event) :
    let stream : Stream :=
      { control with
        incoming := rest
        ending := endingAfter control.ending before
        written := control.written ++ said }
    Fits service c out { r with client? := c.client? } stream [] late (.ofConnection c out late)
      ((start service c out control).trace service c out (before ++ late)) := by
  intro stream
  rw [trace_append, hs]
  exact fits_trace
    (s := greeted control (endingAfter control.ending before) (elapsed before) rest said phase)
    hcommand hr rfl rfl

/-- A session whose client has been told about its association attends to it. -/
theorem pursue_fitted {rules : Rules} {inner outer : Endpoint} (hr : Replied control before [] s)
    (ht : control.Takes (Reply.granted r.version inner).bytes.length) :
    pursue out rules (.fitted r inner outer) s =
      (s.replied (.granted r.version inner)).watch
        (.start ⟨inner, outer, r.destination.literalHost?⟩) := by
  rw [Plan.fitted, pursue_reply ((hr.takes_iff _).mpr ht)]
  rfl

end Session

end Socks
