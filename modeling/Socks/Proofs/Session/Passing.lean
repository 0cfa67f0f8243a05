import Socks.Proofs.Plan
import Socks.Proofs.Stream

/-!
# What passes while a session waits

Most events change nothing but the control stream and the clock. `Session.passed` is the session
after any number of them; here the other events are told apart, for each thing that a session can
be busy with.
-/

namespace Socks

namespace Event

/-- The bytes that the client sends. -/
def bytes : Event → Bytes
  | clientSends bytes => bytes
  | _ => []

/-- The bytes that the far side sends. -/
def farBytes : Event → Bytes
  | farSends bytes => bytes
  | _ => []

/-- The milliseconds that pass. -/
def delay : Event → Nat
  | timePasses ms => ms
  | _ => 0

/-- What comes after the bytes of the client from now on. -/
def onEnding : Event → Ending → Ending
  | clientEnds, _ => .ended
  | clientBreaks e, _ => .broken e
  | _, ending => ending

/-- What comes after the bytes of the far side from now on. -/
def onFarEnding : Event → Ending → Ending
  | farEnds, _ => .ended
  | farResets, _ => .broken .connectionReset
  | _, ending => ending

/-- What every session notices, whatever it is busy with: the client and the clock. -/
def Common : Event → Prop
  | clientSends _ | clientEnds | clientBreaks _ | timePasses _ => True
  | _ => False

/-- The far side ends or fails. -/
def EndsFar : Event → Prop
  | farEnds | farResets => True
  | _ => False

end Event

/-- All that the client sends in the course of some events. -/
def heard (events : List Event) : Bytes := events.flatMap Event.bytes

/-- All that the far side sends in the course of some events. -/
def heardFar (events : List Event) : Bytes := events.flatMap Event.farBytes

/-- The milliseconds that pass in the course of some events. -/
def elapsed : List Event → Nat
  | [] => 0
  | e :: events => e.delay + elapsed events

/-- What comes after the bytes of the client when some events have happened. -/
def endingAfter (ending : Ending) (events : List Event) : Ending :=
  events.foldl (fun ending e => e.onEnding ending) ending

/-- A client that sends nothing after it has ended or broken off. -/
def Orderly (ending : Ending) (events : List Event) : Prop :=
  ∀ before after, events = before ++ after → endingAfter ending before ≠ .awaited → heard after = []

section counting

variable (a b : List Event)

@[simp] theorem heard_append : heard (a ++ b) = heard a ++ heard b := List.flatMap_append ..

@[simp] theorem heardFar_append : heardFar (a ++ b) = heardFar a ++ heardFar b :=
  List.flatMap_append ..

@[simp] theorem elapsed_append : elapsed (a ++ b) = elapsed a + elapsed b := by
  induction a with
  | nil => rw [List.nil_append, elapsed, Nat.zero_add]
  | cons e a ih => rw [List.cons_append, elapsed, elapsed, ih, Nat.add_assoc]

@[simp] theorem endingAfter_append (ending : Ending) :
    endingAfter ending (a ++ b) = endingAfter (endingAfter ending a) b := List.foldl_append ..

@[simp] theorem heard_nil : heard [] = [] := rfl

@[simp] theorem heardFar_nil : heardFar [] = [] := rfl

@[simp] theorem elapsed_nil : elapsed [] = 0 := rfl

@[simp] theorem endingAfter_nil (ending : Ending) : endingAfter ending [] = ending := rfl

variable (e : Event)

@[simp] theorem heard_singleton : heard [e] = e.bytes := List.append_nil _

@[simp] theorem heardFar_singleton : heardFar [e] = e.farBytes := List.append_nil _

@[simp] theorem elapsed_singleton : elapsed [e] = e.delay := rfl

@[simp] theorem endingAfter_singleton (ending : Ending) :
    endingAfter ending [e] = e.onEnding ending := rfl

end counting

/-- A client that has ended or broken off does not begin again. -/
theorem endingAfter_ne_awaited {ending : Ending} (h : ending ≠ .awaited) (events : List Event) :
    endingAfter ending events ≠ .awaited := by
  induction events generalizing ending with
  | nil => exact h
  | cons e events ih =>
      have hone : e.onEnding ending ≠ .awaited := by
        cases e with
        | clientEnds | clientBreaks => simp [Event.onEnding]
        | _ => exact h
      exact ih hone

theorem orderly_nil (ending : Ending) : Orderly ending [] := by
  intro before after he _
  rw [(List.nil_eq_append_iff.mp he).2]
  rfl

theorem orderly_cons {ending : Ending} {e : Event} {events : List Event}
    (h : ending ≠ .awaited → heard (e :: events) = []) (hs : Orderly (e.onEnding ending) events) :
    Orderly ending (e :: events) := by
  intro before after he hne
  cases before with
  | nil =>
      rw [List.nil_append] at he
      rw [← he]
      exact h hne
  | cons e' before =>
      rw [List.cons_append, List.cons.injEq] at he
      obtain ⟨rfl, he⟩ := he
      exact hs before after he hne

theorem Orderly.after {ending : Ending} {a b : List Event} (h : Orderly ending (a ++ b)) :
    Orderly (endingAfter ending a) b := by
  intro before after he hne
  refine h (a ++ before) after (by rw [he, List.append_assoc]) ?_
  rwa [endingAfter_append]

/-- Surroundings that answer nothing by themselves. -/
def Surroundings.silent : Surroundings :=
  ⟨fun _ => none, fun _ => none, fun _ => none, fun _ _ => none⟩

/-- A control stream after some events on which nothing has been read or written meanwhile. -/
def Stream.passed (s : Stream) (events : List Event) : Stream :=
  { s with
    incoming := s.incoming ++ heard events
    ending := endingAfter s.ending events }

theorem Stream.passed_passed (s : Stream) (a b : List Event) :
    (s.passed a).passed b = s.passed (a ++ b) := by
  simp [passed, List.append_assoc]

namespace Session

/-- The session after events that change nothing but the control stream and the clock. -/
def passed (s : Session) (events : List Event) : Session :=
  { s with
    control :=
      { s.control with
        incoming := s.control.incoming ++ heard events
        ending := endingAfter s.control.ending events }
    clock := s.clock + elapsed events }

@[simp] theorem passed_nil (s : Session) : s.passed [] = s := by simp [passed]

theorem passed_passed (s : Session) (a b : List Event) :
    (s.passed a).passed b = s.passed (a ++ b) := by
  simp [passed, List.append_assoc, Nat.add_assoc]

section taking

variable {service : Service} {c : Connection} {out : Surroundings} {s : Session} {e : Event}

theorem trace_cons (s : Session) (e : Event) (events : List Event) :
    s.trace service c out (e :: events) = (s.step service c out e).trace service c out events := rfl

theorem trace_append (s : Session) (a b : List Event) :
    s.trace service c out (a ++ b) = (s.trace service c out a).trace service c out b :=
  List.foldl_append ..

/-- What every event keeps, any number of events keep. -/
theorem trace_keeps {Q : List Event → Session → Prop}
    (hstep : ∀ events s e, Q events s → Q (events ++ [e]) (s.step service c out e))
    {events : List Event} (h : Q events s) (more : List Event) :
    Q (events ++ more) (s.trace service c out more) := by
  induction more generalizing events s with
  | nil =>
      rw [List.append_nil]
      exact h
  | cons e more ih =>
      rw [trace_cons, List.append_cons]
      exact ih (hstep events s e h)

theorem take_of_common (h : e.Common) : s.take service out e = s.passed [e] := by
  cases e with
  | clientSends | clientEnds | clientBreaks | timePasses =>
      simp [take, passed, Event.bytes, Event.delay, Event.onEnding, Stream.arrive, Stream.close,
        Stream.breakOff]
  | _ => exact h.elim

theorem passed_of_not_common (h : ¬e.Common) : s.passed [e] = s := by
  cases e with
  | clientSends | clientEnds | clientBreaks | timePasses => exact absurd trivial h
  | _ => simp [passed, Event.bytes, Event.delay, Event.onEnding]

theorem take_of_handshake {d : Dialogue Request} {deadline : Nat}
    (h : s.phase = .handshake d deadline) : s.take service out e = s.passed [e] := by
  by_cases he : e.Common
  · exact take_of_common he
  · rw [passed_of_not_common he]
    cases e <;> simp_all [take, Event.Common]

theorem take_of_over {result : Except Failure Unit} (h : s.phase = .over result) :
    s.take service out e = s.passed [e] := by
  by_cases he : e.Common
  · exact take_of_common he
  · rw [passed_of_not_common he]
    cases e <;> simp_all [take, Event.Common]

/-- What a session does that waits for an answer: `q.Awaits phase` if it waits at the plan `q`. -/
inductive Awaits : Plan → Phase → Prop
  | finish (result : Except Failure Unit) : Awaits (.finish result) (.over result)
  | resolve (host : String) (next : Except IoError IpAddress → Plan) :
      Awaits (.resolve host next) (.resolving next)
  | dial (destination : Endpoint) (next : Except IoError (Except IoError Endpoint) → Plan) :
      Awaits (.dial destination next) (.dialing next)
  | listen (place : Endpoint) (next : Except IoError (Except IoError Endpoint) → Plan) :
      Awaits (.listen place next) (.listening next)
  | openSocket (place : Endpoint) (next : Except IoError Endpoint → Plan) :
      Awaits (.openSocket place next) (.opening next)
  | accept (limit : UInt64) (next : Except IoError (Option Endpoint) → Plan) (deadline : Nat) :
      Awaits (.accept limit next) (.accepting next deadline)

/-- The session once a plan has brought it some calls, replies and, perhaps, a far side. -/
def went (s : Session) (cs : List Call) (ms : List Reply) (met : Bool) : Session :=
  { s with
    control := s.control.wrote (ms.flatMap Reply.bytes)
    far? := if met then some .idle else s.far?
    calls := s.calls ++ cs }

theorem went_went (s : Session) (cs cs' : List Call) (ms ms' : List Reply) (met met' : Bool) :
    (s.went cs ms met).went cs' ms' met' = s.went (cs ++ cs') (ms ++ ms') (met || met') := by
  cases met <;> cases met' <;> simp [went, Stream.wrote]

@[simp] theorem went_nothing (s : Session) : s.went [] [] false = s := by
  simp [went, Stream.wrote]

theorem went_met (s : Session) : s.went [] [] true = { s with far? := some .idle } := by
  simp [went, Stream.wrote]

theorem went_call (s : Session) (call : Call) : s.went [call] [] false = s.record call := by
  simp [went, record, Stream.wrote]

/-- The plan with which a session goes on that waits for an answer, if an event brings it, and
whether the event brings a far side too. -/
def answered? : Phase → Event → Option (Plan × Bool)
  | .resolving next, .resolved answer => some (next answer, false)
  | .dialing next, .dialed (.ok here) => some (next (.ok here), true)
  | .dialing next, .dialed (.error e) => some (next (.error e), false)
  | .listening next, .listened answer => some (next answer, false)
  | .opening next, .opened answer => some (next answer, false)
  | .accepting next _, .calledBy caller => some (next (.ok (some caller)), true)
  | .accepting next _, .acceptFails e => some (next (.error e), false)
  | _, _ => none

theorem answered?_of_common (h : e.Common) (phase : Phase) : answered? phase e = none := by
  cases e with
  | clientSends | clientEnds | clientBreaks | timePasses => cases phase <;> rfl
  | _ => exact h.elim

/-- A session that waits goes on with the plan that the answer leads to. -/
theorem Awaits.step_of_answered {q q' : Plan} {phase : Phase} {met : Bool} (h : Awaits q phase)
    (ha : answered? phase e = some (q', met)) (rules : Rules) : q.Step rules q.asks [] met q' := by
  cases h with
  | finish => cases e <;> cases ha
  | resolve host next =>
      cases e with
      | resolved answer => cases ha; exact .resolve host next answer
      | _ => cases ha
  | dial destination next =>
      cases e with
      | dialed answer =>
          cases answer with
          | ok here => cases ha; exact .reached destination next here
          | error e => cases ha; exact .unreached destination next e
      | _ => cases ha
  | listen place next =>
      cases e with
      | listened answer => cases ha; exact .listen place next answer
      | _ => cases ha
  | openSocket place next =>
      cases e with
      | opened answer => cases ha; exact .openSocket place next answer
      | _ => cases ha
  | accept limit next deadline =>
      cases e with
      | calledBy caller => cases ha; exact .called limit next caller
      | acceptFails e => cases ha; exact .uncallable limit next e
      | _ => cases ha

/-- A session that waits for an answer goes on with it, and lets everything else pass. -/
theorem take_eq_of_awaits {q : Plan} (h : Awaits q s.phase) :
    s.take service out e =
      match answered? s.phase e with
      | some (q', met) => pursue out service.rules q' (s.went [] [] met)
      | none => s.passed [e] := by
  by_cases he : e.Common
  · rw [take_of_common he, answered?_of_common he]
  have hs := passed_of_not_common (s := s) he
  generalize hp : s.phase = phase at h ⊢
  cases h with
  | finish => rw [take_of_over hp]; cases e <;> rfl
  | dial destination next =>
      cases e with
      | dialed answer =>
          cases answer with
          | ok here => simp [take, hp, reach, went_met, answered?]
          | error e => simp [take, hp, reach, answered?]
      | clientSends | clientEnds | clientBreaks | timePasses => exact absurd trivial he
      | _ => simp [hs, take, hp, answered?]
  | resolve | listen | openSocket | accept =>
      cases e with
      | clientSends | clientEnds | clientBreaks | timePasses => exact absurd trivial he
      | _ => simp [hs, take, hp, went_met, answered?]

/-- A session that waits for an answer lets an event pass, or goes on with the answer. -/
theorem take_of_awaits {q : Plan} {phase : Phase} (hp : s.phase = phase) (h : Awaits q phase) :
    s.take service out e = s.passed [e] ∨
      ∃ met q', q.Step service.rules q.asks [] met q' ∧ s.passed [e] = s ∧
        s.take service out e = pursue out service.rules q' (s.went [] [] met) := by
  subst hp
  rw [take_eq_of_awaits h]
  cases ha : answered? s.phase e with
  | none => exact .inl rfl
  | some answer =>
      obtain ⟨q', met⟩ := answer
      have hs : s.passed [e] = s := by
        refine passed_of_not_common fun hc => ?_
        rw [answered?_of_common hc] at ha
        cases ha
      exact .inr ⟨met, q', h.step_of_answered ha _, hs, rfl⟩

/-- The plan with which a session goes on by itself that has waited for a caller long enough. -/
def expired? (clock : Nat) : Phase → Option Plan
  | .accepting next deadline => if deadline ≤ clock then some (next (.ok none)) else none
  | _ => none

theorem Awaits.step_of_expired {q q' : Plan} {phase : Phase} {clock : Nat} (h : Awaits q phase)
    (ha : expired? clock phase = some q') (rules : Rules) : q.Step rules q.asks [] false q' := by
  cases h with
  | accept limit next deadline =>
      rw [expired?, Option.ite_none_right_eq_some] at ha
      obtain ⟨-, ha⟩ := ha
      cases ha
      exact .uncalled limit next
  | _ => cases ha

theorem settle_eq_of_awaits {q : Plan} (h : Awaits q s.phase) :
    s.settle service c out =
      match expired? s.clock s.phase with
      | some q' => pursue out service.rules q' s
      | none => s := by
  generalize hp : s.phase = phase at h ⊢
  cases h with
  | accept limit next deadline =>
      by_cases hd : deadline ≤ s.clock <;> simp [settle, hp, hd, expired?]
  | _ => simp [settle, hp, expired?]

/-- A session that waits for an answer goes on by itself only when it has waited for a caller long
enough. -/
theorem settle_of_awaits {q : Plan} {phase : Phase} (hp : s.phase = phase) (h : Awaits q phase) :
    s.settle service c out = s ∨
      ∃ q', q.Step service.rules q.asks [] false q' ∧
        s.settle service c out = pursue out service.rules q' s := by
  subst hp
  rw [settle_eq_of_awaits h]
  cases ha : expired? s.clock s.phase with
  | none => exact .inl rfl
  | some q' => exact .inr ⟨q', h.step_of_expired ha _, rfl⟩

theorem settle_of_over {result : Except Failure Unit} (h : s.phase = .over result) :
    s.settle service c out = s := by simp [settle, h]

theorem step_of_over {result : Except Failure Unit} (h : s.phase = .over result) :
    s.step service c out e = s.passed [e] := by
  have hp : (s.passed [e]).phase = .over result := h
  rw [step, take_of_over h, settle_of_over hp]

/-- A session that is over only lets events pass. -/
theorem trace_of_over {result : Except Failure Unit} (events : List Event)
    (h : s.phase = .over result) : s.trace service c out events = s.passed events := by
  induction events generalizing s with
  | nil => exact (passed_nil s).symm
  | cons e events ih =>
      rw [trace_cons, step_of_over h, ih (s := s.passed [e]) h, passed_passed]
      rfl

end taking

end Session

end Socks
