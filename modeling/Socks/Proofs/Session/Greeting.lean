import Socks.Proofs.Dialogue.Advance
import Socks.Proofs.Handshake
import Socks.Proofs.Session.Pursuit

/-!
# Sessions from their first byte

`Session.Greets` says what a session has come to, some events after its connection was made: the
handshake goes on, the client has been turned away, or the handshake has come to a request and the
session carries out the plan of the request. How the bytes of the client were cut into pieces does
not occur in it.

Main statements: a connection begins in the handshake (`Session.greets_start`), and every event
leads from one of these to another (`Session.Greets.step`, `Session.greets_trace`).
-/

namespace Socks

open Handshake

namespace Session

variable {service : Service} {c : Connection} {out : Surroundings} {s : Session}
  {control : Stream} {events : List Event}

/-- A session on a control stream some time after it began, when only a handshake has gone on: it
has left some bytes unread and has said something. -/
def greeted (control : Stream) (ending : Ending) (clock : Nat) (rest said : Bytes) (phase : Phase) :
    Session :=
  { fresh { control with incoming := rest, ending := ending, written := control.written ++ said }
      phase with
    clock := clock }

/-- All the bytes of the client, those included that were there at the beginning. -/
def sentBy (control : Stream) (events : List Event) : Bytes := control.incoming ++ heard events

@[simp] theorem sentBy_append (control : Stream) (a b : List Event) :
    sentBy control (a ++ b) = sentBy control a ++ heard b := by
  simp [sentBy, List.append_assoc]

/-- Why and when a handshake ends in a failure, with what has been said: the dialogue fails, the
client ends or breaks off, the time is over, or something cannot be said whole. -/
inductive TurnsAway (service : Service) (control : Stream) (events : List Event) (f : Failure)
    (said : Bytes) : Prop
  | failed {rest : Bytes} :
      (greet service.authenticator).advance (sentBy control events) =
        ⟨.finished (.error f), rest, said⟩ →
        TurnsAway service control events f said
  | ended {field : Field} {n : Nat} {next : Block n → Dialogue Request} {e : IoError} :
      (greet service.authenticator).advance (sentBy control events) =
        ⟨.listening field n next, [], said⟩ →
      endingAfter control.ending events ≠ .awaited → f = .transport e →
        TurnsAway service control events f said
  | slow {field : Field} {n : Nat} {next : Block n → Dialogue Request} :
      (greet service.authenticator).advance (sentBy control events) =
        ⟨.listening field n next, [], said⟩ →
      service.requestLimit.toNat * 1000 ≤ elapsed events →
      f = tooSlow service.requestLimit →
        TurnsAway service control events f said
  | cut :
      said <+: ((greet service.authenticator).advance (sentBy control events)).said →
      said ≠ ((greet service.authenticator).advance (sentBy control events)).said →
      ¬(control.wrote said).Takes 1 →
        TurnsAway service control events f said

/-- What a session has come to, some events after its connection was made. -/
inductive Greets (service : Service) (c : Connection) (control : Stream) (events : List Event)
    (s : Session) : Prop
  | listening {field : Field} {n : Nat} {next : Block n → Dialogue Request} {said : Bytes} :
      (greet service.authenticator).advance (sentBy control events) =
        ⟨.listening field n next, [], said⟩ →
      endingAfter control.ending events = .awaited →
      elapsed events < service.requestLimit.toNat * 1000 →
      s = greeted control .awaited (elapsed events) [] said
        (.handshake (.read field n next) (Clock.deadline 0 service.requestLimit)) →
        Greets service c control events s
  | turned {before after : List Event} {f : Failure} {ending : Ending} {rest said : Bytes} :
      events = before ++ after → TurnsAway service control before f said →
      s = (greeted control ending (elapsed before) rest said (.over (.error f))).passed after →
        Greets service c control events s
  | past {before after : List Event} {r : Request} {rest said : Bytes} {phase : Phase} :
      events = before ++ after →
      (greet service.authenticator).advance (sentBy control before) =
        ⟨.finished (.ok r), rest, said⟩ →
      Stands service.rules (planFor service c r)
        (greeted control (endingAfter control.ending before) (elapsed before) rest said phase) after
          s →
        Greets service c control events s

/-- A dialogue `d` that is left of the handshake: `unread` have not been heard by it, and `said` has
been said before it. -/
structure Remains (service : Service) (control : Stream) (events : List Event)
    (d : Dialogue Request) (unread said : Bytes) : Prop where
  candid : d.Candid Failure.Unanswered Failure.Answers
  advance : (greet service.authenticator).advance (sentBy control events) =
    ⟨(d.advance unread).progress, (d.advance unread).rest, said ++ (d.advance unread).said⟩

variable {d : Dialogue Request} {unread said : Bytes}

section settling

variable {deadline : Nat} {stream : Stream}

theorem settle_of_accepted {r : Request} (hp : s.phase = .handshake d deadline)
    (hr : d.resume s.control = (.finished (.ok r), stream)) :
    s.settle service c out =
      pursue out service.rules (planFor service c r) { s with control := stream } := by
  simp only [settle, hp, hr]

theorem settle_of_failed {f : Failure} (hp : s.phase = .handshake d deadline)
    (hr : d.resume s.control = (.finished (.error f), stream)) :
    s.settle service c out = { s with control := stream, phase := .over (.error f) } := by
  simp only [settle, hp, hr]
  rfl

theorem settle_of_late {field : Field} {n : Nat} {next : Block n → Dialogue Request}
    (hp : s.phase = .handshake d deadline)
    (hr : d.resume s.control = (.listening field n next, stream)) (h : deadline ≤ s.clock) :
    s.settle service c out =
      { s with control := stream, phase := .over (.error (tooSlow service.requestLimit)) } := by
  simp only [settle, hp, hr, if_pos h]
  rfl

theorem settle_of_listening {field : Field} {n : Nat} {next : Block n → Dialogue Request}
    (hp : s.phase = .handshake d deadline)
    (hr : d.resume s.control = (.listening field n next, stream)) (h : ¬deadline ≤ s.clock) :
    s.settle service c out =
      { s with control := stream, phase := .handshake (.read field n next) deadline } := by
  simp only [settle, hp, hr, if_neg h]

end settling

theorem resume_greeted {progress : Progress Request} {ending : Ending} {clock : Nat}
    {rest more : Bytes} {phase : Phase} (hd : d.advance unread = ⟨progress, rest, more⟩)
    (ht : (control.wrote said).Takes more.length) :
    d.resume (greeted control ending clock unread said phase).control =
      (progress.meet ending,
        (greeted control (progress.left ending) clock rest (said ++ more) phase).control) := by
  have h : d.advance (greeted control ending clock unread said phase).control.incoming =
      ⟨progress, rest, more⟩ := hd
  rw [Dialogue.resume_of_takes (by rw [h]; exact ht), h]
  simp [greeted, fresh]

theorem Remains.greets_of_takes (h : Remains service control events d unread said)
    (ht : (control.wrote said).Takes (d.advance unread).said.length) :
    Greets service c control events
      ((greeted control (endingAfter control.ending events) (elapsed events) unread said
        (.handshake d (Clock.deadline 0 service.requestLimit))).settle service c out) := by
  have hadvance := h.advance
  rcases hd : d.advance unread with ⟨progress, rest, more⟩
  rw [hd] at ht
  simp only [hd] at hadvance
  have hresume := @resume_greeted control d unread said progress
    (endingAfter control.ending events) (elapsed events) rest more
    (.handshake d (Clock.deadline 0 service.requestLimit)) hd ht
  cases progress with
  | finished r =>
      cases r with
      | ok r =>
          rw [settle_of_accepted rfl hresume]
          exact .past (List.append_nil events).symm hadvance
            (stands_pursue Plan.grounded_ofRequest (on_start ..))
      | error f =>
          rw [settle_of_failed rfl hresume]
          exact .turned (List.append_nil events).symm (.failed hadvance) (passed_nil _).symm
  | listening field n next =>
      obtain rfl := Dialogue.rest_of_listening hd
      cases he : endingAfter control.ending events with
      | awaited =>
          rw [he] at hresume
          have hdeadline : Clock.deadline 0 service.requestLimit =
            service.requestLimit.toNat * 1000 := Nat.zero_add _
          by_cases hlate : Clock.deadline 0 service.requestLimit ≤ elapsed events
          · rw [settle_of_late rfl hresume hlate]
            exact .turned (List.append_nil events).symm (.slow hadvance (hdeadline ▸ hlate) rfl)
              (passed_nil _).symm
          · rw [settle_of_listening rfl hresume hlate]
            exact .listening hadvance he (by omega) rfl
      | ended =>
          rw [he] at hresume
          rw [settle_of_failed rfl hresume]
          exact .turned (List.append_nil events).symm (.ended hadvance (by simp [he]) rfl)
            (passed_nil _).symm
      | broken e =>
          rw [he] at hresume
          rw [settle_of_failed rfl hresume]
          exact .turned (List.append_nil events).symm (.ended hadvance (by simp [he]) rfl)
            (passed_nil _).symm

theorem Remains.greets_of_not_takes (h : Remains service control events d unread said)
    (ht : ¬(control.wrote said).Takes (d.advance unread).said.length) :
    Greets service c control events
      ((greeted control (endingAfter control.ending events) (elapsed events) unread said
        (.handshake d (Clock.deadline 0 service.requestLimit))).settle service c out) := by
  obtain ⟨fault, f, rest, hf, -, hlt, hresume, -⟩ := Dialogue.resume_of_not_takes
    (s := (greeted control (endingAfter control.ending events) (elapsed events) unread said
      (.handshake d (Clock.deadline 0 service.requestLimit))).control) h.candid ht
  have hadvance := congrArg Pause.said h.advance
  have hroom : fault.after - (control.wrote said).written.length < (d.advance unread).said.length :=
    hlt
  generalize hpart : (d.advance unread).said.take
    (fault.after - (control.wrote said).written.length) = part
  have hfull : ¬(control.wrote (said ++ part)).Takes 1 := by
    rw [← Stream.wrote_wrote, ← hpart]
    exact Stream.not_takes_wrote hf hroom
  have hresume' : d.resume (greeted control (endingAfter control.ending events) (elapsed events)
      unread said (.handshake d (Clock.deadline 0 service.requestLimit))).control =
        (.finished (.error f), (greeted control (endingAfter control.ending events) (elapsed events)
          rest (said ++ part) (.over (.error f))).control) := by
    rw [hresume, ← hpart]
    simp [greeted, fresh, Stream.wrote]
  rw [settle_of_failed rfl hresume']
  refine .turned (List.append_nil events).symm (.cut ?_ ?_ hfull) (passed_nil _).symm
  · rw [hadvance, List.prefix_append_right_inj, ← hpart]
    exact List.take_prefix ..
  · rw [hadvance, ← hpart]
    intro he
    exact Stream.take_ne_self hroom (List.append_cancel_left he)

/-- In the handshake a session goes on to its end, to a missing byte of the client, or to a write
that fails. -/
theorem Remains.greets (h : Remains service control events d unread said) :
    Greets service c control events
      ((greeted control (endingAfter control.ending events) (elapsed events) unread said
        (.handshake d (Clock.deadline 0 service.requestLimit))).settle service c out) := by
  by_cases ht : (control.wrote said).Takes (d.advance unread).said.length
  · exact h.greets_of_takes ht
  · exact h.greets_of_not_takes ht

theorem remains_start (service : Service) (control : Stream) :
    Remains service control [] (greet service.authenticator) control.incoming [] :=
  ⟨candid_greet _, by simp [sentBy]⟩

theorem start_eq (service : Service) (c : Connection) (out : Surroundings) (control : Stream) :
    start service c out control =
      (greeted control (endingAfter control.ending []) (elapsed []) control.incoming []
        (.handshake (greet service.authenticator)
          (Clock.deadline 0 service.requestLimit))).settle service c out := by
  simp [start, greeted, fresh]

theorem greets_start (service : Service) (c : Connection) (out : Surroundings) (control : Stream) :
    Greets service c control [] (start service c out control) := by
  rw [start_eq]
  exact (remains_start service control).greets

section listening

variable {field : Field} {n : Nat} {next : Block n → Dialogue Request}

/-- A dialogue that listens remains, whatever happens next. -/
theorem remains_of_listening
    (hadvance : (greet service.authenticator).advance (sentBy control events) =
      ⟨.listening field n next, [], said⟩) (e : Event) :
    Remains service control (events ++ [e]) (.read field n next) e.bytes said := by
  constructor
  · exact (candid_greet service.authenticator).of_listening (congrArg Pause.progress hadvance)
  · have happend := Dialogue.advance_append (greet service.authenticator)
      (sentBy control events) e.bytes
    simpa [hadvance, Progress.dialogue] using happend

theorem step_of_listening (he : endingAfter control.ending events = .awaited)
    (hs : s = greeted control .awaited (elapsed events) [] said
      (.handshake (.read field n next) (Clock.deadline 0 service.requestLimit))) (e : Event) :
    s.step service c out e =
      (greeted control (endingAfter control.ending (events ++ [e])) (elapsed (events ++ [e]))
        e.bytes said (.handshake (.read field n next)
          (Clock.deadline 0 service.requestLimit))).settle service c out := by
  have hp : s.phase = .handshake (.read field n next)
      (Clock.deadline 0 service.requestLimit) := by rw [hs]; rfl
  have hpassed : s.passed [e] =
      greeted control (endingAfter control.ending (events ++ [e])) (elapsed (events ++ [e]))
        e.bytes said (.handshake (.read field n next)
          (Clock.deadline 0 service.requestLimit)) := by
    rw [hs]
    simp [passed, greeted, fresh, he]
  rw [Session.step, take_of_handshake hp, hpassed]

end listening

/-- Every event leads from one of the things that a session can have come to, to another. -/
theorem Greets.step (h : Greets service c control events s) (e : Event) :
    Greets service c control (events ++ [e]) (s.step service c out e) := by
  cases h with
  | listening hadvance he hclock hs =>
      rw [step_of_listening he hs]
      exact (remains_of_listening hadvance e).greets
  | turned he hcause hs =>
      have hpassed := congrArg (fun s => s.passed [e]) hs
      simp only [passed_passed] at hpassed
      rw [step_of_over (by rw [hs]; rfl)]
      exact .turned (by rw [he, List.append_assoc]) hcause hpassed
  | past he hadvance hstands =>
      exact .past (by rw [he, List.append_assoc]) hadvance
        (hstands.step Plan.grounded_ofRequest e)

theorem Greets.trace (h : Greets service c control events s) (more : List Event) :
    Greets service c control (events ++ more) (s.trace service c out more) :=
  trace_keeps (Q := Greets service c control) (fun _ _ e h => h.step e) h more

/-- What a session has come to, whatever has happened since its connection was made. -/
theorem greets_trace (service : Service) (c : Connection) (out : Surroundings) (control : Stream)
    (events : List Event) :
    Greets service c control events ((start service c out control).trace service c out events) :=
  (greets_start service c out control).trace events

/-! ### Streams that take every write -/

/-- No write to the client has failed: the session has come to what it would have come to on a
stream that takes every write. -/
def Unfailing (service : Service) (c : Connection) (out : Surroundings) (control : Stream)
    (events : List Event) : Prop :=
  let s := (start service c out control).trace service c out events
  (start service c out control.sound).trace service c out events =
    { s with control := s.control.sound }

theorem Greets.fault (h : Greets service c control events s) :
    s.control.fault? = control.fault? := by
  cases h with
  | listening hadvance he hclock hs => rw [hs]; rfl
  | turned he hcause hs => rw [hs]; rfl
  | past he hadvance hstands => exact hstands.fault

theorem unfailing_of_faultless (service : Service) (c : Connection) (out : Surroundings)
    (events : List Event) (h : control.fault? = none) :
    Unfailing service c out control events := by
  have hs := (greets_trace service c out control events).fault.trans h
  simp only [Unfailing, Stream.sound_of_faultless h, Stream.sound_of_faultless hs]

/-! ### What a session shows, from its first byte -/

/-- What a client sends can be taken for an accepted handshake in one way at most. -/
theorem accepts_unique {a : Authenticator} {r r' : Request} {hello hello' said said' p p' : Bytes}
    (h : Accepts a r hello said) (h' : Accepts a r' hello' said') (he : hello ++ p = hello' ++ p') :
    r = r' ∧ said = said' ∧ p = p' := by
  have hadvance := (reaches_greet_iff.mpr h).advance_eq p
  rw [he, (reaches_greet_iff.mpr h').advance_eq p'] at hadvance
  cases hadvance
  exact ⟨rfl, rfl, rfl⟩

/-- A session has called nobody yet, or it carries out the plan of a request that its client has
spelled and shown to be allowed to make. -/
theorem Greets.calls_or_stands (h : Greets service c control events s) :
    (s.calls = [] ∧ s.far? = none) ∨
      ∃ before after r hello rest said phase, events = before ++ after ∧
        Accepts service.authenticator r hello said ∧ sentBy control before = hello ++ rest ∧
        Stands service.rules (planFor service c r)
          (greeted control (endingAfter control.ending before) (elapsed before) rest said phase)
            after s := by
  cases h with
  | listening hadvance he hclock hs => exact .inl (by rw [hs]; exact ⟨rfl, rfl⟩)
  | turned he hcause hs => exact .inl (by rw [hs]; exact ⟨rfl, rfl⟩)
  | @past before after r rest said phase he hadvance hstands =>
      obtain ⟨hello, hsent, hr⟩ := Dialogue.advance_eq_finished_iff.mp hadvance
      exact .inr ⟨before, after, r, hello, rest, said, phase, he, reaches_greet_iff.mp hr, hsent,
        hstands⟩

/-- A client is not turned away that sends an accepted handshake in time, if what has to be said to
it can be written. -/
theorem TurnsAway.not_accepted {before after : List Event} {f : Failure} {r : Request}
    {rest said' : Bytes} (h : TurnsAway service control before f said')
    (hadvance : (greet service.authenticator).advance (sentBy control (before ++ after)) =
      ⟨.finished (.ok r), rest, said⟩)
    (ho : Orderly control.ending (before ++ after))
    (hclock : elapsed (before ++ after) < service.requestLimit.toNat * 1000)
    (ht : control.Takes said.length) : False := by
  rw [sentBy_append] at hadvance
  cases h with
  | failed hfailed =>
      rw [Dialogue.advance_append_of_finished hfailed] at hadvance
      cases hadvance
  | ended hlistening hne _ =>
      rw [ho before after rfl hne, List.append_nil, hlistening] at hadvance
      cases hadvance
  | slow _ hlate _ =>
      rw [elapsed_append] at hclock
      omega
  | cut hfirst hne hfull =>
      have hsaid := Dialogue.said_advance_prefix (greet service.authenticator)
        (sentBy control before) (heard after)
      rw [hadvance] at hsaid
      have hlt : said'.length < said.length := by
        refine Nat.lt_of_lt_of_le ?_ hsaid.length_le
        exact Nat.lt_of_le_of_ne hfirst.length_le fun he => hne (hfirst.eq_of_length he)
      refine hfull fun fault hf => ?_
      have hroom := ht fault hf
      simp only [Stream.wrote, List.length_append]
      omega

/-- A client that sends an accepted handshake in time comes to its request, if what has to be said
to it can be written. -/
theorem Greets.stands_of_accepts {r : Request} {hello p : Bytes}
    (h : Greets service c control events s) (ha : Accepts service.authenticator r hello said)
    (hsent : sentBy control events = hello ++ p) (ho : Orderly control.ending events)
    (hclock : elapsed events < service.requestLimit.toNat * 1000)
    (ht : control.Takes said.length) :
    ∃ before after rest phase, Stands service.rules (planFor service c r)
      (greeted control (endingAfter control.ending before) (elapsed before) rest said phase) after
        s := by
  have hadvance := (reaches_greet_iff.mpr ha).advance_eq p
  rw [← hsent] at hadvance
  cases h with
  | listening hlistening he hclock' hs =>
      rw [hlistening] at hadvance
      cases hadvance
  | turned he hcause hs =>
      rw [he] at hadvance ho hclock
      exact (hcause.not_accepted hadvance ho hclock ht).elim
  | @past before after r' rest said' phase he hfinished hstands =>
      rw [he, sentBy_append, Dialogue.advance_append_of_finished hfinished] at hadvance
      cases hadvance
      exact ⟨before, after, rest, phase, hstands⟩

end Session

end Socks
