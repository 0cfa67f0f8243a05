import Socks.Proofs.Dialogue.Resumption
import Socks.Proofs.Session.Entrance

/-!
# Sessions and the handshake on all that has been heard

A session goes on with its handshake piece by piece. `Session.handshake` is what the handshake comes
to on all that has happened to the control stream at once, and `Session.Handshakes` tells by it what
has become of the session, on streams that fail too: the handshake goes on, it was too slow, it
failed, or it came to a request.

Main statement: `Session.handshakes_trace`.
-/

namespace Socks

open Handshake

/-- What happens to a control stream is that bytes follow. -/
theorem Stream.passed_eq_followed (s : Stream) (events : List Event) :
    s.passed events = s.followed (heard events) (endingAfter s.ending events) := rfl

namespace Session

variable {service : Service} {c : Connection} {out : Surroundings} {control stream : Stream}
  {events before after : List Event} {s : Session} {field : Field} {n : Nat}
  {next : Block n → Dialogue Request}

/-- What the handshake comes to on a control stream after some events, and what it leaves of the
stream. -/
def handshake (service : Service) (control : Stream) (events : List Event) :
    Progress Request × Stream :=
  (greet service.authenticator).resume (control.passed events)

theorem handshake_append (he : endingAfter control.ending before = .awaited)
    (after : List Event) :
    handshake service control (before ++ after) =
      (handshake service control before).1.dialogue.resume
        ((handshake service control before).2.passed after) := by
  have hawaited : (control.passed before).ending = .awaited := he
  have hending : (handshake service control before).2.ending = .awaited :=
    (greet service.authenticator).resume_of_awaited hawaited
  rw [handshake, ← Stream.passed_passed, Stream.passed_eq_followed, hawaited,
    Dialogue.resume_followed _ hawaited, ← handshake, Stream.passed_eq_followed, hending]

theorem ending_of_handshake (h : handshake service control events =
    (.listening field n next, stream)) : endingAfter control.ending events = .awaited :=
  Dialogue.ending_of_listening h

theorem handshake_of_finished {result : Except Failure Request}
    (he : endingAfter control.ending before = .awaited)
    (h : handshake service control before = (.finished result, stream)) (after : List Event) :
    handshake service control (before ++ after) = (.finished result, stream.passed after) := by
  rw [handshake_append he, h]
  rfl

theorem not_listening_of_finished {result : Except Failure Request} {s' : Stream}
    (h : handshake service control before = (.finished result, s')) (after : List Event) :
    handshake service control (before ++ after) ≠ (.listening field n next, stream) := by
  intro hlistening
  have he := ending_of_handshake hlistening
  have hawaited : endingAfter control.ending before = .awaited := by
    by_contra hne
    rw [endingAfter_append] at he
    exact endingAfter_ne_awaited hne after he
  rw [handshake_of_finished hawaited h] at hlistening
  cases hlistening

/-- What has become of a session, some events after its connection was made. -/
inductive Handshakes (service : Service) (c : Connection) (out : Surroundings) (control : Stream)
    (events : List Event) (s : Session) : Prop
  | listening {field : Field} {n : Nat} {next : Block n → Dialogue Request} {stream : Stream} :
      handshake service control events = (.listening field n next, stream) →
      elapsed events < service.requestLimit.toNat * 1000 →
      s = { fresh stream (.handshake (.read field n next)
        (Clock.deadline 0 service.requestLimit)) with clock := elapsed events } →
        Handshakes service c out control events s
  | late {before after : List Event} {field : Field} {n : Nat} {next : Block n → Dialogue Request}
      {stream : Stream} :
      events = before ++ after →
      handshake service control before = (.listening field n next, stream) →
      service.requestLimit.toNat * 1000 ≤ elapsed before →
      s = { fresh stream (.over (.error (tooSlow service.requestLimit))) with
        clock := elapsed before }.passed after →
        Handshakes service c out control events s
  | failed {before after : List Event} {f : Failure} {stream : Stream} :
      events = before ++ after →
      handshake service control before = (.finished (.error f), stream) →
      s = { fresh stream (.over (.error f)) with clock := elapsed before }.passed after →
        Handshakes service c out control events s
  | past {before after : List Event} {r : Request} {stream : Stream} {phase : Phase} :
      events = before ++ after →
      handshake service control before = (.finished (.ok r), stream) →
      s = (pursue out service.rules (planFor service c r)
        { fresh stream phase with clock := elapsed before }).trace service c out after →
        Handshakes service c out control events s

/-- To go on with the handshake is to come to what it comes to on everything heard. -/
theorem handshakes_settle {d : Dialogue Request}
    (h : d.resume stream = handshake service control events) :
    Handshakes service c out control events
      ({ fresh stream (.handshake d (Clock.deadline 0 service.requestLimit)) with
        clock := elapsed events }.settle service c out) := by
  have hall : events = events ++ [] := (List.append_nil events).symm
  have hdeadline : Clock.deadline 0 service.requestLimit =
    service.requestLimit.toNat * 1000 := Nat.zero_add _
  rcases hresume : d.resume stream with ⟨progress, stream'⟩
  have hheard := h.symm.trans hresume
  cases progress with
  | finished result =>
      cases result with
      | ok r =>
          rw [settle_of_accepted rfl hresume]
          exact .past hall hheard rfl
      | error f =>
          rw [settle_of_failed rfl hresume]
          exact .failed hall hheard (passed_nil _).symm
  | listening field n next =>
      by_cases hlate : Clock.deadline 0 service.requestLimit ≤ elapsed events
      · rw [settle_of_late rfl hresume hlate]
        exact .late hall hheard (hdeadline ▸ hlate) (passed_nil _).symm
      · rw [settle_of_listening rfl hresume hlate]
        exact .listening hheard (by omega) rfl

theorem handshakes_start (service : Service) (c : Connection) (out : Surroundings)
    (control : Stream) : Handshakes service c out control [] (start service c out control) := by
  have hnothing : control.passed [] = control := Stream.followed_nil control
  refine handshakes_settle (d := greet service.authenticator) ?_
  rw [handshake, hnothing]

theorem Handshakes.step (h : Handshakes service c out control events s) (e : Event) :
    Handshakes service c out control (events ++ [e]) (s.step service c out e) := by
  cases h with
  | @listening field n next stream hheard hclock hs =>
      have hpassed : s.passed [e] =
          { fresh (stream.passed [e]) (.handshake (.read field n next)
            (Clock.deadline 0 service.requestLimit)) with clock := elapsed (events ++ [e]) } := by
        rw [hs, elapsed_append]
        rfl
      rw [Session.step, take_of_handshake (by rw [hs]; rfl), hpassed]
      refine handshakes_settle ?_
      rw [handshake_append (ending_of_handshake hheard), hheard]
      rfl
  | @late before after field n next stream he hheard hclock hs =>
      subst he
      refine .late (List.append_assoc before after [e]) hheard hclock ?_
      rw [step_of_over (by rw [hs]; rfl), hs, passed_passed]
  | @failed before after f stream he hheard hs =>
      subst he
      refine .failed (List.append_assoc before after [e]) hheard ?_
      rw [step_of_over (by rw [hs]; rfl), hs, passed_passed]
  | @past before after r stream phase he hheard hs =>
      subst he
      refine .past (List.append_assoc before after [e]) hheard (?_ : _ = trace service c out
        (pursue out service.rules (planFor service c r)
          { fresh stream phase with clock := elapsed before }) (after ++ [e]))
      rw [hs, trace_snoc]

/-- What has become of a session is told by its handshake on all that has been heard. -/
theorem handshakes_trace (service : Service) (c : Connection) (out : Surroundings)
    (control : Stream) (events : List Event) :
    Handshakes service c out control events
      ((start service c out control).trace service c out events) :=
  trace_keeps (Q := Handshakes service c out control) (fun _ _ e h => h.step e)
    (handshakes_start service c out control) events

end Session

end Socks
