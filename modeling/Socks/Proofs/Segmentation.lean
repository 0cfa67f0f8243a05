import Socks.Proofs.Session.Handshaking

/-!
# Segmentation does not matter

However the bytes of a client are cut into pieces, and however many of them are read or written at
once, the handshake comes to the same result, leaves the same bytes unread and says the same.

Main statement: `Handshake.independent_of_segmentation`.
-/

namespace Socks

open Handshake

namespace Delivery

/-- The events with which a client sends the pieces, one after the other and without delay. -/
def events (v : Delivery) : List Event := v.pieces.map Event.clientSends

variable (v : Delivery)

theorem heard_events : heard v.events = v.bytes := by
  rw [heard, events, List.flatMap_map]
  exact List.flatMap_id'

theorem endingAfter_sends (ending : Ending) (pieces : List Bytes) :
    endingAfter ending (pieces.map Event.clientSends) = ending := by
  induction pieces with
  | nil => rfl
  | cons piece pieces ih => exact ih

theorem elapsed_sends (pieces : List Bytes) : elapsed (pieces.map Event.clientSends) = 0 := by
  induction pieces with
  | nil => rfl
  | cons piece pieces ih => simpa [elapsed, Event.delay] using ih

/-- No time passes in a delivery, and the client goes on. -/
theorem prefix_of_events {before after : List Event} (h : v.events = before ++ after) :
    elapsed before = 0 ∧ ∀ ending, endingAfter ending before = ending := by
  obtain ⟨first, last, -, rfl, rfl⟩ := List.map_eq_append_iff.mp h
  exact ⟨elapsed_sends first, fun ending => endingAfter_sends ending first⟩

end Delivery

namespace Session

variable {service : Service} {c : Connection} {out : Surroundings} {s : Session}
  {x : Progress Request × Stream}

/-- A session has come as far as a handshake: it listens, it has failed, or it has put the request
to the rules. -/
inductive CameTo (service : Service) (c : Connection) : Progress Request × Stream → Session → Prop
  | listening {field : Field} {n : Nat} {next : Block n → Dialogue Request} {stream : Stream} :
      CameTo service c (.listening field n next, stream)
        (fresh stream (.handshake (.read field n next) (Clock.deadline 0 service.requestLimit)))
  | failed {f : Failure} {stream : Stream} :
      CameTo service c (.finished (.error f), stream) (fresh stream (.over (.error f)))
  | accepted {r : Request} {stream : Stream} {s : Session} :
      s.calls.head? = some (.rules { r with client? := c.client? }
        (service.rules { r with client? := c.client? })) →
        CameTo service c (.finished (.ok r), stream) s

/-- What a session hears piece by piece without delay is what its handshake hears at once. -/
theorem handshake_events (v : Delivery) (fault? : Option WriteFault) :
    handshake service (v.stream fault?) v.events =
      (greet service.authenticator).deliver v fault? .awaited := by
  have hchunks : (v.stream fault?).passed v.events =
      ({ Stream.idle with
        incoming := v.bytes
        ending := .awaited
        fault? := fault? } : Stream).rechunked v.readChunk? v.writeChunk? := by
    rw [Stream.passed_eq_followed, v.heard_events, Delivery.events, Delivery.endingAfter_sends]
    rfl
  rw [Dialogue.deliver_eq, handshake, hchunks, Dialogue.resume_rechunked]

/-- A session comes as far as the handshake does. -/
theorem cameTo_of_delivery (v : Delivery) (fault? : Option WriteFault)
    (hlimit : service.requestLimit ≠ 0) :
    CameTo service c ((greet service.authenticator).deliver v fault? .awaited)
      ((start service c out (v.stream fault?)).trace service c out v.events) := by
  rw [← handshake_events]
  have hpos : service.requestLimit.toNat ≠ 0 := fun hz => hlimit (UInt64.toNat_inj.mp hz)
  have hawaited : ∀ {before after}, v.events = before ++ after →
      endingAfter (v.stream fault?).ending before = .awaited :=
    fun he => (v.prefix_of_events he).2 _
  cases handshakes_trace service c out (v.stream fault?) v.events with
  | listening hheard hclock hs =>
      rw [hheard, hs, Delivery.events, Delivery.elapsed_sends]
      exact .listening
  | late he hheard hclock hs =>
      have hnow := (v.prefix_of_events he).1
      omega
  | @failed before after f stream he hheard hs =>
      have hclock := (v.prefix_of_events he).1
      have hafter : elapsed after = 0 := by
        have hall : elapsed v.events = 0 := Delivery.elapsed_sends v.pieces
        rw [he, elapsed_append] at hall
        omega
      have hall := handshake_of_finished (hawaited he) hheard after
      have hpassed : { fresh stream (.over (.error f)) with clock := elapsed before }.passed after =
          fresh (stream.passed after) (.over (.error f)) := by
        simp [passed, fresh, hclock, hafter, Stream.passed]
      rw [hs, hpassed, he, hall]
      exact .failed
  | @past before after r stream phase he hheard hs =>
      have hall := handshake_of_finished (hawaited he) hheard after
      have hstands := @stands_trace service c out (planFor service c r) Plan.grounded_ofRequest
        { fresh stream phase with clock := elapsed before } after
      obtain ⟨more, hmore, -⟩ := hstands.calls_of_ofRequest rfl
      rw [← hs] at hmore
      rw [he, hall]
      rw [he] at hmore
      exact .accepted (by rw [hmore]; rfl)

end Session

namespace Handshake

/-- Segmentation does not matter. On two deliveries of the same bytes the handshake comes as far,
leaves the same bytes unread and says the same, whatever follows the bytes and however much of what
is said is taken; where the bytes end and all is taken, its result is what it means. A session that
hears a delivery comes as far as the handshake. -/
theorem independent_of_segmentation (service : Service) (c : Connection) (out : Surroundings)
    {v v' : Delivery} (h : v.bytes = v'.bytes) (fault? : Option WriteFault) :
    let d := greet service.authenticator
    (∀ ending, (d.deliver v fault? ending).1 = (d.deliver v' fault? ending).1 ∧
      (d.deliver v fault? ending).2.incoming = (d.deliver v' fault? ending).2.incoming ∧
      (d.deliver v fault? ending).2.written = (d.deliver v' fault? ending).2.written) ∧
    ((d.deliver v none .ended).1 = .finished (d.eval v.bytes).result ∧
      (d.deliver v none .ended).2.incoming = (d.eval v.bytes).rest ∧
      (d.deliver v none .ended).2.written = (d.eval v.bytes).said) ∧
    (service.requestLimit ≠ 0 → ∀ w ∈ [v, v'],
      Session.CameTo service c (d.deliver w fault? .awaited)
        ((Session.start service c out (w.stream fault?)).trace service c out w.events)) := by
  intro d
  refine ⟨fun ending => ?_, ?_, fun hlimit w _ => Session.cameTo_of_delivery w fault? hlimit⟩
  · rw [Dialogue.deliver_eq, Dialogue.deliver_eq, h]
    exact ⟨rfl, rfl, rfl⟩
  · have htakes := Dialogue.resume_of_takes (d := d)
      (s := { Stream.idle with incoming := v.bytes, ending := .ended, fault? := none })
      (Stream.takes_of_faultless rfl _)
    rw [Dialogue.deliver_eq, htakes, d.eval_eq_advance v.bytes]
    refine ⟨?_, rfl, rfl⟩
    dsimp only
    cases (d.advance v.bytes).progress <;> rfl

/-- A client that is heard byte by byte has its credentials checked, its request read and the bytes
after it left alone as if everything had come at once. -/
theorem independent_of_segmentation_byte_by_byte :
    let service : Service :=
      ⟨.credentials (fun name password => name = "u" && password = "p") true, fun _ => true, 10, 60⟩
    let sent : Bytes := [5, 1, 2, 1, 1, 117, 1, 112, 5, 1, 0, 1, 127, 0, 0, 1, 0, 80, 104, 105]
    let one : Chunk := ⟨1, by decide⟩
    let v : Delivery := ⟨some one, some one, sent.map fun b => [b]⟩
    let v' : Delivery := ⟨none, none, [sent]⟩
    let heard := (greet service.authenticator).deliver v none .awaited
    (v.bytes = v'.bytes ∧ service.requestLimit ≠ 0) ∧
      heard.2.incoming = [104, 105] ∧ heard.2.written = [5, 2, 1, 0] ∧
      Session.CameTo service ⟨none, none⟩ heard
        ((Session.start service ⟨none, none⟩ .silent (v.stream none)).trace service ⟨none, none⟩
          .silent v.events) := by
  intro service sent one v v' heard
  have hbytes : v.bytes = v'.bytes := by decide
  have hlimit : service.requestLimit ≠ 0 := by decide
  have hall := independent_of_segmentation service ⟨none, none⟩ .silent hbytes none
  have hwhole : ((greet service.authenticator).deliver v' none .awaited).2.incoming = [104, 105] ∧
      ((greet service.authenticator).deliver v' none .awaited).2.written = [5, 2, 1, 0] := by
    decide +kernel
  clear_value v v' service
  refine ⟨⟨hbytes, hlimit⟩, ?_, ?_, ?_⟩
  · exact (hall.1 .awaited).2.1.trans hwhole.1
  · exact (hall.1 .awaited).2.2.trans hwhole.2
  · exact hall.2.2 hlimit v List.mem_cons_self

end Handshake

end Socks
