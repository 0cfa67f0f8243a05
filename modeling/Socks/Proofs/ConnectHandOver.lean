import Socks.Proofs.Session.Greeting

/-!
# The hand-over of CONNECT

A client may send bytes for the far side before it has been told that the far side is there, even in
one piece with its handshake. None of them is taken for a part of the handshake, and no octet of the
handshake is passed on.

Main statement: `Session.connect_hands_over`, for the bytes that have reached the far side at any
moment, at the end, and in any order of the steps of a relay.
-/

namespace Socks

/-! ### The reply that grants a command -/

namespace Reply

theorem bytes_ne_nil (m : Reply) : m.bytes ≠ [] := by
  obtain ⟨version, status, bound?⟩ := m
  cases version <;> simp [bytes, opening]

/-- A reply that grants a command cannot be taken for one that does not. -/
theorem not_granted_prefix_bare {version version' : Version} {bound : Endpoint} {status : Status}
    (h : status ≠ .success) :
    ¬(granted version bound).bytes <+: (bare version' status).bytes := by
  intro hp
  cases version <;> cases version' <;>
    simp only [bytes, opening, granted, bare, List.cons_append, List.nil_append,
      List.cons_prefix_cons] at hp
  · cases status <;> simp_all [Status.grantCode]
  · exact absurd hp.1 (by decide)
  · exact absurd hp.1 (by decide)
  · cases status <;> simp_all [Status.code]

end Reply

namespace Session

open Handshake

variable {service : Service} {c : Connection} {out : Surroundings} {control : Stream}
  {rules : Rules} {s₀ s : Session} {events : List Event} {r : Request} {hello said p : Bytes}
  {limit : UInt64} {here? : Option IpAddress} {bound : Endpoint}

/-! ### What has reached the far side -/

theorem Greets.forth {more : Bytes} (h : Greets service c control events s)
    (ha : Accepts service.authenticator r hello said)
    (hsent : sentBy control events ++ more = hello ++ p) :
    ∀ far, s.far? = some far → far.written <+: p := by
  intro far hfar
  cases h with
  | listening hadvance he hclock hs => rw [hs] at hfar; cases hfar
  | turned he hcause hs => rw [hs] at hfar; cases hfar
  | @past before after r' rest said' phase he hadvance hstands =>
      obtain ⟨hello', hsent', hr⟩ := Dialogue.advance_eq_finished_iff.mp hadvance
      rw [he, sentBy_append, hsent', List.append_assoc, List.append_assoc] at hsent
      obtain ⟨-, -, rfl⟩ := accepts_unique (reaches_greet_iff.mp hr) ha hsent
      rw [← List.append_assoc]
      exact (hstands.forth rfl far hfar).trans (List.prefix_append ..)

/-! ### What has reached the far side in the end -/

theorem Stands.whole (h : Stands rules (.ofRequest limit here? r) s₀ events s)
    (hcommand : r.command = .connect) (hf : s₀.control.fault? = none)
    (ho : Orderly s₀.control.ending events) (hfar : ∀ e ∈ events, ¬e.EndsFar)
    (hgranted : s₀.control.written ++ (Reply.granted r.version bound).bytes <+:
      s.control.written) :
    ∃ far, s.far? = some far ∧ far.written = s₀.control.incoming ++ heard events := by
  cases h with
  | @waits cs ms met q phase hc ha hs =>
      -- A plan that waits has not been granted: it would have gone on to the relay.
      rw [hs] at hgranted
      have hwritten : (Reply.granted r.version bound).bytes <+: ms.flatMap Reply.bytes :=
        (List.prefix_append_right_inj _).mp hgranted
      rcases hc.decided_ofRequest hcommand with rfl | ⟨status, f, hne, rfl, -⟩ | ⟨here, -, rfl⟩
      · exact absurd (List.prefix_nil.mp hwritten) (Reply.bytes_ne_nil _)
      · rw [List.flatMap_singleton] at hwritten
        exact absurd hwritten (Reply.not_granted_prefix_bare hne)
      · cases ha
  | cut hc hp hne ht hs =>
      refine absurd (Stream.takes_of_faultless ?_ 1) ht
      rw [hs]
      exact hf
  | @relays before after cs ms phase he hc hr =>
      rw [he] at ho hfar
      obtain ⟨far, hthere, hall⟩ := hr.whole hf ho.after
        fun e hmem => hfar e (List.mem_append_right _ hmem)
      refine ⟨far, hthere, ?_⟩
      rw [hall, he, heard_append, ← List.append_assoc]
      rfl
  | associates he hc ha =>
      rcases hc.decided_ofRequest hcommand with rfl | ⟨_, _, _, _, hq⟩ | ⟨_, _, hq⟩
      · obtain ⟨bound, hlast⟩ := hc.announced Plan.announced_ofRequest
        cases hlast
      · cases hq
      · cases hq

theorem TurnsAway.said_first {f : Failure} (h : TurnsAway service control events f said) :
    said <+: ((greet service.authenticator).advance (sentBy control events)).said := by
  cases h with
  | failed hadvance | ended hadvance | slow hadvance =>
      exact ⟨[], by rw [List.append_nil, hadvance]⟩
  | cut hsaid => exact hsaid

theorem Greets.whole (h : Greets service c control events s)
    (ha : Accepts service.authenticator r hello said) (hsent : sentBy control events = hello ++ p)
    (hcommand : r.command = .connect) (hf : control.fault? = none)
    (ho : Orderly control.ending events) (hfar : ∀ e ∈ events, ¬e.EndsFar)
    (hgranted : control.written ++ said ++ (Reply.granted r.version bound).bytes <+:
      s.control.written) :
    ∃ far, s.far? = some far ∧ far.written = p := by
  have hadvance := (reaches_greet_iff.mpr ha).advance_eq p
  rw [← hsent] at hadvance
  -- Nothing that is said in the handshake alone is long enough to grant the request.
  have hshort : ∀ said', said' <+: said → s.control.written ≠ control.written ++ said' := by
    intro said' hfirst hw
    rw [hw, List.append_assoc, List.prefix_append_right_inj] at hgranted
    have h₁ := hgranted.length_le
    have h₂ := hfirst.length_le
    have h₃ := List.length_pos_iff.mpr (Reply.bytes_ne_nil (Reply.granted r.version bound))
    rw [List.length_append] at h₁
    omega
  cases h with
  | listening hlistening he hclock hs =>
      rw [hadvance] at hlistening
      cases hlistening
  | @turned before after f ending rest said' he hcause hs =>
      refine absurd (by rw [hs]; rfl) (hshort said' ?_)
      have hfirst := Dialogue.said_advance_prefix (greet service.authenticator)
        (sentBy control before) (heard after)
      rw [← sentBy_append, ← he, hadvance] at hfirst
      exact hcause.said_first.trans hfirst
  | @past before after r' rest said' phase he hfinished hstands =>
      obtain ⟨hello', hsent', hr⟩ := Dialogue.advance_eq_finished_iff.mp hfinished
      rw [he, sentBy_append, hsent', List.append_assoc] at hsent
      obtain ⟨rfl, rfl, rfl⟩ := accepts_unique (reaches_greet_iff.mp hr) ha hsent
      rw [he] at ho hfar
      exact hstands.whole hcommand hf ho.after
        (fun e hmem => hfar e (List.mem_append_right _ hmem)) hgranted

/-! ### The hand-over as a whole -/

/-- In whatever order a relay takes its steps, it passes on what was unread and what arrives, from
the first byte on, and all of it if the client ends it. -/
theorem relay_passes_on {stream : Stream} {sent : Side → Bytes} {relay : Relay}
    (h : (Relay.start stream .idle).Reaches sent relay) :
    relay.right.written <+: stream.incoming ++ sent .left ∧
      (stream.fault? = none → relay.result? ≠ none → relay.right.ending = .awaited →
        relay.right.written = stream.incoming ++ sent .left) := by
  have hflow : (Relay.start stream .idle).flow .left = stream.incoming := rfl
  constructor
  · rw [← hflow, ← h.flow .left, Relay.flow, List.append_assoc]
    exact List.prefix_append ..
  · intro hf hover hending
    rw [← hflow]
    refine @Relay.Reaches.whole_of_over _ _ _ h rfl (fun side => ?_) hover .left hending
    cases side with
    | left => exact hf
    | right => rfl

/-- Of what a client sends after its handshake, the far side of its CONNECT has received a first
part at any moment, and everything in the end: when the client has been told that it is connected,
no write to it has failed, and the far side has neither ended nor failed. A relay keeps to this in
any order of its steps. -/
theorem connect_hands_over (service : Service) (c : Connection) (out : Surroundings)
    (control : Stream) (events : List Event) (ha : Accepts service.authenticator r hello said)
    (hsent : sentBy control events = hello ++ p) :
    (∀ before after, events = before ++ after → ∀ far,
      ((start service c out control).trace service c out before).far? = some far →
        far.written <+: p) ∧
    (let s := (start service c out control).trace service c out events
     r.command = .connect → Unfailing service c out control events →
      Orderly control.ending events → (∀ e ∈ events, ¬e.EndsFar) →
      (∃ bound, control.written ++ said ++ (Reply.granted r.version bound).bytes <+:
        s.control.written) →
        ∃ far, s.far? = some far ∧ far.written = p) ∧
    ∀ (stream : Stream) (sent : Side → Bytes) (relay : Relay),
      (Relay.start stream .idle).Reaches sent relay → stream.incoming ++ sent .left = p →
        relay.right.written <+: p ∧
          (stream.fault? = none → relay.result? ≠ none → relay.right.ending = .awaited →
            relay.right.written = p) := by
  refine ⟨fun before after he => ?_, ?_, ?_⟩
  · have hall : sentBy control before ++ heard after = hello ++ p := by
      rw [← sentBy_append, ← he, hsent]
    exact (greets_trace service c out control before).forth ha hall
  · intro s hcommand hu ho hfar hgranted
    obtain ⟨bound, hgranted⟩ := hgranted
    have hg := greets_trace service c out control.sound events
    rw [hu] at hg
    obtain ⟨far, hthere, hall⟩ := hg.whole ha hsent hcommand rfl ho hfar hgranted
    exact ⟨far, hthere, hall⟩
  · rintro stream sent relay h rfl
    exact relay_passes_on h

def reachable : Surroundings :=
  { Surroundings.silent with dial := fun _ => some (.ok (.ok ⟨.anyV4, 9⟩)) }

theorem accepts_anonymous_connect (octets : Block 4) (port : UInt16) :
    Accepts .anyone ⟨.v5, .connect, .literal (.v4 octets) port, .anonymous, none⟩
      (5 :: 1 :: 0 :: 5 :: 1 :: 0 :: 1 :: (octets.bytes ++ (Block.ofWord port).bytes)) [5, 0] :=
  .v5 (@Authentication.Settles.anonymous .anyone [0] (by decide) (by decide) (by decide))
    (.mk .connect (.v4 octets port))

/-- Two bytes that come in one piece with the handshake are passed on, before one that comes
later. -/
theorem connect_hands_over_early_bytes :
    let service : Service := ⟨.anyone, fun _ => true, 10, 60⟩
    let events : List Event :=
      [.clientSends [5, 1, 0, 5, 1, 0, 1, 127, 0, 0, 1, 0, 80, 104, 105], .farSends [111],
        .clientSends [33], .clientEnds]
    let s := (start service ⟨none, none⟩ reachable .idle).trace service ⟨none, none⟩ reachable
      events
    ∃ far, s.far? = some far ∧ far.written = [104, 105, 33] := by
  intro service events s
  have h := connect_hands_over (p := [104, 105, 33]) service ⟨none, none⟩ reachable .idle events
    (accepts_anonymous_connect (IpAddress.quad 127 0 0 1) 80) rfl
  refine h.2.1 rfl (unfailing_of_faultless _ _ _ _ rfl) ?_ ?_ ⟨⟨.anyV4, 9⟩, ?_⟩
  · exact orderly_cons (by decide) (orderly_cons (by decide) (orderly_cons (by decide)
      (orderly_cons (by decide) (orderly_nil _))))
  · simp [events, Event.EndsFar]
  · decide +kernel

/-- A write to the client that fails ends the relay, although the far side goes on: what the client
sends from then on is lost, although it has been told that it is connected. -/
theorem connect_not_whole_after_failed_write :
    let service : Service := ⟨.anyone, fun _ => true, 10, 60⟩
    let control : Stream := { Stream.idle with fault? := some ⟨12, .connectionReset⟩ }
    let events : List Event :=
      [.clientSends [5, 1, 0, 5, 1, 0, 1, 127, 0, 0, 1, 0, 80], .farSends [111],
        .clientSends [104, 105], .clientEnds]
    let s := (start service ⟨none, none⟩ reachable control).trace service ⟨none, none⟩ reachable
      events
    ∃ r hello said, Accepts service.authenticator r hello said ∧ r.command = .connect ∧
      sentBy control events = hello ++ [104, 105] ∧ Orderly control.ending events ∧
      (∀ e ∈ events, ¬e.EndsFar) ∧
      control.written ++ said ++ (Reply.granted r.version ⟨.anyV4, 9⟩).bytes <+:
        s.control.written ∧
      s.far?.map Stream.written = some [] := by
  intro service control events s
  have haccepts := accepts_anonymous_connect (IpAddress.quad 127 0 0 1) 80
  refine ⟨_, _, _, haccepts, rfl, rfl, ?_, ?_, ?_, ?_⟩
  · exact orderly_cons (by decide) (orderly_cons (by decide) (orderly_cons (by decide)
      (orderly_cons (by decide) (orderly_nil _))))
  · simp [events, Event.EndsFar]
  · decide +kernel
  · decide +kernel

end Session

end Socks
