import Socks.Proofs.ControlOutput
import Socks.Proofs.Session.Errors
import Socks.Proofs.Session.Handshaking

/-!
# The deadline of the handshake

A connection whose handshake is not over when its limit has passed ends at that moment, before
anybody was asked anything. Bytes that trickle in do not put the moment off, and once the handshake
is over no time that passes ends the connection in this way.

Main statement: `Session.handshake_deadline`.
-/

namespace Socks

open Handshake

/-- The error of a handshake that takes too long. -/
def Handshake.slowness (limit : UInt64) : IoError :=
  ⟨.timedOut, "SOCKS handshake not completed within " ++ Clock.secondsText limit⟩

theorem broken_of_endingAfter {ending : Ending} {events : List Event} {error : IoError}
    (h : endingAfter ending events = .broken error) :
    ending = .broken error ∨ .clientBreaks error ∈ events := by
  induction events generalizing ending with
  | nil => exact .inl h
  | cons e events ih =>
      rcases ih h with hone | hmem
      · cases e with
        | clientBreaks error' =>
            cases hone
            exact .inr List.mem_cons_self
        | clientEnds => cases hone
        | _ => exact .inl hone
      · exact .inr (List.mem_cons_of_mem e hmem)

namespace Session

variable {service : Service} {c : Connection} {out : Surroundings} {control stream : Stream}
  {events before after : List Event} {s : Session} {e : IoError}

/-- The handshake is not over on what has happened to the control stream. -/
def Unfinished (service : Service) (control : Stream) (events : List Event) : Prop :=
  ∃ field n next stream, handshake service control events = (.listening field n next, stream)

/-- Nothing outside fails with an error. -/
structure Spared (e : IoError) (out : Surroundings) (control : Stream) (events : List Event) :
    Prop where
  control : control.Spares e
  out : out.Spares e
  events : ∀ event ∈ events, event.error? ≠ some e

theorem Spared.left (h : Spared e out control (before ++ after)) : Spared e out control before :=
  ⟨h.control, h.out, fun event hmem => h.events event (List.mem_append_left after hmem)⟩

theorem Spared.right (h : Spared e out control (before ++ after)) :
    ∀ event ∈ after, event.error? ≠ some e :=
  fun event hmem => h.events event (List.mem_append_right before hmem)

theorem Spared.passed (h : Spared e out control events) : (control.passed events).Spares e := by
  refine ⟨h.control.fault, fun hbroken => ?_⟩
  rcases broken_of_endingAfter hbroken with hending | hmem
  · exact h.control.ending hending
  · exact h.events _ hmem rfl

theorem Unfinished.of_append (h : Unfinished service control (before ++ after)) :
    Unfinished service control before := by
  obtain ⟨field, n, next, stream, h⟩ := h
  rcases hbefore : handshake service control before with ⟨progress, stream'⟩
  cases progress with
  | listening field n next => exact ⟨field, n, next, stream', hbefore⟩
  | finished result => exact absurd h (not_listening_of_finished hbefore after)

theorem failure_ne_of_handshake {f : Failure} (hs : Spared e out control events)
    (hkind : e.kind ≠ .unexpectedEof)
    (h : handshake service control events = (.finished (.error f), stream)) : f ≠ .transport e := by
  rintro rfl
  rcases (candid_greet service.authenticator).cause h with hP | ⟨last, version, status, hL, -⟩ |
    ⟨field, hfield⟩ | ⟨e', he, hbroken | ⟨fault, hfault, rfl⟩⟩
  · exact hkind (hP.early e rfl)
  · cases hL
  · cases field <;> cases hfield <;> exact hkind rfl
  · cases he
    exact hs.passed.ending hbroken
  · cases he
    exact hs.control.fault fault hfault rfl

theorem spares_resume {α : Type} (d : Dialogue α) {s : Stream} (h : s.Spares e) :
    (d.resume s).2.Spares e := by
  induction d generalizing s with
  | finish r => exact h
  | read field n next ih =>
      by_cases hn : s.incoming.length < n
      · cases he : s.ending with
        | awaited =>
            rw [Dialogue.resume_read_of_awaited hn he]
            exact ⟨h.fault, h.ending⟩
        | ended =>
            simp only [Dialogue.resume, Stream.gather_ended hn he]
            exact ⟨h.fault, h.ending⟩
        | broken error =>
            simp only [Dialogue.resume, Stream.gather_broken hn he]
            exact ⟨h.fault, by simp [Stream.close]⟩
      · rw [Dialogue.resume_read_of_le (Nat.not_lt.mp hn)]
        exact ih _ ⟨h.fault, h.ending⟩
  | write bytes next ih =>
      obtain ⟨r, part, hwrite, -⟩ := Stream.writeAll_alike (s := s) rfl rfl bytes
      simp only [Dialogue.resume, hwrite]
      exact ih r ⟨h.fault, h.ending⟩

/-- What has been said to a client whose handshake has neither failed nor come to a request belongs
to the method exchange. -/
theorem opening_of_spoken {heard said : Bytes} (h : Spoken heard said none) :
    said ∈ Authentication.exchanges := by
  cases h with
  | silent | v4 => simp [Authentication.exchanges, owed]
  | v5 heard hexchange => simpa [owed] using hexchange

/-- As long as the handshake goes on only messages of the method exchange have been written. -/
theorem written_of_listening {field : Field} {n : Nat} {next : Block n → Dialogue Request}
    (h : handshake service control events = (.listening field n next, stream)) :
    ∃ opening ∈ Authentication.exchanges, stream.written = control.written ++ opening := by
  have hgreet := candid_greet service.authenticator
  obtain ⟨heard, got, -, hspoken⟩ :=
    spoken_of_advance service.authenticator (control.passed events).incoming
  rw [handshake] at h
  by_cases ht : (control.passed events).Takes
      ((greet service.authenticator).advance (control.passed events).incoming).said.length
  · rw [Dialogue.resume_of_takes ht] at h
    simp only [Prod.mk.injEq] at h
    generalize (greet service.authenticator).advance (control.passed events).incoming = p
      at h hspoken
    cases hp : p.progress with
    | finished r => rw [hp] at h; cases h.1
    | listening field' m next' =>
        rw [hp] at hspoken
        refine ⟨_, opening_of_spoken hspoken, ?_⟩
        rw [← h.2]
        rfl
  · obtain ⟨fault, f, rest, -, -, -, hresume, -⟩ := Dialogue.resume_of_not_takes hgreet ht
    rw [hresume] at h
    cases h

/-- A session that ends because its handshake is too slow has been late in the middle of it. -/
theorem late_of_tooSlow (hs : Spared (slowness service.requestLimit) out control events)
    (hr : ((start service c out control).trace service c out events).result? =
      some (.error (tooSlow service.requestLimit))) :
    ∃ before after field n next stream, events = before ++ after ∧
      handshake service control before = (.listening field n next, stream) ∧
      service.requestLimit.toNat * 1000 ≤ elapsed before ∧
      (start service c out control).trace service c out events =
        { fresh stream (.over (.error (tooSlow service.requestLimit))) with
          clock := elapsed before }.passed after := by
  cases handshakes_trace service c out control events with
  | listening hheard hclock hstate =>
      rw [hstate] at hr
      cases hr
  | late he hheard hclock hstate => exact ⟨_, _, _, _, _, _, he, hheard, hclock, hstate⟩
  | @failed before after f stream he hheard hstate =>
      subst he
      rw [hstate] at hr
      cases hr
      exact absurd rfl (failure_ne_of_handshake hs.left (by simp [slowness]) hheard)
  | @past before after r stream phase he hheard hstate =>
      subst he
      have hspares : stream.Spares (slowness service.requestLimit) := by
        have hresume := spares_resume (greet service.authenticator) hs.left.passed
        rwa [← handshake, hheard] at hresume
      have hclear : Clear (slowness service.requestLimit)
          ((pursue out service.rules (planFor service c r)
            { fresh stream phase with clock := elapsed before }).trace service c out after) :=
        clear_trace hs.out hspares rfl (by simp [slowness, IoError.connectionReset]) hs.right
      rw [hstate] at hr
      exact absurd hr hclear.result

/-- A session ends because its handshake is too slow exactly if the limit has passed while the
handshake was not over. -/
theorem tooSlow_iff (hs : Spared (slowness service.requestLimit) out control events) :
    ((start service c out control).trace service c out events).result? =
        some (.error (tooSlow service.requestLimit)) ↔
      ∃ before after, events = before ++ after ∧
        service.requestLimit.toNat * 1000 ≤ elapsed before ∧
        Unfinished service control before := by
  constructor
  · intro hr
    obtain ⟨before, after, field, n, next, stream, he, hheard, hclock, -⟩ := late_of_tooSlow hs hr
    exact ⟨before, after, he, hclock, field, n, next, stream, hheard⟩
  · rintro ⟨before, after, rfl, hclock, field, n, next, stream, hheard⟩
    rw [trace_append]
    cases handshakes_trace service c out control before with
    | listening _ hearly _ => omega
    | late he _ _ hstate =>
        rw [hstate, trace_of_over after rfl]
        rfl
    | failed he hfailed _ =>
        rw [he] at hheard
        exact absurd hheard (not_listening_of_finished hfailed _)
    | past he haccepted _ =>
        rw [he] at hheard
        exact absurd hheard (not_listening_of_finished haccepted _)

theorem not_handshake_of_rests {d : Dialogue Request} {deadline : Nat} (h : Rests s) :
    s.phase ≠ .handshake d deadline := by
  intro hp
  cases h with
  | waits ha => rw [hp] at ha; cases ha
  | relays hr | attends hr | ended hr => rw [hp] at hr; cases hr

theorem early_of_handshake {d : Dialogue Request} {deadline : Nat}
    (hp : ((start service c out control).trace service c out events).phase =
      .handshake d deadline) :
    elapsed events < service.requestLimit.toNat * 1000 ∧
      Unfinished service control events := by
  cases handshakes_trace service c out control events with
  | listening hheard hclock hstate => exact ⟨hclock, _, _, _, _, hheard⟩
  | late _ _ _ hstate => rw [hstate] at hp; cases hp
  | failed _ _ hstate => rw [hstate] at hp; cases hp
  | past _ _ hstate =>
      rw [hstate] at hp
      exact absurd hp (not_handshake_of_rests (rests_trace Plan.grounded_ofRequest rfl _))

/-- The deadline of the handshake. Where nothing outside fails with this very error, a connection
ends with it exactly if the limit has passed while the handshake was not over; then nobody has been
asked anything, and nothing has been written but messages of the method exchange. A connection that
is still in its handshake is in time, whatever its client has sent, and one whose handshake is over
does not end so later. -/
theorem handshake_deadline (service : Service) (c : Connection) (out : Surroundings)
    (control : Stream) (events : List Event)
    (hs : Spared (slowness service.requestLimit) out control events) :
    let limit := service.requestLimit.toNat * 1000
    let run (events : List Event) := (start service c out control).trace service c out events
    let slow : Option (Except Failure Unit) := some (.error (tooSlow service.requestLimit))
    ((run events).result? = slow ↔
      ∃ before after, events = before ++ after ∧ limit ≤ elapsed before ∧
        Unfinished service control before) ∧
    ((run events).result? = slow →
      (run events).calls = [] ∧ (run events).sent = [] ∧ (run events).far? = none ∧
        ∃ opening ∈ Authentication.exchanges,
          (run events).control.written = control.written ++ opening) ∧
    (∀ d deadline, (run events).phase = .handshake d deadline →
      elapsed events < limit ∧ Unfinished service control events) ∧
    (∀ before after, events = before ++ after → ¬Unfinished service control before →
      (run events).result? = slow → (run before).result? = slow) := by
  intro limit run slow
  refine ⟨tooSlow_iff hs, fun hr => ?_, fun d deadline hp => early_of_handshake hp, ?_⟩
  · obtain ⟨before, after, field, n, next, stream, -, hheard, -, hstate⟩ := late_of_tooSlow hs hr
    obtain ⟨opening, hopening, hw⟩ := written_of_listening hheard
    have hrun : run events = _ := hstate
    rw [hrun]
    exact ⟨rfl, rfl, rfl, opening, hopening, hw⟩
  · rintro before after rfl hover hr
    obtain ⟨b, a, he, hclock, hunfinished⟩ := (tooSlow_iff hs).mp hr
    rcases List.append_eq_append_iff.mp he with ⟨x, rfl, -⟩ | ⟨x, rfl, -⟩
    · exact absurd hunfinished.of_append hover
    · exact (tooSlow_iff hs.left).mpr ⟨b, x, rfl, hclock, hunfinished⟩

/-- A client that sends a byte now and then is not given more time. -/
theorem handshake_deadline_trickle :
    let service : Service := ⟨.anyone, fun _ => true, 1, 60⟩
    let events : List Event :=
      [.clientSends [5], .timePasses 600, .clientSends [1], .timePasses 600, .clientSends [0]]
    let s := (start service ⟨none, none⟩ .silent .idle).trace service ⟨none, none⟩ .silent events
    Spared (slowness service.requestLimit) .silent .idle events ∧
      s.result? = some (.error (tooSlow service.requestLimit)) ∧ s.calls = [] := by
  intro service events s
  have hs : Spared (slowness service.requestLimit) .silent .idle events :=
    ⟨idle_spares, ⟨fun _ => by simp [Surroundings.silent], fun _ => by simp [Surroundings.silent]⟩,
      by simp [events, Event.error?]⟩
  have h := handshake_deadline service ⟨none, none⟩ .silent .idle events hs
  have hslow := h.1.mpr ⟨[.clientSends [5], .timePasses 600, .clientSends [1], .timePasses 600],
    [.clientSends [0]], rfl, by decide, _, _, _, _, rfl⟩
  exact ⟨hs, hslow, (h.2.1 hslow).1⟩

end Session

end Socks
