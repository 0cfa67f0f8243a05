import Mathlib.Data.List.Induction
import Socks.Proofs.RuleGate
import Socks.Proofs.Session.Waiting

/-!
# From the handshake to the request

A connection that is served from its first byte does nothing but the handshake at first, and goes on
exactly as if its request had been known when the handshake comes to one. What is known of carrying
out a plan is therefore known of a connection from its first byte.

Main statement: `Session.enters_trace`.
-/

namespace Socks

open Handshake

namespace Session

variable {service : Service} {c : Connection} {out : Surroundings} {control : Stream}
  {events : List Event} {s : Session}

/-- A session that has asked for nothing: it is in its handshake, or was turned away in it. -/
structure Outside (s : Session) : Prop where
  calls : s.calls = []
  far : s.far? = none
  sent : s.sent = []
  stage : (∃ d deadline, s.phase = .handshake d deadline) ∨ ∃ result, s.phase = .over result

/-- What a connection has come to in the course of some events: it is outside, or it carries out the
plan of the request `r`, with which its handshake ended after the events `before`. -/
inductive Enters (service : Service) (c : Connection) (out : Surroundings) (control : Stream)
    (events : List Event) : Prop
  | outside :
      Outside ((start service c out control).trace service c out events) →
        Enters service c out control events
  | inside {before after : List Event} {r : Request} {hello rest said : Bytes} {phase : Phase} :
      events = before ++ after → Accepts service.authenticator r hello said →
      sentBy control before = hello ++ rest →
      (start service c out control).trace service c out before =
        pursue out service.rules (planFor service c r)
          (greeted control (endingAfter control.ending before) (elapsed before) rest said phase) →
        Enters service c out control events

variable {d : Dialogue Request} {unread said : Bytes}

theorem outside_greeted (control : Stream) (ending : Ending) (clock : Nat) (rest said : Bytes)
    (d : Dialogue Request) (deadline : Nat) :
    Outside (greeted control ending clock rest said (.handshake d deadline)) :=
  ⟨rfl, rfl, rfl, .inl ⟨d, deadline, rfl⟩⟩

/-- A handshake that does not come to a request leaves its session outside. -/
theorem Outside.settle {deadline : Nat} {progress : Progress Request} {stream : Stream}
    (h : Outside s) (hp : s.phase = .handshake d deadline)
    (hr : d.resume s.control = (progress, stream)) (hne : ∀ r, progress ≠ .finished (.ok r)) :
    Outside (s.settle service c out) := by
  cases progress with
  | finished result =>
      cases result with
      | ok r => exact absurd rfl (hne r)
      | error f =>
          rw [settle_of_failed hp hr]
          exact ⟨h.calls, h.far, h.sent, .inr ⟨_, rfl⟩⟩
  | listening field n next =>
      by_cases hlate : deadline ≤ s.clock
      · rw [settle_of_late hp hr hlate]
        exact ⟨h.calls, h.far, h.sent, .inr ⟨_, rfl⟩⟩
      · rw [settle_of_listening hp hr hlate]
        exact ⟨h.calls, h.far, h.sent, .inl ⟨_, _, rfl⟩⟩

/-- To go on with a handshake leaves a session outside, or leads to the request. -/
theorem Remains.enters (h : Remains service control events d unread said)
    (hs : (start service c out control).trace service c out events =
      (greeted control (endingAfter control.ending events) (elapsed events) unread said
        (.handshake d (Clock.deadline 0 service.requestLimit))).settle service c out) :
    Enters service c out control events := by
  have houtside := outside_greeted control (endingAfter control.ending events) (elapsed events)
    unread said d (Clock.deadline 0 service.requestLimit)
  by_cases ht : (control.wrote said).Takes (d.advance unread).said.length
  · have hadvance := h.advance
    rcases hd : d.advance unread with ⟨progress, rest, more⟩
    rw [hd] at ht hadvance
    have hresume := @resume_greeted control d unread said progress
      (endingAfter control.ending events) (elapsed events) rest more
      (.handshake d (Clock.deadline 0 service.requestLimit)) hd ht
    by_cases hok : ∃ r, progress = .finished (.ok r)
    · obtain ⟨r, rfl⟩ := hok
      obtain ⟨hello, hsent, hr⟩ := Dialogue.advance_eq_finished_iff.mp hadvance
      rw [settle_of_accepted rfl hresume] at hs
      exact .inside (List.append_nil events).symm (reaches_greet_iff.mp hr) hsent hs
    · refine .outside (hs ▸ houtside.settle rfl hresume fun r he => hok ⟨r, ?_⟩)
      cases progress with
      | finished result => exact he
      | listening field n next =>
          cases hending : endingAfter control.ending events <;> rw [hending] at he <;> cases he
  · obtain ⟨fault, f, rest, -, -, -, hresume, -⟩ := Dialogue.resume_of_not_takes
      (s := (greeted control (endingAfter control.ending events) (elapsed events) unread said
        (.handshake d (Clock.deadline 0 service.requestLimit))).control) h.candid ht
    exact .outside (hs ▸ houtside.settle rfl hresume fun r he => by cases he)

theorem enters_start (service : Service) (c : Connection) (out : Surroundings) (control : Stream) :
    Enters service c out control [] :=
  (remains_start service control).enters (start_eq service c out control)

theorem trace_snoc (s : Session) (events : List Event) (e : Event) :
    s.trace service c out (events ++ [e]) =
      (s.trace service c out events).step service c out e := by
  rw [trace_append]
  rfl

/-- Every event leads further into the session, or leaves it outside. -/
theorem Enters.step (h : Enters service c out control events) (e : Event) :
    Enters service c out control (events ++ [e]) := by
  have hg := greets_trace service c out control events
  cases h with
  | inside he ha hsent hs => exact .inside (by rw [he, List.append_assoc]) ha hsent hs
  | outside ho =>
      rcases ho.stage with ⟨d, deadline, hp⟩ | ⟨result, hp⟩
      · cases hg with
        | listening hadvance he hclock hs =>
            refine (remains_of_listening hadvance e).enters ?_
            rw [trace_snoc, step_of_listening he hs]
        | turned he hcause hs => rw [hs] at hp; cases hp
        | past he hadvance hstands =>
            -- A session that stands at its plan has asked the rules.
            obtain ⟨more, hmore, -⟩ := hstands.calls_of_ofRequest rfl
            rw [ho.calls] at hmore
            cases hmore
      · refine .outside ?_
        rw [trace_snoc, step_of_over hp]
        exact ⟨ho.calls, ho.far, ho.sent, .inr ⟨result, hp⟩⟩

/-- A connection does its handshake, and then carries out the plan of its request. -/
theorem enters_trace (service : Service) (c : Connection) (out : Surroundings) (control : Stream)
    (events : List Event) : Enters service c out control events := by
  induction events using List.reverseRecOn with
  | nil => exact enters_start service c out control
  | append_singleton events e ih => exact ih.step e

end Session

end Socks
