import Socks.Proofs.RuleGate

/-!
# What a client is told before anything is relayed to it

Between its first byte and a relay a client is told at most one thing in each step of the method
exchange, and then at most two replies. `Session.Told` is the shape of this; it holds after every
event, whatever the client sends and however others answer.

Main statement: `Session.told_before_relay`.
-/

namespace Socks

namespace Handshake

variable {a : Authenticator} {r : Request} {heard said hello : Bytes} {failure? : Option Failure}

/-- Where a handshake stops on some bytes, the right things have been said. -/
theorem spoken_of_advance (a : Authenticator) (input : Bytes) :
    ∃ heard got, input = heard ++ got ∧
      Spoken heard ((greet a).advance input).said
        ((greet a).advance input).progress.dialogue.failure? := by
  obtain ⟨heard, got, d', he, hr, hp⟩ := Dialogue.reaches_of_advance (greet a) input
  refine ⟨heard, got, he, ?_⟩
  have hd : d'.failure? = ((greet a).advance input).progress.dialogue.failure? := by
    cases hprogress : ((greet a).advance input).progress with
    | finished r =>
        rw [hprogress] at hp
        obtain ⟨rfl, -⟩ := hp
        rfl
    | listening field n next =>
        rw [hprogress] at hp
        obtain ⟨m, next', rfl, -⟩ := hp
        rfl
  rw [← hd]
  exact spoken_greet hr

/-- The first octet of an accepted handshake is its version, and by its end the client has been let
in. -/
theorem Accepts.opens (h : Accepts a r hello said) :
    hello.head? = some r.version.byte ∧
      (r.version = .v4 ∧ said = [] ∨ r.version = .v5 ∧ (said = [5, 0] ∨ said = [5, 2, 1, 0])) := by
  cases h with
  | v4 ha hr => cases hr <;> exact ⟨rfl, .inl ⟨rfl, rfl⟩⟩
  | v5 hi hr =>
      cases hr
      exact ⟨rfl, .inr ⟨rfl, hi.said_cases⟩⟩

theorem owed_length_le (version : Version) (failure? : Option Failure) :
    (owed version failure?).length ≤ 1 := by
  unfold owed
  cases failure?.bind (owed? version) <;> simp

theorem version_of_mem_owed {version : Version} {m : Reply} (h : m ∈ owed version failure?) :
    m.version = version := by
  simp only [owed, Option.mem_toList, Option.bind_eq_some_iff] at h
  obtain ⟨f, -, h⟩ := h
  unfold owed? at h
  split at h
  · cases h
    rfl
  · obtain ⟨status, -, rfl⟩ := Option.map_eq_some_iff.mp h
    rfl

theorem owed_of_replyStatus? {version : Version} {f : Failure} {status : Status}
    (h : f.replyStatus? = some status) : owed version (some f) = [.bare version status] := by
  have hr := @owed?_of_reading version f (Failure.ofReading_of_replyStatus? h)
  simp [owed, hr, h]

end Handshake

namespace Session

open Handshake

/-- The replies to a client whose handshake has failed: none if it broke off, was too slow or spoke
another protocol, one that says no to a client of SOCKS4 that would have to authenticate, and one
with the status of the failure if that has a status. -/
structure Dismissed (sent : Bytes) (f : Failure) (replies : List Reply) : Prop where
  transport : ∀ e, f = .transport e → replies = []
  unsupported : ∀ b, f = .unsupportedVersion b → replies = []
  refusedV5 : ∀ fault, f = .authentication fault → sent.head? = some 5 → replies = []
  refusedV4 : ∀ fault, f = .authentication fault → sent.head? = some 4 →
    replies = [.bare .v4 .ruleFailure]
  misread : ∀ status, f.replyStatus? = some status →
    ∃ version : Version, sent.head? = some version.byte ∧ replies = [.bare version status]

/-- What a client is told that has sent `sent`: `opening` in the method exchange, then `replies`. -/
structure Told (sent opening : Bytes) (replies : List Reply) (s : Session) : Prop where
  exchange : opening ∈ Authentication.exchanges
  unopened : sent.head? ≠ some 5 → opening = []
  letIn : replies ≠ [] →
    sent.head? = some 4 ∨ sent.head? = some 5 ∧ (opening = [5, 0] ∨ opening = [5, 2, 1, 0])
  version : ∀ m ∈ replies, sent.head? = some m.version.byte
  few : replies.length ≤ 2
  two : replies.length = 2 →
    ∃ r bound, s.calls.head? = some (.rules r true) ∧ r.command = .bind ∧
      replies.head? = some (.granted r.version bound)
  early : s.calls = [] → s.isOver = false → replies = []
  dismissed : s.calls = [] → ∀ f, s.result? = some (.error f) → Dismissed sent f replies

variable {service : Service} {c : Connection} {out : Surroundings} {control : Stream}
  {events : List Event} {s : Session} {sent heard said : Bytes} {failure? : Option Failure}

theorem dismissed_nil {f : Failure}
    (h : (∃ e, f = .transport e) ∨ ∃ b, f = .unsupportedVersion b) : Dismissed sent f [] := by
  rcases h with ⟨e, rfl⟩ | ⟨b, rfl⟩ <;>
    exact ⟨fun _ _ => rfl, fun _ _ => rfl, fun _ h => (by cases h), fun _ h => (by cases h),
      fun _ h => (by cases h)⟩

theorem dismissed_owed {version : Version} {f : Failure}
    (h : sent.head? = some version.byte) : Dismissed sent f (owed version (some f)) := by
  refine ⟨?_, ?_, ?_, ?_, fun status hs => ⟨version, h, owed_of_replyStatus? hs⟩⟩
  · rintro e rfl
    cases version <;> rfl
  · rintro b rfl
    cases version <;> rfl
  · rintro fault rfl h5
    cases version with
    | v4 => rw [h] at h5; cases h5
    | v5 => rfl
  · rintro fault rfl h4
    cases version with
    | v4 => rfl
    | v5 => rw [h] at h4; cases h4

/-- How a handshake that has come to a failure, or to none, has left its session. -/
structure Leaves (failure? : Option Failure) (s : Session) : Prop where
  calls : s.calls = []
  unfailed : failure? = none → ∀ f, s.result? = some (.error f) → ∃ e, f = .transport e
  failed : ∀ f, failure? = some f → s.result? = some (.error f)

theorem told_of_exchange {opening : Bytes} (h : Leaves failure? s)
    (hexchange : opening ∈ Authentication.exchanges)
    (hunopened : sent.head? ≠ some 5 → opening = [])
    (hf : failure? = none ∨ ∃ b, failure? = some (.unsupportedVersion b)) :
    Told sent opening [] s := by
  refine ⟨hexchange, hunopened, fun hne => absurd rfl hne, by simp, by simp, by simp,
    fun _ _ => rfl, fun _ f hr => dismissed_nil ?_⟩
  rcases hf with hf | ⟨b, hf⟩
  · exact .inl (h.unfailed hf f hr)
  · rw [h.failed _ hf] at hr
    cases hr
    exact .inr ⟨b, rfl⟩

theorem told_of_owed (version : Version) {opening : Bytes} (h : Leaves failure? s)
    (hversion : sent.head? = some version.byte) (hexchange : opening ∈ Authentication.exchanges)
    (hunopened : version = .v4 → opening = [])
    (hlet : version = .v5 → owed version failure? ≠ [] →
      opening = [5, 0] ∨ opening = [5, 2, 1, 0]) :
    Told sent opening (owed version failure?) s := by
  have hopening : sent.head? ≠ some 5 → opening = [] := by
    intro hne
    cases version with
    | v4 => exact hunopened rfl
    | v5 => exact absurd hversion hne
  cases hf : failure? with
  | none => exact told_of_exchange h hexchange hopening (.inl hf)
  | some f =>
      have hresult : s.result? = some (.error f) := h.failed f hf
      have hfew : (owed version (some f)).length ≤ 1 := owed_length_le version (some f)
      have hin : owed version (some f) ≠ [] → sent.head? = some 4 ∨
          sent.head? = some 5 ∧ (opening = [5, 0] ∨ opening = [5, 2, 1, 0]) := by
        intro hne
        cases version with
        | v4 => exact .inl hversion
        | v5 => exact .inr ⟨hversion, hlet rfl (hf ▸ hne)⟩
      have hover : s.isOver = true := by
        rw [isOver, hresult]
        rfl
      refine ⟨hexchange, hopening, hin, fun m hm => ?_, by omega, fun htwo => by omega,
        fun _ hgoes => ?_, fun _ f' hr => ?_⟩
      · rw [version_of_mem_owed hm, hversion]
      · rw [hover] at hgoes
        cases hgoes
      · rw [hresult] at hr
        cases hr
        exact dismissed_owed hversion

/-- What is said in a handshake is a message of the method exchange and the replies to a failure. -/
theorem told_of_spoken (h : Spoken heard said failure?) (hs : Leaves failure? s) (got : Bytes) :
    ∃ opening replies, said = opening ++ replies.flatMap Reply.bytes ∧
      Told (heard ++ got) opening replies s := by
  cases h with
  | silent =>
      exact ⟨[], [], rfl, told_of_exchange hs (by simp [Authentication.exchanges]) (fun _ => rfl)
        (.inl rfl)⟩
  | unknown _ =>
      exact ⟨[], [], rfl, told_of_exchange hs (by simp [Authentication.exchanges]) (fun _ => rfl)
        (.inr ⟨_, rfl⟩)⟩
  | v4 heard =>
      exact ⟨[], _, rfl, told_of_owed .v4 hs rfl (by simp [Authentication.exchanges]) (fun _ => rfl)
        (fun h => by cases h)⟩
  | v5 heard hexchange hlet =>
      exact ⟨_, _, rfl, told_of_owed .v5 hs rfl hexchange (fun h => by cases h) (fun _ => hlet)⟩

/-- The replies of a request come after the handshake that has let its client in. -/
theorem told_of_accepted {hello rest : Bytes} {r : Request} {s₀ : Session} {limit : UInt64}
    {here? : Option IpAddress} {cs : List Call} {ms : List Reply} {met : Bool} {q : Plan}
    (ha : Accepts service.authenticator r hello said)
    (hstands : Stands service.rules
      (.ofRequest limit here? { r with client? := c.client? }) s₀ events s)
    (hcalls : s₀.calls = [])
    (hc : (Plan.ofRequest limit here? { r with client? := c.client? }).Course service.rules cs ms
      met q) : Told (hello ++ rest) said ms s := by
  obtain ⟨hhead, hsaid⟩ := ha.opens
  obtain ⟨more, hmore, -⟩ := hstands.calls_of_ofRequest hcalls
  obtain ⟨hversion, hfew, htwo⟩ := hc.replies_of_ofRequest
  have hsent : (hello ++ rest).head? = some r.version.byte := by
    rw [List.head?_append, hhead, Option.some_or]
  have hexchange : said ∈ Authentication.exchanges := by
    rcases hsaid with ⟨-, rfl⟩ | ⟨-, hsaid⟩
    · simp [Authentication.exchanges]
    · exact Authentication.mem_exchanges hsaid
  have hopening : (hello ++ rest).head? ≠ some 5 → said = [] := by
    intro hne
    rcases hsaid with ⟨-, rfl⟩ | ⟨hv, -⟩
    · rfl
    · rw [hsent, hv] at hne
      exact absurd rfl hne
  have hin : (hello ++ rest).head? = some 4 ∨
      (hello ++ rest).head? = some 5 ∧ (said = [5, 0] ∨ said = [5, 2, 1, 0]) := by
    rw [hsent]
    rcases hsaid with ⟨hv, -⟩ | ⟨hv, hsaid⟩
    · rw [hv]
      exact .inl rfl
    · rw [hv]
      exact .inr ⟨rfl, hsaid⟩
  have hcalled : s.calls ≠ [] := by
    rw [hmore]
    exact List.cons_ne_nil _ _
  refine ⟨hexchange, hopening, fun _ => hin, fun m hm => ?_, hfew, fun hlen => ?_,
    fun hnone => absurd hnone hcalled, fun hnone => absurd hnone hcalled⟩
  · rw [hversion m hm, hsent]
  · obtain ⟨hr, hcommand, bound, hfirst⟩ := htwo hlen
    refine ⟨_, bound, ?_, hcommand, hfirst⟩
    rw [hmore, hr]
    rfl

/-- What has been written on a control stream: what was there before, the opening, the replies, and
what a relay has passed on after the last reply granted it. -/
def Wrote (control : Stream) (events : List Event) (opening : Bytes) (replies : List Reply)
    (s : Session) : Prop :=
  ∃ relayed late,
    s.control.written = control.written ++ opening ++ replies.flatMap Reply.bytes ++ relayed ∧
      late <:+ events ∧ relayed <+: heardFar late ∧
      (relayed ≠ [] → ∃ version bound, replies.getLast? = some (.granted version bound))

theorem wrote_unrelayed {opening : Bytes} {replies : List Reply}
    (h : s.control.written = control.written ++ (opening ++ replies.flatMap Reply.bytes)) :
    Wrote control events opening replies s :=
  ⟨[], [], by simp [h], List.nil_suffix, List.nil_prefix, fun hne => absurd rfl hne⟩

/-- A client that has been turned away has been told what it is owed. -/
theorem TurnsAway.told {before after : List Event} {f : Failure}
    (h : TurnsAway service control before f said) (hfault : control.fault? = none)
    (hcalls : s.calls = []) (hresult : s.result? = some (.error f)) :
    ∃ opening replies, said = opening ++ replies.flatMap Reply.bytes ∧
      Told (sentBy control (before ++ after)) opening replies s := by
  obtain ⟨heard, got, hsent, hspoken⟩ :=
    spoken_of_advance service.authenticator (sentBy control before)
  rw [sentBy_append, hsent, List.append_assoc]
  -- A handshake that still listens has failed from outside, and is owed nothing.
  have houtside : (∃ e, f = .transport e) → Leaves none s := fun ⟨e, he⟩ =>
    ⟨hcalls, fun _ f' hr => ⟨e, by rw [hresult] at hr; cases hr; exact he⟩, by simp⟩
  cases h with
  | failed hadvance =>
      rw [hadvance] at hspoken
      refine told_of_spoken hspoken ⟨hcalls, by simp [Progress.dialogue, Dialogue.failure?], ?_⟩ _
      simp [Progress.dialogue, Dialogue.failure?, hresult]
  | ended hadvance _ hf =>
      rw [hadvance] at hspoken
      exact told_of_spoken hspoken (houtside ⟨_, hf⟩) _
  | slow hadvance _ hf =>
      rw [hadvance] at hspoken
      exact told_of_spoken hspoken (houtside ⟨_, hf⟩) _
  | cut _ _ ht =>
      exact absurd (Stream.takes_of_faultless (s := control.wrote said) hfault 1) ht

/-- On a stream that takes every write a client has been told what it should be told. -/
theorem Greets.told (h : Greets service c control events s) (hfault : control.fault? = none) :
    ∃ opening replies, Wrote control events opening replies s ∧
      Told (sentBy control events) opening replies s := by
  cases h with
  | listening hadvance he hclock hs =>
      obtain ⟨heard, got, hsent, hspoken⟩ :=
        spoken_of_advance service.authenticator (sentBy control events)
      rw [hadvance] at hspoken
      have hleaves : Leaves none s := by
        rw [hs]
        exact ⟨rfl, fun _ f hr => (by cases hr), by simp⟩
      obtain ⟨opening, replies, rfl, htold⟩ := told_of_spoken hspoken hleaves got
      rw [hsent]
      exact ⟨opening, replies, wrote_unrelayed (by rw [hs]; rfl), htold⟩
  | turned he hcause hs =>
      have hcalls : s.calls = [] := by rw [hs]; rfl
      obtain ⟨opening, replies, rfl, htold⟩ := hcause.told hfault hcalls (by rw [hs]; rfl)
      rw [he]
      exact ⟨opening, replies, wrote_unrelayed (by rw [hs]; rfl), htold⟩
  | @past before after r rest said phase he hadvance hstands =>
      obtain ⟨hello, hsent, hr⟩ := Dialogue.advance_eq_finished_iff.mp hadvance
      obtain ⟨cs, ms, met, q, relayed, late, hc, hw, hlate, hback, hrelay⟩ :=
        hstands.written hfault
      refine ⟨said, ms, ⟨relayed, late, ?_, ?_, hback, fun hne => ?_⟩, ?_⟩
      · rw [hw]
        simp [greeted, fresh]
      · rw [he]
        exact hlate.trans (List.suffix_append ..)
      · have hannounced := hc.announced Plan.announced_ofRequest
        rw [hrelay hne, Option.or_none] at hannounced
        obtain ⟨bound, hlast⟩ := hannounced
        exact ⟨_, bound, hlast⟩
      · rw [he, sentBy_append, hsent, List.append_assoc]
        exact told_of_accepted (reaches_greet_iff.mp hr) hstands rfl hc

/-! ### Once a relay or an association goes on -/

theorem Greets.relayed_of_relaying (h : Greets service c control events s)
    (hp : s.phase = .relaying) : Relayed s [] s := by
  cases h with
  | listening hadvance he hclock hs => rw [hs] at hp; cases hp
  | turned he hcause hs => rw [hs] at hp; cases hp
  | past he hadvance hstands =>
      cases hstands with
      | waits hc ha hs =>
          rw [hs] at hp
          obtain rfl : _ = Phase.relaying := hp
          cases ha
      | cut hc hpart hne ht hs => rw [hs] at hp; cases hp
      | relays he hc hr => exact hr.rebase hp
      | associates he hc ha =>
          rcases ha.stage with ⟨a, h⟩ | ⟨result, h⟩ <;> rw [hp] at h <;> cases h

theorem attended_of_associated {a : Association} (h : s.phase = .associated a) :
    Attended s [] s :=
  ⟨⟨[], by simp⟩, rfl, rfl, rfl, by simp, .inl ⟨a, h⟩⟩

/-- What a client is told, whatever it sends and however others answer, as long as no write to it
fails: a message in each step of the method exchange and at most two replies, or what its failure
is owed. From the moment when a relay goes on it is written nothing but what the far side sends, and
in the course of an association nothing at all. -/
theorem told_before_relay (service : Service) (c : Connection) (out : Surroundings)
    (control : Stream) (events : List Event) (h : Unfailing service c out control events) :
    let s := (start service c out control).trace service c out events
    (∃ opening replies, Wrote control events opening replies s ∧
      Told (sentBy control events) opening replies s) ∧
    ∀ before after, events = before ++ after →
      let s₀ := (start service c out control).trace service c out before
      (s₀.phase = .relaying → ∃ relayed, s.control.written = s₀.control.written ++ relayed ∧
        relayed <+: heardFar after) ∧
      ∀ a, s₀.phase = .associated a → s.control.written = s₀.control.written := by
  refine ⟨?_, fun before after he => ?_⟩
  · obtain ⟨opening, replies, ⟨relayed, late, hw, hlate, hback, hlast⟩, htold⟩ :=
      (greets_trace service c out control.sound events).told rfl
    rw [h] at hw htold
    exact ⟨opening, replies, ⟨relayed, late, hw, hlate, hback, hlast⟩,
      ⟨htold.exchange, htold.unopened, htold.letIn, htold.version, htold.few, htold.two,
        htold.early, htold.dismissed⟩⟩
  · rw [he, trace_append]
    refine ⟨fun hp => ?_, fun a ha => ?_⟩
    · have hr := (greets_trace service c out control before).relayed_of_relaying hp
      exact (hr.trace after).back
    · exact ((attended_of_associated ha).trace after).written

/-- A client that may come in but asks for a command that does not exist is told so. -/
theorem told_before_relay_unknown_command :
    let service : Service := ⟨.anyone, fun _ => true, 10, 60⟩
    let events := [Event.clientSends [5, 1, 0, 5, 9, 0, 1, 127, 0, 0, 1, 0, 80]]
    let s := (start service ⟨none, none⟩ .silent .idle).trace service ⟨none, none⟩ .silent events
    Unfailing service ⟨none, none⟩ .silent .idle events ∧
      s.control.written = [5, 0, 5, 7, 0, 1, 0, 0, 0, 0, 0, 0] ∧
      ∃ opening replies, Wrote .idle events opening replies s ∧
        Told (sentBy .idle events) opening replies s := by
  intro service events s
  have h : Unfailing service ⟨none, none⟩ .silent .idle events :=
    unfailing_of_faultless _ _ _ _ rfl
  exact ⟨h, by decide +kernel, (told_before_relay _ _ _ _ _ h).1⟩

end Session

end Socks
