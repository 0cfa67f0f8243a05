import Socks.Proofs.Association
import Socks.Proofs.Relay
import Socks.Proofs.Session.Passing

/-!
# Sessions after the control stream has been handed over

A plan ends by handing the control stream over to a relay or to an association.
`Session.Relayed` says what a session has come to some events after the relay began, and
`Session.Attended` after an association did.

Main statements: both are kept by every event (`Session.Relayed.step`, `Session.Attended.step`) and
therefore hold after any number of them (`Session.Relayed.trace`, `Session.Attended.trace`).
-/

namespace Socks

namespace Session

variable {service : Service} {c : Connection} {out : Surroundings} {s : Session}

/-! ### One round of a relay -/

section rounds

variable {far : Stream}

/-- A round first passes on what the client has sent. -/
theorem settle_start {control : Stream} (hf : far.fault? = none) :
    (Relay.start control far).settle =
      let r := (Relay.start control far).copied .left
      Relay.pump .right (r.enough .right) r := by
  rw [Relay.settle, @Relay.pump_of_takes (Relay.start control far) .left _ rfl (Nat.le_refl _)
    (Stream.takes_of_faultless hf _)]

/-- A client that has ended or broken off ends the relay, after its last bytes have been passed
on. -/
theorem relayOn_of_ending {result : Except Failure Unit} (hfar : s.far? = some far)
    (hf : far.fault? = none) (he : s.control.ending.result? = some result) :
    s.relayOn =
      { s with
        control := s.control.spent
        far? := some (far.wrote s.control.incoming)
        phase := .over result } := by
  have hr : ((Relay.start s.control far).copied .left).result? = some result := he
  simp only [relayOn, hfar, settle_start hf, Relay.pump_of_result _ hr]
  simp [Relay.copied, Relay.start, Relay.withPending, Relay.withStream, Relay.stream,
    Relay.pending, Side.other, he, finish]

theorem result?_copied_start {control : Stream} (he : control.ending = .awaited) :
    ((Relay.start control far).copied .left).result? = none := by
  simp [Relay.start, Relay.stream, he, Ending.result?]

/-- As long as the client goes on and takes what it is sent, a round passes on everything. -/
theorem relayOn_of_takes (hfar : s.far? = some far) (hf : far.fault? = none)
    (he : s.control.ending = .awaited) (ht : s.control.Takes far.incoming.length) :
    s.relayOn =
      { s with
        control := s.control.drained.wrote far.incoming
        far? := some (far.wrote s.control.incoming).spent
        phase := (far.ending.result?.map Phase.over).getD .relaying } := by
  have h := @Relay.pump_of_takes ((Relay.start s.control far).copied .left) .right _
    (result?_copied_start he) (Nat.le_refl _) ht
  simp only [relayOn, hfar, settle_start hf, h]
  cases hr : far.ending.result? <;>
    simp [Relay.copied, Relay.start, Relay.withPending, Relay.withStream, Relay.stream,
      Relay.pending, Side.other, Stream.spent, Stream.drained, Stream.wrote, Ending.met, he, hr,
      finish]

/-- A client that does not take what it is sent ends the relay. -/
theorem relayOn_of_not_takes (hfar : s.far? = some far) (hf : far.fault? = none)
    (he : s.control.ending = .awaited) (ht : ¬s.control.Takes far.incoming.length) :
    ∃ fault k, s.control.fault? = some fault ∧
      fault.after - s.control.written.length < far.incoming.length ∧
      s.relayOn =
        { s with
          control := s.control.drained.wrote
            (far.incoming.take (fault.after - s.control.written.length))
          far? := some ((far.wrote s.control.incoming).skip k)
          phase := .over (.error (.transport fault.error)) } := by
  obtain ⟨fault, k, hfault, hlt, hres, hright, hleft⟩ :=
    @Relay.pump_of_not_takes ((Relay.start s.control far).copied .left) .right _
      (result?_copied_start he) (Nat.le_refl _) ht
  have hbacklog : ((Relay.start s.control far).copied .left).backlog .right = far.incoming := rfl
  rw [hbacklog] at hleft
  refine ⟨fault, k, hfault, hlt, ?_⟩
  simp only [Relay.stream, Side.other] at hright hleft
  simp only [relayOn, hfar, settle_start hf, hres, hright, hleft]
  simp [Relay.copied, Relay.start, Relay.withPending, Relay.withStream, Relay.stream,
    Relay.pending, Side.other, Stream.spent, Stream.drained, Stream.wrote, Ending.met, he, finish]

/-- A far side that has ended or broken off ends the relay. -/
theorem relayOn_over_of_farEnding (hfar : s.far? = some far) (hf : far.fault? = none)
    (hne : far.ending ≠ .awaited) : ∃ result, s.relayOn.phase = .over result := by
  cases he : s.control.ending.result? with
  | some result => exact ⟨result, by rw [relayOn_of_ending hfar hf he]⟩
  | none =>
      have ha : s.control.ending = .awaited := Ending.awaited_of_result? he
      by_cases ht : s.control.Takes far.incoming.length
      · rw [relayOn_of_takes hfar hf ha ht]
        cases hfe : far.ending with
        | awaited => exact absurd hfe hne
        | ended => exact ⟨_, rfl⟩
        | broken e => exact ⟨_, rfl⟩
      · obtain ⟨fault, k, -, -, e⟩ := relayOn_of_not_takes hfar hf ha ht
        exact ⟨_, by rw [e]⟩

end rounds

/-! ### A relay in the course of events -/

/-- What has been passed on to the far side. -/
def passedOn (s : Session) : Bytes := (s.far?.map Stream.written).getD []

/-- A session between two rounds of a relay that went on at `s₀`: what came from either side in the
course of the events has been passed on or waits to be, in order. -/
structure Relaying (s₀ : Session) (events : List Event) (far : Stream) (s : Session) : Prop where
  calls : s.calls = s₀.calls
  there : s.far? = some far
  back : ∃ relayed, s.control.written = s₀.control.written ++ relayed ∧
    relayed ++ far.incoming = heardFar events
  forth : far.written ++ s.control.incoming = s₀.passedOn ++ s₀.control.incoming ++ heard events
  ending : s.control.ending = endingAfter s₀.control.ending events
  fault : s.control.fault? = s₀.control.fault?
  farTakes : far.fault? = none
  farEnding : far.ending ≠ .awaited → ∃ e ∈ events, e.EndsFar

/-- Why a relay is over: the client does not take a byte more, or the far side has ended, or the
client has, after all its bytes were passed on. -/
def Cause (s₀ : Session) (events : List Event) (s : Session) : Prop :=
  ¬s.control.Takes 1 ∨ (∃ e ∈ events, e.EndsFar) ∨
    ∃ before after far, events = before ++ after ∧
      endingAfter s₀.control.ending before ≠ .awaited ∧ s.far? = some far ∧
      far.written = s₀.passedOn ++ s₀.control.incoming ++ heard before

/-- What a session has come to, some events after a relay began at `s₀`. It goes on, and has
nothing left to pass on, or it is over. -/
structure Relayed (s₀ : Session) (events : List Event) (s : Session) : Prop where
  calls : s.calls = s₀.calls
  fault : s.control.fault? = s₀.control.fault?
  back : ∃ relayed, s.control.written = s₀.control.written ++ relayed ∧
    relayed <+: heardFar events
  forth : ∀ far, s.far? = some far →
    far.written <+: s₀.passedOn ++ s₀.control.incoming ++ heard events
  unread : s.control.incoming <:+ s₀.control.incoming ++ heard events
  stage :
    (s.phase = .relaying ∧ ∃ far, Relaying s₀ events far s ∧ s.control.incoming = [] ∧
      s.control.ending = .awaited ∧ far.incoming = [] ∧ far.ending = .awaited) ∨
    (∃ result, s.phase = .over result) ∧ Cause s₀ events s

variable {s₀ : Session} {events : List Event} {far : Stream}

/-- What is unread is the end of what has been sent, and stays that when more is sent. -/
theorem unread_passed (h : s.control.incoming <:+ s₀.control.incoming ++ heard events) (e : Event) :
    (s.passed [e]).control.incoming <:+ s₀.control.incoming ++ heard (events ++ [e]) := by
  rw [heard_append, ← List.append_assoc]
  exact (List.suffix_append_inj_of_length_eq rfl).mpr ⟨h, rfl⟩

/-- What has been unread is all that the far side still lacks. -/
theorem Relaying.all_of_wrote (h : Relaying s₀ events far s) (far' : Stream)
    (hw : far'.written = far.written ++ s.control.incoming) :
    far'.written = s₀.passedOn ++ s₀.control.incoming ++ heard events := by
  rw [hw, h.forth]

theorem Relaying.relayed_of_ending {result : Except Failure Unit}
    (h : Relaying s₀ events far s) (he : s.control.ending.result? = some result) :
    Relayed s₀ events s.relayOn := by
  obtain ⟨relayed, hw, hback⟩ := h.back
  have hall := h.all_of_wrote (far.wrote s.control.incoming) rfl
  have ha : endingAfter s₀.control.ending events ≠ .awaited := by
    rw [← h.ending]
    intro ha
    rw [ha] at he
    cases he
  rw [relayOn_of_ending h.there h.farTakes he]
  refine ⟨h.calls, h.fault, ⟨relayed, hw, ?_⟩, ?_, List.nil_suffix, .inr ⟨⟨result, rfl⟩, ?_⟩⟩
  · rw [← hback]
    exact List.prefix_append ..
  · intro far' hthere
    cases hthere
    exact hall ▸ List.prefix_refl _
  · exact .inr (.inr ⟨events, [], _, (List.append_nil _).symm, ha, rfl, hall⟩)

theorem ending_spent {passed : Bytes} (hf : far.ending = .awaited) :
    (far.wrote passed).spent.ending = .awaited := by
  simp [Stream.spent, Stream.wrote, hf, Ending.met]

/-- A round after which the far side has neither ended nor failed leaves the relay to go on. -/
theorem Relaying.goes_on (h : Relaying s₀ events far s) (hf : far.ending = .awaited) :
    Relaying s₀ events (far.wrote s.control.incoming).spent
      { s with
        control := s.control.drained.wrote far.incoming
        far? := some (far.wrote s.control.incoming).spent
        phase := .relaying } := by
  obtain ⟨relayed, hw, hback⟩ := h.back
  refine ⟨h.calls, rfl, ⟨heardFar events, ?_, List.append_nil _⟩, ?_, h.ending, h.fault,
    h.farTakes, ?_⟩
  · rw [← hback, ← List.append_assoc, ← hw]
    rfl
  · rw [h.all_of_wrote ((far.wrote s.control.incoming).spent) rfl]
    exact List.append_nil _
  · intro hne
    exact absurd (ending_spent hf) hne

theorem Relaying.relayed_of_takes (h : Relaying s₀ events far s)
    (ha : s.control.ending = .awaited) (ht : s.control.Takes far.incoming.length) :
    Relayed s₀ events s.relayOn := by
  obtain ⟨relayed, hw, hback⟩ := h.back
  have hall := h.all_of_wrote ((far.wrote s.control.incoming).spent) rfl
  have hback' : s.control.written ++ far.incoming = s₀.control.written ++ heardFar events := by
    rw [hw, List.append_assoc, hback]
  rw [relayOn_of_takes h.there h.farTakes ha ht]
  refine ⟨h.calls, h.fault, ⟨heardFar events, hback', List.prefix_refl _⟩, ?_, List.nil_suffix, ?_⟩
  · intro far' hthere
    cases hthere
    exact hall ▸ List.prefix_refl _
  · cases hf : far.ending with
    | awaited => exact .inl ⟨rfl, _, h.goes_on hf, rfl, ha, rfl, ending_spent hf⟩
    | ended => exact .inr ⟨⟨_, rfl⟩, .inr (.inl (h.farEnding (by simp [hf])))⟩
    | broken e => exact .inr ⟨⟨_, rfl⟩, .inr (.inl (h.farEnding (by simp [hf])))⟩

theorem Relaying.relayed_of_not_takes (h : Relaying s₀ events far s)
    (ha : s.control.ending = .awaited) (ht : ¬s.control.Takes far.incoming.length) :
    Relayed s₀ events s.relayOn := by
  obtain ⟨relayed, hw, hback⟩ := h.back
  obtain ⟨fault, k, hfault, hlt, e⟩ := relayOn_of_not_takes h.there h.farTakes ha ht
  have hall := h.all_of_wrote ((far.wrote s.control.incoming).skip k) rfl
  have hfull : ¬(s.control.drained.wrote
      (far.incoming.take (fault.after - s.control.written.length))).Takes 1 :=
    Stream.not_takes_wrote (s := s.control.drained) hfault hlt
  rw [e]
  refine ⟨h.calls, h.fault,
    ⟨relayed ++ far.incoming.take (fault.after - s.control.written.length), ?_, ?_⟩, ?_,
    List.nil_suffix, .inr ⟨⟨_, rfl⟩, .inl hfull⟩⟩
  · rw [← List.append_assoc, ← hw]
    rfl
  · rw [← hback, List.prefix_append_right_inj]
    exact List.take_prefix ..
  · intro far' hthere
    cases hthere
    exact hall ▸ List.prefix_refl _

/-- A round of a relay leaves nothing to pass on, or ends the relay. -/
theorem Relaying.relayed (h : Relaying s₀ events far s) : Relayed s₀ events s.relayOn := by
  cases he : s.control.ending.result? with
  | some result => exact h.relayed_of_ending he
  | none =>
      have ha : s.control.ending = .awaited := Ending.awaited_of_result? he
      by_cases ht : s.control.Takes far.incoming.length
      · exact h.relayed_of_takes ha ht
      · exact h.relayed_of_not_takes ha ht

/-- The stream of the far side after an event. -/
def farAfter (far : Stream) (e : Event) : Stream :=
  { far with incoming := far.incoming ++ e.farBytes, ending := e.onFarEnding far.ending }

/-- The session after an event, with what the event does to the far side. -/
def farTaken (s : Session) (far : Stream) (e : Event) : Session :=
  { s.passed [e] with far? := some (farAfter far e) }

variable {e : Event}

theorem take_of_relaying (h : s.phase = .relaying) (hfar : s.far? = some far)
    (he : e ≠ .farResets) : s.take service out e = s.farTaken far e := by
  have hsame : { s with far? := some far } = s := by rw [← hfar]
  by_cases hc : e.Common
  · rw [take_of_common hc]
    cases e with
    | clientSends | clientEnds | clientBreaks | timePasses =>
        simp [farTaken, farAfter, passed, Event.farBytes, Event.onFarEnding, hfar]
    | _ => exact hc.elim
  · rw [farTaken, passed_of_not_common hc]
    cases e with
    | farResets => exact absurd rfl he
    | clientSends | clientEnds | clientBreaks | timePasses => exact absurd trivial hc
    | farSends | farEnds =>
        simp [take, h, hfar, farAfter, Event.farBytes, Event.onFarEnding, Stream.arrive,
          Stream.close]
    | _ => simpa [take, h, farAfter, Event.farBytes, Event.onFarEnding] using hsame.symm

theorem take_of_relaying_reset (h : s.phase = .relaying) (hfar : s.far? = some far) :
    s.take service out .farResets = { (s.farTaken far .farResets).relayOn with far? := none } := by
  rw [farTaken, passed_of_not_common (by simp [Event.Common])]
  simp [take, h, hfar, farAfter, Event.farBytes, Event.onFarEnding, Stream.breakOff]

theorem settle_of_relaying (h : s.phase = .relaying) : s.settle service c out = s.relayOn := by
  simp [settle, h]

/-- A relay passes on what an event brings. -/
theorem step_of_relaying (hp : s.phase = .relaying) (hfar : s.far? = some far)
    (he : e ≠ .farResets) : s.step service c out e = (s.farTaken far e).relayOn := by
  have hrelaying : (s.farTaken far e).phase = .relaying := hp
  rw [step, take_of_relaying hp hfar he, settle_of_relaying hrelaying]

/-- A far side that breaks off is gone after a last round. -/
theorem step_of_relaying_reset (hp : s.phase = .relaying) (hfar : s.far? = some far)
    (hf : far.fault? = none) :
    s.step service c out .farResets =
      { (s.farTaken far .farResets).relayOn with far? := none } := by
  have hthere : (s.farTaken far .farResets).far? = some (farAfter far .farResets) := rfl
  obtain ⟨result, hover⟩ :=
    relayOn_over_of_farEnding hthere hf (by simp [farAfter, Event.onFarEnding])
  rw [step, take_of_relaying_reset hp hfar]
  exact settle_of_over hover

/-- What an event adds to a session that has passed on everything. -/
theorem Relaying.farTaken (h : Relaying s₀ events far s) (hi : s.control.incoming = [])
    (hf : far.incoming = []) (ha : far.ending = .awaited) :
    Relaying s₀ (events ++ [e]) (farAfter far e) (s.farTaken far e) := by
  obtain ⟨relayed, hw, hback⟩ := h.back
  have hforth := h.forth
  rw [hf, List.append_nil] at hback
  rw [hi, List.append_nil] at hforth
  refine ⟨h.calls, rfl, ⟨relayed, hw, ?_⟩, ?_, ?_, h.fault, h.farTakes, ?_⟩
  · simp [farAfter, hf, hback]
  · simp [farAfter, Session.farTaken, passed, hi, hforth]
  · simp [Session.farTaken, passed, h.ending]
  · intro hne
    refine ⟨e, by simp, ?_⟩
    cases e with
    | farEnds | farResets => trivial
    | _ => exact absurd ha hne

theorem Cause.more (h : Cause s₀ events s) : Cause s₀ (events ++ [e]) (s.passed [e]) := by
  rcases h with ht | ⟨e', he', hends⟩ | ⟨before, after, far, rfl, hne, hfar, hall⟩
  · exact .inl ht
  · exact .inr (.inl ⟨e', List.mem_append_left _ he', hends⟩)
  · exact .inr (.inr ⟨before, after ++ [e], far, List.append_assoc .., hne, hfar, hall⟩)

theorem Relayed.step_of_over {result : Except Failure Unit} (h : Relayed s₀ events s)
    (hp : s.phase = .over result) (hc : Cause s₀ events s) :
    Relayed s₀ (events ++ [e]) (s.step service c out e) := by
  obtain ⟨relayed, hw, hback⟩ := h.back
  rw [Session.step_of_over hp]
  refine ⟨h.calls, h.fault, ⟨relayed, hw, ?_⟩, fun far hfar => ?_, unread_passed h.unread e,
    .inr ⟨⟨result, hp⟩, hc.more⟩⟩
  · rw [heardFar_append]
    exact hback.trans (List.prefix_append ..)
  · rw [heard_append, ← List.append_assoc]
    exact (h.forth far hfar).trans (List.prefix_append ..)

/-- A far side that breaks off gets what is unread before it is gone. -/
theorem Relaying.step_of_reset (h : Relaying s₀ events far s) (hp : s.phase = .relaying)
    (hi : s.control.incoming = []) (hf : far.incoming = []) (ha : far.ending = .awaited) :
    Relayed s₀ (events ++ [.farResets]) (s.step service c out .farResets) := by
  have hr := h.farTaken (e := .farResets) hi hf ha
  have hd := hr.relayed
  have hends : ∃ e ∈ events ++ [Event.farResets], e.EndsFar := ⟨.farResets, by simp, trivial⟩
  obtain ⟨result, hover⟩ :=
    relayOn_over_of_farEnding hr.there hr.farTakes (by simp [farAfter, Event.onFarEnding])
  rw [step_of_relaying_reset hp h.there h.farTakes]
  refine ⟨hd.calls, hd.fault, hd.back, fun far hfar => ?_, hd.unread,
    .inr ⟨⟨result, hover⟩, .inr (.inl hends)⟩⟩
  cases hfar

/-- Every event keeps what has been passed on. -/
theorem Relayed.step (h : Relayed s₀ events s) (e : Event) :
    Relayed s₀ (events ++ [e]) (s.step service c out e) := by
  rcases h.stage with ⟨hp, far, hr, hi, -, hf, ha⟩ | ⟨⟨result, hp⟩, hc⟩
  · by_cases he : e = .farResets
    · subst he
      exact hr.step_of_reset hp hi hf ha
    · rw [step_of_relaying hp hr.there he]
      exact (hr.farTaken hi hf ha).relayed
  · exact h.step_of_over hp hc

theorem Relayed.trace (h : Relayed s₀ events s) (more : List Event) :
    Relayed s₀ (events ++ more) (s.trace service c out more) :=
  trace_keeps (Q := Relayed s₀) (fun _ _ e h => h.step e) h more

theorem Relayed.settle (h : Relayed s₀ events s) :
    Relayed s₀ events (s.settle service c out) := by
  rcases h.stage with ⟨hp, far, hr, -⟩ | ⟨⟨result, hp⟩, -⟩
  · rw [settle_of_relaying hp]
    exact hr.relayed
  · rwa [settle_of_over hp]

/-- A relay begins with nothing passed on. -/
theorem relaying_start (h : s₀.far? = some .idle) : Relaying s₀ [] .idle s₀ := by
  refine ⟨rfl, h, ⟨[], (List.append_nil _).symm, rfl⟩, ?_, rfl, rfl, rfl, ?_⟩
  · simp [passedOn, h]
  · intro hne
    exact absurd rfl hne

theorem relayed_start (h : s₀.far? = some .idle) : Relayed s₀ [] s₀.relayOn :=
  (relaying_start h).relayed

/-- A relay that takes every write has passed on all that the client sent, unless the far side
ended. -/
theorem Relayed.whole (h : Relayed s₀ events s) (hf : s₀.control.fault? = none)
    (ho : Orderly s₀.control.ending events) (hfar : ∀ e ∈ events, ¬e.EndsFar) :
    ∃ far, s.far? = some far ∧
      far.written = s₀.passedOn ++ s₀.control.incoming ++ heard events := by
  rcases h.stage with ⟨-, far, hr, hi, -⟩ | ⟨-, hcause⟩
  · have hforth := hr.forth
    rw [hi, List.append_nil] at hforth
    exact ⟨far, hr.there, hforth⟩
  · rcases hcause with ht | ⟨e, he, hends⟩ | ⟨before, after, far, he, hne, hthere, hall⟩
    · exact absurd (Stream.takes_of_faultless (h.fault.trans hf) 1) ht
    · exact absurd hends (hfar e he)
    · refine ⟨far, hthere, ?_⟩
      rw [hall, he, heard_append, ho before after he hne, List.append_nil]

/-- A session that relays and has passed on everything may be taken for one whose relay begins. -/
theorem Relayed.rebase (h : Relayed s₀ events s) (hp : s.phase = .relaying) : Relayed s [] s := by
  rcases h.stage with ⟨-, far, hr, hi, ha, hf, hfa⟩ | ⟨⟨result, hover⟩, -⟩
  · have hnothing : s.control.written = s.control.written ++ [] := (List.append_nil _).symm
    have hpassed : s.passedOn = far.written := by
      rw [passedOn, hr.there]
      rfl
    have hrelaying : Relaying s [] far s := by
      refine ⟨rfl, hr.there, ⟨[], hnothing, hf⟩, ?_, rfl, rfl, hr.farTakes,
        fun hne => absurd hfa hne⟩
      rw [hpassed, heard_nil, List.append_nil]
    refine ⟨rfl, rfl, ⟨[], hnothing, List.nil_prefix⟩, fun far' hfar' => ?_, ?_,
      .inl ⟨hp, far, hrelaying, hi, ha, hf, hfa⟩⟩
    · rw [hr.there] at hfar'
      cases hfar'
      rw [hpassed, heard_nil, List.append_nil]
      exact List.prefix_append ..
    · simp
  · rw [hp] at hover
    cases hover

/-- A relay that is over without failure: the far side has ended, or the client has, after all its
bytes were passed on. -/
def EndsWell (s₀ : Session) (events : List Event) (s : Session) : Prop :=
  s.phase = .over (.ok ()) → (∃ e ∈ events, e.EndsFar) ∨
    ∃ before after far, events = before ++ after ∧
      endingAfter s₀.control.ending before ≠ .awaited ∧ s.far? = some far ∧
      far.written = s₀.passedOn ++ s₀.control.incoming ++ heard before

/-- A round that ends a relay without failure has passed on all that the client sent, or has met the
end of the far side. -/
theorem Relaying.endsWell (h : Relaying s₀ events far s) : EndsWell s₀ events s.relayOn := by
  intro hover
  cases he : s.control.ending.result? with
  | some result =>
      have hne : endingAfter s₀.control.ending events ≠ .awaited := by
        rw [← h.ending]
        intro ha
        rw [ha] at he
        cases he
      rw [relayOn_of_ending h.there h.farTakes he]
      exact .inr ⟨events, [], _, (List.append_nil _).symm, hne, rfl,
        h.all_of_wrote (far.wrote s.control.incoming) rfl⟩
  | none =>
      have ha : s.control.ending = .awaited := Ending.awaited_of_result? he
      by_cases ht : s.control.Takes far.incoming.length
      · rw [relayOn_of_takes h.there h.farTakes ha ht] at hover
        refine .inl (h.farEnding fun hawaited => ?_)
        rw [hawaited] at hover
        cases hover
      · obtain ⟨fault, k, -, -, hcut⟩ := relayOn_of_not_takes h.there h.farTakes ha ht
        rw [hcut] at hover
        cases hover

theorem EndsWell.step (h : EndsWell s₀ events s) (hr : Relayed s₀ events s) (e : Event) :
    EndsWell s₀ (events ++ [e]) (s.step service c out e) := by
  intro hover
  rcases hr.stage with ⟨hp, far, hrelaying, hi, -, hf, ha⟩ | ⟨⟨result, hp⟩, -⟩
  · by_cases he : e = .farResets
    · exact .inl ⟨e, by simp, he ▸ trivial⟩
    · rw [step_of_relaying hp hrelaying.there he] at hover ⊢
      exact (hrelaying.farTaken hi hf ha).endsWell hover
  · rw [Session.step_of_over hp] at hover ⊢
    rcases h hover with ⟨e', he', hends⟩ | ⟨before, after, far, rfl, hne, hfar, hall⟩
    · exact .inl ⟨e', List.mem_append_left _ he', hends⟩
    · exact .inr ⟨before, after ++ [e], far, List.append_assoc .., hne, hfar, hall⟩

/-- How a relay has ended, if it has ended without failure. -/
theorem endsWell_trace (h : s₀.far? = some .idle) (events : List Event) :
    EndsWell s₀ events (s₀.relayOn.trace service c out events) := by
  have hstart : Relaying s₀ [] .idle s₀ := relaying_start h
  exact (trace_keeps (Q := fun events s => Relayed s₀ events s ∧ EndsWell s₀ events s)
    (fun _ _ e h => ⟨h.1.step e, h.2.step h.1 e⟩) ⟨hstart.relayed, hstart.endsWell⟩ events).2

/-! ### An association in the course of events -/

/-- What a session has come to, some events after an association began at `s₀`: it has looked up
names, and nothing was written on the control stream. -/
structure Attended (s₀ : Session) (events : List Event) (s : Session) : Prop where
  calls : ∃ hosts : List String, s.calls = s₀.calls ++ hosts.map Call.resolve
  written : s.control.written = s₀.control.written
  fault : s.control.fault? = s₀.control.fault?
  far : s.far? = s₀.far?
  unread : s.control.incoming <:+ s₀.control.incoming ++ heard events
  stage : (∃ a, s.phase = .associated a) ∨ ∃ result, s.phase = .over result

/-- What an association does are look-ups and datagrams. -/
theorem act_eq (s : Session) (actions : List Association.Action) :
    s.act actions =
      { s with
        calls := s.calls ++ (Association.lookups actions).map Call.resolve
        sent := s.sent ++ Association.sendings actions } := by
  induction actions generalizing s with
  | nil => simp [act]
  | cons action actions ih =>
      cases action with
      | lookup host =>
          have hrest := ih (s.record (.resolve host))
          simpa [act, record, Association.lookups, Association.sendings] using hrest
      | send d =>
          have hrest := ih { s with sent := s.sent ++ [d] }
          simpa [act, Association.lookups, Association.sendings] using hrest

theorem Attended.act (h : Attended s₀ events s) (actions : List Association.Action) :
    Attended s₀ events (s.act actions) := by
  obtain ⟨hosts, hcalls⟩ := h.calls
  rw [act_eq]
  exact ⟨⟨hosts ++ Association.lookups actions, by simp [hcalls]⟩, h.written, h.fault, h.far,
    h.unread, h.stage⟩

theorem Attended.withAssociation (h : Attended s₀ events s) (a : Association) :
    Attended s₀ events { s with phase := .associated a } :=
  ⟨h.calls, h.written, h.fault, h.far, h.unread, .inl ⟨a, rfl⟩⟩

theorem watch_eq (s : Session) (a : Association) :
    s.watch a =
      { s with
        control := s.control.drained
        phase := if s.control.ending = .awaited then .associated a else .over a.result } := by
  obtain ⟨⟨incoming, ending, written, readChunk?, writeChunk?, fault?⟩, _⟩ := s
  cases ending <;> rfl

theorem Attended.watch (h : Attended s₀ events s) (a : Association) :
    Attended s₀ events (s.watch a) := by
  rw [watch_eq]
  refine ⟨h.calls, h.written, h.fault, h.far, List.nil_suffix, ?_⟩
  by_cases he : s.control.ending = .awaited
  · exact .inl ⟨a, if_pos he⟩
  · exact .inr ⟨_, if_neg he⟩

theorem Attended.passed (h : Attended s₀ events s) (e : Event) :
    Attended s₀ (events ++ [e]) (s.passed [e]) :=
  ⟨h.calls, h.written, h.fault, h.far, unread_passed h.unread e, h.stage⟩

theorem Attended.settle (h : Attended s₀ events s) :
    Attended s₀ events (s.settle service c out) := by
  rcases h.stage with ⟨a, hp⟩ | ⟨result, hp⟩
  · simp only [Session.settle, hp]
    exact h.watch a
  · rwa [settle_of_over hp]

/-- Every event keeps an association from the control stream. -/
theorem Attended.step (h : Attended s₀ events s) (e : Event) :
    Attended s₀ (events ++ [e]) (s.step service c out e) := by
  refine Attended.settle ?_
  have hpassed := h.passed e
  rcases h.stage with ⟨a, hp⟩ | ⟨result, hp⟩
  · by_cases hc : e.Common
    · rwa [take_of_common hc]
    · rw [passed_of_not_common hc] at hpassed
      cases e with
      | clientSends | clientEnds | clientBreaks | timePasses => exact absurd trivial hc
      | resolved | innerReceives =>
          simp only [take, hp, associate]
          exact (hpassed.withAssociation _).act _
      | outerReceives =>
          simp only [take, hp]
          exact hpassed.act _
      | innerFails | outerFails =>
          simp only [take, hp]
          exact hpassed.withAssociation _
      | _ => simpa only [take, hp] using hpassed
  · rwa [take_of_over hp]

theorem Attended.trace (h : Attended s₀ events s) (more : List Event) :
    Attended s₀ (events ++ more) (s.trace service c out more) :=
  trace_keeps (Q := Attended s₀) (fun _ _ e h => h.step e) h more

theorem attended_start (s₀ : Session) (a : Association) : Attended s₀ [] (s₀.watch a) := by
  have h : Attended s₀ [] { s₀ with phase := .associated a } :=
    ⟨⟨[], by simp⟩, rfl, rfl, rfl, by simp, .inl ⟨a, rfl⟩⟩
  exact h.watch a

end Session

end Socks
