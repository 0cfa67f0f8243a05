import Socks.Proofs.Session.HandedOver

/-!
# Sessions that carry out a plan

`Session.Stands` says where a session stands, some events after it began to carry out a plan: it
waits for an answer or has come to the end of the plan, a reply of the plan could not be written, or
the plan has handed the control stream over.

Main statements: to carry out a plan leads to such a place (`Session.stands_pursue`), and every
event leads from one such place to another (`Session.Stands.step`, `Session.Stands.trace`).
-/

namespace Socks

namespace Session

variable {service : Service} {c : Connection} {out : Surroundings} {rules : Rules} {p q q' : Plan}
  {s₀ s : Session} {events : List Event}

/-- Where a session stands that began to carry out the plan `p` at `s₀`. -/
inductive Stands (rules : Rules) (p : Plan) (s₀ : Session) (events : List Event) (s : Session) :
    Prop
  | waits {cs : List Call} {ms : List Reply} {met : Bool} {q : Plan} {phase : Phase} :
      p.Course rules cs ms met q → Awaits q phase →
      s = { (s₀.passed events).went (cs ++ q.asks) ms met with phase := phase } →
        Stands rules p s₀ events s
  | cut {cs : List Call} {ms : List Reply} {met : Bool} {m : Reply} {next : Plan} {part : Bytes}
      {e : IoError} :
      p.Course rules cs ms met (.reply m next) → part <+: m.bytes → part ≠ m.bytes →
      ¬s.control.Takes 1 →
      s = { (s₀.passed events).went cs ms met with
            control := ((s₀.passed events).went cs ms met).control.wrote part
            phase := .over (.error (.transport e)) } →
        Stands rules p s₀ events s
  | relays {before after : List Event} {cs : List Call} {ms : List Reply} {phase : Phase} :
      events = before ++ after → p.Course rules cs ms true .relay →
      Relayed { (s₀.passed before).went cs ms true with phase := phase } after s →
        Stands rules p s₀ events s
  | associates {before after : List Event} {cs : List Call} {ms : List Reply} {met : Bool}
      {sockets : Sockets} {phase : Phase} :
      events = before ++ after → p.Course rules cs ms met (.associate sockets) →
      Attended { (s₀.passed before).went cs ms met with phase := phase } after s →
        Stands rules p s₀ events s

/-- A session that has come to the plan `q` while it carries out `p`. -/
def On (rules : Rules) (p : Plan) (s₀ : Session) (events : List Event) (q : Plan) (s : Session) :
    Prop :=
  ∃ cs ms met phase, p.Course rules cs ms met q ∧
    s = { (s₀.passed events).went cs ms met with phase := phase }

theorem On.step {cs : List Call} {ms : List Reply} {met : Bool} (h : On rules p s₀ events q s)
    (hs : q.Step rules cs ms met q') : On rules p s₀ events q' (s.went cs ms met) := by
  obtain ⟨cs₀, ms₀, met₀, phase, hc, rfl⟩ := h
  refine ⟨_, _, _, phase, hc.append hs.course, ?_⟩
  rw [← went_went]
  rfl

theorem On.call {call : Call} (h : On rules p s₀ events q s)
    (hs : q.Step rules [call] [] false q') : On rules p s₀ events q' (s.record call) := by
  rw [← went_call]
  exact h.step hs

theorem On.waits {phase : Phase} (h : On rules p s₀ events q s) (ha : Awaits q phase) :
    Stands rules p s₀ events { s.went q.asks [] false with phase := phase } := by
  obtain ⟨cs, ms, met, phase₀, hc, rfl⟩ := h
  refine .waits hc ha ?_
  have hwent := went_went (s₀.passed events) cs q.asks ms [] met false
  rw [List.append_nil, Bool.or_false] at hwent
  rw [← hwent]
  rfl

theorem On.cut {m : Reply} {next : Plan} {part : Bytes} {e : IoError}
    (h : On rules p s₀ events (.reply m next) s) (hp : part <+: m.bytes) (hne : part ≠ m.bytes)
    (ht : ¬(s.control.wrote part).Takes 1) :
    Stands rules p s₀ events
      { s with control := s.control.wrote part, phase := .over (.error (.transport e)) } := by
  obtain ⟨cs, ms, met, phase, hc, rfl⟩ := h
  exact .cut hc hp hne ht rfl

/-- A reply that cannot be written whole is cut off, and then nothing more can be written. -/
theorem On.reply_of_not_takes {m : Reply} {next : Plan} (h : On rules p s₀ events (.reply m next) s)
    (ht : ¬s.control.Takes m.bytes.length) :
    Stands rules p s₀ events (pursue out rules (.reply m next) s) := by
  obtain ⟨fault, hf, hlt, e⟩ := Stream.writeAll_of_not_takes ht
  simp only [pursue, e]
  have hpart : m.bytes.take (fault.after - s.control.written.length) <+: m.bytes :=
    List.take_prefix ..
  exact h.cut hpart (Stream.take_ne_self hlt) (Stream.not_takes_wrote hf hlt)

theorem On.far (h : On rules p s₀ events .relay s) (hg : p.Grounded false) :
    s.far? = some .idle := by
  obtain ⟨cs, ms, met, phase, hc, rfl⟩ := h
  have hmet : met = true := hc.grounded hg
  simp [went, hmet]

theorem On.relays (h : On rules p s₀ events .relay s) (hg : p.Grounded false) :
    Stands rules p s₀ events s.relayOn := by
  have hr := relayed_start (h.far hg)
  obtain ⟨cs, ms, met, phase, hc, rfl⟩ := h
  obtain rfl : met = true := hc.grounded hg
  exact .relays (List.append_nil _).symm hc hr

theorem On.associates {sockets : Sockets} (h : On rules p s₀ events (.associate sockets) s)
    (a : Association) : Stands rules p s₀ events (s.watch a) := by
  have ha := attended_start s a
  obtain ⟨cs, ms, met, phase, hc, rfl⟩ := h
  exact .associates (List.append_nil _).symm hc ha

/-- To carry out what is left of a plan leads to one of the places where a session stands. -/
theorem stands_pursue (hg : p.Grounded false) (h : On rules p s₀ events q s) :
    Stands rules p s₀ events (pursue out rules q s) := by
  induction q generalizing s with
  | finish result => simpa [Plan.asks, pursue, finish] using h.waits (.finish result)
  | consult request next ih =>
      simp only [pursue]
      exact ih _ (h.call (.consult request next))
  | reply m next ih =>
      by_cases ht : s.control.Takes m.bytes.length
      · simp only [pursue, Stream.writeAll_of_takes ht]
        refine ih ?_
        simpa [went] using h.step (.reply m next)
      · exact h.reply_of_not_takes ht
  | resolve host next ih =>
      simp only [pursue]
      cases out.resolve host with
      | some answer => exact ih _ (h.call (.resolve host next answer))
      | none => simpa only [Plan.asks, went_call] using h.waits (.resolve host next)
  | dial destination next ih =>
      simp only [pursue]
      cases out.dial destination with
      | none => simpa only [Plan.asks, went_call] using h.waits (.dial destination next)
      | some answer =>
          cases answer with
          | ok here =>
              refine ih _ ?_
              have hreached := h.step (.reached destination next here)
              simpa [went, reach, record, Stream.wrote] using hreached
          | error e => exact ih _ (h.call (.unreached destination next e))
  | listen place next ih =>
      simp only [pursue]
      cases out.listen place with
      | some answer => exact ih _ (h.call (.listen place next answer))
      | none => simpa only [Plan.asks, went_call] using h.waits (.listen place next)
  | openSocket place next ih =>
      simp only [pursue]
      cases out.openSocket s.socketsOpened place with
      | some answer => exact ih _ (h.call (.openSocket place next answer))
      | none => simpa only [Plan.asks, went_call] using h.waits (.openSocket place next)
  | accept limit next ih =>
      simp only [pursue]
      split_ifs
      · refine ih _ ?_
        simpa using h.step (.uncalled limit next)
      · simpa [Plan.asks] using h.waits (.accept limit next _)
  | relay => exact h.relays hg
  | associate sockets => exact h.associates _

/-- A plan that has not begun is the one that the session is on. -/
theorem on_start (p : Plan) (s₀ : Session) : On rules p s₀ [] p s₀ :=
  ⟨[], [], false, s₀.phase, .here p, by simp⟩

/-- Standing does not change when the session goes on by itself. -/
theorem Stands.settle (hg : p.Grounded false) (h : Stands service.rules p s₀ events s) :
    Stands service.rules p s₀ events (s.settle service c out) := by
  cases h with
  | @waits cs ms met q phase hc ha hs =>
      have hp : s.phase = phase := by rw [hs]
      rcases @settle_of_awaits service c out s q phase hp ha with e | ⟨q', hstep, e⟩
      · rw [e]
        exact .waits hc ha hs
      · rw [e]
        refine stands_pursue hg ⟨_, _, _, phase, hc.append hstep.course, ?_⟩
        simpa using hs
  | cut hc hp hne ht hs =>
      rw [settle_of_over (by rw [hs])]
      exact .cut hc hp hne ht hs
  | relays he hc hr => exact .relays he hc hr.settle
  | associates he hc ha => exact .associates he hc ha.settle

/-- A session that waits for an answer lets an event pass, or goes on with the answer. -/
theorem stands_take_of_awaits {cs : List Call} {ms : List Reply} {met : Bool} {phase : Phase}
    (hg : p.Grounded false) (hc : p.Course service.rules cs ms met q) (ha : Awaits q phase)
    (hs : s = { (s₀.passed events).went (cs ++ q.asks) ms met with phase := phase }) (e : Event) :
    Stands service.rules p s₀ (events ++ [e]) (s.take service out e) := by
  have hp : s.phase = phase := by rw [hs]
  have hpassed : s.passed [e] =
      { (s₀.passed (events ++ [e])).went (cs ++ q.asks) ms met with phase := phase } := by
    rw [hs, ← passed_passed]
    rfl
  rcases @take_of_awaits service out s e q phase hp ha with h | ⟨met', q', hstep, hsame, h⟩
  · rw [h]
    exact .waits hc ha hpassed
  · rw [h]
    refine stands_pursue hg ⟨_, _, _, phase, hc.append hstep.course, ?_⟩
    have hwent := went_went (s₀.passed (events ++ [e])) (cs ++ q.asks) [] ms [] met met'
    rw [List.append_nil] at hwent
    rw [← hsame, hpassed, ← hwent]
    rfl

/-- Every event leads from one place where a session stands to another. -/
theorem Stands.step (hg : p.Grounded false) (h : Stands service.rules p s₀ events s) (e : Event) :
    Stands service.rules p s₀ (events ++ [e]) (s.step service c out e) := by
  cases h with
  | waits hc ha hs => exact (stands_take_of_awaits hg hc ha hs e).settle hg
  | @cut cs ms met m next part error hc hp hne ht hs =>
      rw [step_of_over (by rw [hs])]
      refine .cut (e := error) hc hp hne ht ?_
      rw [hs, ← passed_passed]
      rfl
  | relays he hc hr => exact .relays (by rw [he, List.append_assoc]) hc (hr.step e)
  | associates he hc ha => exact .associates (by rw [he, List.append_assoc]) hc (ha.step e)

theorem Stands.trace (hg : p.Grounded false) (h : Stands service.rules p s₀ events s)
    (more : List Event) : Stands service.rules p s₀ (events ++ more) (s.trace service c out more) :=
  trace_keeps (Q := Stands service.rules p s₀) (fun _ _ e h => h.step hg e) h more

/-- Some events after a session began to carry out a plan, it stands in one of these places. -/
theorem stands_trace (hg : p.Grounded false) (s₀ : Session) (events : List Event) :
    Stands service.rules p s₀ events
      ((pursue out service.rules p s₀).trace service c out events) :=
  (stands_pursue hg (on_start p s₀)).trace hg events

/-! ### What a session shows that carries out a plan -/

/-- The calls of a session are those of its plan, what it waits for, and the look-ups of an
association. It does not rest where the rules are to be asked. -/
theorem Stands.calls (h : Stands rules p s₀ events s) :
    ∃ cs ms met q, ∃ hosts : List String, p.Course rules cs ms met q ∧
      (∀ r next, q ≠ .consult r next) ∧
      s.calls = s₀.calls ++ (cs ++ q.asks ++ hosts.map Call.resolve) ∧
      (hosts ≠ [] → ∃ sockets, q = .associate sockets) := by
  cases h with
  | @waits cs ms met q phase hc ha hs =>
      refine ⟨cs, ms, met, q, [], hc, ?_, ?_, fun hne => absurd rfl hne⟩
      · rintro r next rfl
        cases ha
      · rw [hs]
        simp [went, passed]
  | cut hc hp hne ht hs =>
      refine ⟨_, _, _, _, [], hc, by simp, ?_, fun hne => absurd rfl hne⟩
      rw [hs]
      simp [went, passed, Plan.asks]
  | relays he hc hr =>
      refine ⟨_, _, _, _, [], hc, by simp, ?_, fun hne => absurd rfl hne⟩
      rw [hr.calls]
      simp [went, passed, Plan.asks]
  | associates he hc ha =>
      obtain ⟨hosts, hcalls⟩ := ha.calls
      refine ⟨_, _, _, _, hosts, hc, by simp, ?_, fun _ => ⟨_, rfl⟩⟩
      rw [hcalls]
      simp [went, passed, Plan.asks]

/-- What has reached the far side is a first part of what the client sent after its request. -/
theorem Stands.forth (h : Stands rules p s₀ events s) (hfar : s₀.far? = none) :
    ∀ far, s.far? = some far → far.written <+: s₀.control.incoming ++ heard events := by
  -- A far side that nothing has been relayed to has received nothing.
  have hidle : ∀ (met : Bool) (far : Stream),
      (if met then some .idle else s₀.far?) = some far → far.written = [] := by
    intro met far h
    cases met with
    | true => cases h; rfl
    | false =>
        rw [if_neg (by decide), hfar] at h
        cases h
  intro far hthere
  cases h with
  | waits hc ha hs =>
      rw [hs] at hthere
      rw [hidle _ far hthere]
      exact List.nil_prefix
  | cut hc hp hne ht hs =>
      rw [hs] at hthere
      rw [hidle _ far hthere]
      exact List.nil_prefix
  | relays he hc hr =>
      have hforth := hr.forth far hthere
      rw [he, heard_append, ← List.append_assoc]
      exact hforth
  | associates he hc ha =>
      rw [ha.far] at hthere
      rw [hidle _ far hthere]
      exact List.nil_prefix

/-- What is left unread was sent after the request. -/
theorem Stands.unread (h : Stands rules p s₀ events s) :
    s.control.incoming <:+ s₀.control.incoming ++ heard events := by
  cases h with
  | waits hc ha hs =>
      rw [hs]
      exact List.suffix_refl _
  | cut hc hp hne ht hs =>
      rw [hs]
      exact List.suffix_refl _
  | relays he hc hr =>
      rw [he, heard_append, ← List.append_assoc]
      exact hr.unread
  | associates he hc ha =>
      rw [he, heard_append, ← List.append_assoc]
      exact ha.unread

theorem Stands.fault (h : Stands rules p s₀ events s) :
    s.control.fault? = s₀.control.fault? := by
  cases h with
  | waits hc ha hs => rw [hs]; rfl
  | cut hc hp hne ht hs => rw [hs]; rfl
  | relays he hc hr => exact hr.fault
  | associates he hc ha => exact ha.fault

/-- On a stream that takes every write, a session has given all replies of its plan whole, and after
them only what the far side of a relay has sent. -/
theorem Stands.written (h : Stands rules p s₀ events s) (hf : s₀.control.fault? = none) :
    ∃ cs ms met q relayed late, p.Course rules cs ms met q ∧
      s.control.written = s₀.control.written ++ ms.flatMap Reply.bytes ++ relayed ∧
      late <:+ events ∧ relayed <+: heardFar late ∧ (relayed ≠ [] → q = .relay) := by
  cases h with
  | waits hc ha hs =>
      refine ⟨_, _, _, _, [], [], hc, ?_, List.nil_suffix, List.nil_prefix,
        fun hne => absurd rfl hne⟩
      rw [hs]
      simp [went, passed, Stream.wrote]
  | cut hc hp hne ht hs =>
      refine absurd (Stream.takes_of_faultless ?_ 1) ht
      rw [hs]
      exact hf
  | @relays before after cs ms phase he hc hr =>
      obtain ⟨relayed, hw, hback⟩ := hr.back
      refine ⟨_, _, _, _, relayed, after, hc, ?_, ⟨before, he.symm⟩, hback, fun _ => rfl⟩
      rw [hw]
      simp [went, passed, Stream.wrote]
  | associates he hc ha =>
      refine ⟨_, _, _, _, [], [], hc, ?_, List.nil_suffix, List.nil_prefix,
        fun hne => absurd rfl hne⟩
      rw [ha.written]
      simp [went, passed, Stream.wrote]

/-! ### Replies that are taken -/

section replies

variable {control : Stream} {before : List Event}

/-- The session after a reply. -/
def replied (s : Session) (m : Reply) : Session := { s with control := s.control.wrote m.bytes }

theorem pursue_reply {m : Reply} (ht : s.control.Takes m.bytes.length)
    (next : Plan) :
    pursue out rules (.reply m next) s = pursue out rules next (s.replied m) := by
  simp only [pursue, Stream.writeAll_of_takes ht]
  rfl

/-- A reply that is not taken whole is cut off, and that is the end. -/
theorem pursue_reply_of_not_takes {m : Reply} (ht : ¬s.control.Takes m.bytes.length)
    (next : Plan) :
    ∃ fault, s.control.fault? = some fault ∧
      fault.after - s.control.written.length < m.bytes.length ∧
      pursue out rules (.reply m next) s =
        { s with
          control := s.control.wrote (m.bytes.take (fault.after - s.control.written.length))
          phase := .over (.error (.transport fault.error)) } := by
  obtain ⟨fault, hf, hlt, e⟩ := Stream.writeAll_of_not_takes ht
  refine ⟨fault, hf, hlt, ?_⟩
  simp only [pursue, e]
  rfl

theorem pursue_giveUp {v : Version} {status : Status} (f : Failure)
    (ht : s.control.Takes (Reply.bare v status).bytes.length) :
    pursue out rules (.giveUp v status f) s =
      (s.replied (.bare v status)).finish (.error f) := by
  rw [Plan.giveUp, pursue_reply ht]
  rfl

/-- A session that began with the stream `control`, when some events have happened and it has given
some replies. -/
structure Replied (control : Stream) (before : List Event) (ms : List Reply) (s : Session) :
    Prop where
  control : s.control = (control.passed before).wrote (ms.flatMap Reply.bytes)
  far : ∀ far, s.far? = some far → far = .idle

/-- A session that has told its client nothing has only let the events pass. -/
theorem Replied.control_eq (h : Replied control before [] s) :
    s.control = control.passed before := by
  rw [h.control]
  simp [Stream.wrote]

theorem Replied.takes_iff (h : Replied control before [] s) (n : Nat) :
    s.control.Takes n ↔ control.Takes n := by
  rw [h.control_eq]
  rfl

theorem Replied.passed {ms : List Reply} (h : Replied control before ms s) (events : List Event) :
    Replied control (before ++ events) ms (s.passed events) := by
  refine ⟨?_, h.far⟩
  have hpassed : (s.passed events).control = s.control.passed events := rfl
  rw [hpassed, h.control, ← Stream.passed_passed]
  rfl

theorem Replied.reply {ms : List Reply} (h : Replied control before ms s) (m : Reply) :
    Replied control before (ms ++ [m]) (s.replied m) := by
  refine ⟨?_, h.far⟩
  rw [List.flatMap_append, List.flatMap_singleton, ← Stream.wrote_wrote, ← h.control]
  rfl

/-- What can be written after some replies could be written with them from the start. -/
theorem Replied.takes {ms more : List Reply} (h : Replied control before ms s)
    (ht : control.Takes ((ms ++ more).flatMap Reply.bytes).length) :
    s.control.Takes (more.flatMap Reply.bytes).length := by
  rw [List.flatMap_append] at ht
  rw [h.control]
  exact Stream.takes_wrote_of_append (s := control.passed before) ht

/-- To carry out an allowed request is to carry out its command. -/
theorem pursue_ofRequest {limit : UInt64} {here? : Option IpAddress} {r : Request}
    (h : rules r = true) (s : Session) :
    pursue out rules (.ofRequest limit here? r) s =
      pursue out rules (.perform limit here? r) (s.record (.rules r true)) := by
  simp only [Plan.ofRequest, pursue, h, if_true]

end replies

end Session

end Socks
