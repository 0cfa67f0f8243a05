import Socks.Proofs.BindProtocol
import Socks.Proofs.Session.Callers

/-!
# Sessions that wait for a caller

A session that carries out a BIND waits for its listener and then for a caller, and may have to give
up. Until a caller is taken up nothing happens but that the client is told so.

Main statements: what is not a caller's doing leaves a session without a caller
(`Session.Bides.step`), and a caller that is taken up is turned away or relayed
(`Session.Bides.called`).
-/

namespace Socks

namespace Plan

variable {limit : UInt64} {r : Request} {bound : Endpoint}

theorem grounded_received :
    (Plan.accept limit (received limit r bound)).Grounded false :=
  ⟨grounded_welcome, grounded_giveUp .., fun _ => grounded_giveUp ..⟩

theorem grounded_listened (answer : Except IoError (Except IoError Endpoint)) :
    (listened limit r answer).Grounded false := by
  cases answer with
  | ok bound? =>
      cases bound? with
      | ok bound => exact grounded_received
      | error e => trivial
  | error e => exact grounded_giveUp ..

/-- A wait that brings no caller makes a BIND give up. -/
theorem received_of_nobody {answer : Except IoError (Option Endpoint)}
    (h : ∀ caller, answer ≠ .ok (some caller)) :
    ∃ status f, received limit r bound answer = giveUp r.version status f := by
  cases answer with
  | error e => exact ⟨_, _, rfl⟩
  | ok caller? =>
      cases caller? with
      | none => exact ⟨_, _, rfl⟩
      | some caller => exact absurd rfl (h caller)

end Plan

namespace Session

variable {service : Service} {c : Connection} {out : Surroundings} {rules : Rules} {r : Request}
  {control : Stream} {s : Session} {events : List Event} {ms : List Reply} {bound : Endpoint}

/-! ### Before anybody is relayed -/

/-- At most two replies, in the version of the request. -/
def RepliesTo (r : Request) (ms : List Reply) : Prop :=
  ms.length ≤ 2 ∧ ∀ m ∈ ms, m.version = r.version

/-- A client has been told nothing but a first part of the replies to its request. -/
def ToldReplies (r : Request) (control : Stream) (s : Session) : Prop :=
  ∃ told ms, s.control.written = control.written ++ told ∧ RepliesTo r ms ∧
    told <+: ms.flatMap Reply.bytes

/-- A session that is over with a failure and has told its client nothing but a first part of the
replies. Nothing has been relayed. -/
structure Ceased (r : Request) (control : Stream) (s : Session) : Prop where
  failed : ∃ f, s.phase = .over (.error f)
  told : ToldReplies r control s
  far : ∀ far, s.far? = some far → far = .idle

/-- To give a reply is to be cut off, or to go on. -/
theorem Replied.ceased_or_goes_on {m : Reply} (h : Replied control events ms s)
    (hm : RepliesTo r (ms ++ [m])) (next : Plan) :
    Ceased r control (pursue out rules (.reply m next) s) ∨
      pursue out rules (.reply m next) s = pursue out rules next (s.replied m) := by
  by_cases ht : s.control.Takes m.bytes.length
  · exact .inr (pursue_reply ht next)
  · obtain ⟨fault, -, -, hcut⟩ := pursue_reply_of_not_takes ht next
    rw [hcut]
    refine .inl ⟨⟨_, rfl⟩, ⟨ms.flatMap Reply.bytes ++
      m.bytes.take (fault.after - s.control.written.length), ms ++ [m], ?_, hm, ?_⟩, h.far⟩
    · rw [h.control, ← List.append_assoc]
      rfl
    · rw [List.flatMap_append, List.flatMap_singleton, List.prefix_append_right_inj]
      exact List.take_prefix ..

theorem Replied.told (h : Replied control events ms s) (hms : RepliesTo r ms) :
    ToldReplies r control s := by
  refine ⟨ms.flatMap Reply.bytes, ms, ?_, hms, List.prefix_refl _⟩
  rw [h.control]
  rfl

theorem Replied.ceased_giveUp {status : Status} {f : Failure} (h : Replied control events ms s)
    (hms : RepliesTo r (ms ++ [.bare r.version status])) :
    Ceased r control (pursue out rules (.giveUp r.version status f) s) := by
  rcases @Replied.ceased_or_goes_on out rules r control s events ms _ h hms
    (.finish (.error f)) with hcut | hgoes
  · exact hcut
  · have hreplied := h.reply (.bare r.version status)
    rw [Plan.giveUp, hgoes]
    exact ⟨⟨f, rfl⟩, hreplied.told hms, hreplied.far⟩

theorem repliesTo_one {m : Reply} (h : m.version = r.version) : RepliesTo r [m] :=
  ⟨by simp, by simpa using h⟩

theorem repliesTo_two {m m' : Reply} (h : m.version = r.version) (h' : m'.version = r.version) :
    RepliesTo r [m, m'] :=
  ⟨by simp, by simp [h, h']⟩

theorem Ceased.trace (h : Ceased r control s) (events : List Event) :
    Ceased r control (s.trace service c out events) := by
  obtain ⟨f, hp⟩ := h.failed
  rw [trace_of_over events hp]
  exact ⟨⟨f, hp⟩, h.told, h.far⟩

/-- A session that has relayed nothing has passed nothing on. -/
theorem Ceased.passedOn_eq (h : Ceased r control s) : s.passedOn = [] := by
  unfold passedOn
  cases hfar : s.far? with
  | none => rfl
  | some far =>
      rw [h.far far hfar]
      rfl

/-- A session that carries out a BIND and has taken up nobody: its listener is awaited, or a caller
is, or it has given up. -/
inductive Bides (limit : UInt64) (r : Request) (control : Stream) (events : List Event)
    (s : Session) : Prop
  | listening : Replied control events [] s → s.phase = .listening (.listened limit r) →
      Bides limit r control events s
  | waiting {bound : Endpoint} {deadline : Nat} :
      Replied control events [.granted r.version bound] s →
      s.phase = .accepting (.received limit r bound) deadline → Bides limit r control events s
  | ceased : Ceased r control s → Bides limit r control events s

variable {limit : UInt64}

/-- The answer about a listener makes a BIND wait for callers, or give up. -/
theorem Replied.bides_listened (h : Replied control events [] s)
    (answer : Except IoError (Except IoError Endpoint)) :
    Bides limit r control events (pursue out rules (.listened limit r answer) s) := by
  cases answer with
  | error e => exact .ceased (h.ceased_giveUp (repliesTo_one rfl))
  | ok bound? =>
      cases bound? with
      | error e => exact .ceased ⟨⟨_, rfl⟩, h.told ⟨Nat.zero_le _, by simp⟩, h.far⟩
      | ok bound =>
          have hone : RepliesTo r [.granted r.version bound] := repliesTo_one rfl
          rcases @Replied.ceased_or_goes_on out rules r control s events [] _ h hone
            (.accept limit (.received limit r bound)) with hcut | hgoes
          · exact .ceased hcut
          · have hreplied := h.reply (.granted r.version bound)
            rw [Plan.listened, hgoes, pursue]
            split_ifs
            · exact .ceased (hreplied.ceased_giveUp (repliesTo_two rfl rfl))
            · exact .waiting ⟨hreplied.control, hreplied.far⟩ rfl

theorem bides_pursue {here? : Option IpAddress} (hcommand : r.command = .bind)
    (hfar : s.far? = none) :
    Bides limit r s.control [] (pursue out rules (.ofRequest limit here? r) s) := by
  have hnothing : ∀ s' : Session, s'.control = s.control → s'.far? = s.far? →
      Replied s.control [] [] s' := by
    intro s' hcontrol hsame
    refine ⟨?_, fun far hthere => ?_⟩
    · simp [hcontrol, Stream.passed, Stream.wrote]
    · rw [hsame, hfar] at hthere
      cases hthere
  by_cases hr : rules r = true
  · have hasked := hnothing
      ((s.record (.rules r true)).record (.listen ⟨here?.getD .anyV4, 0⟩)) rfl rfl
    rw [pursue_ofRequest hr, Plan.perform, hcommand]
    dsimp only
    rw [Plan.bind_eq, pursue]
    split
    · exact hasked.bides_listened _
    · exact .listening ⟨hasked.control, hasked.far⟩ rfl
  · simp only [Plan.ofRequest, pursue, hr]
    exact .ceased ((hnothing (s.record (.rules r false)) rfl rfl).ceased_giveUp
      (repliesTo_one rfl))

theorem phase_of_result? {result : Except Failure Unit} (h : s.result? = some result) :
    s.phase = .over result := by
  unfold result? at h
  split at h
  · rename_i result' hp
    cases h
    exact hp
  · cases h

theorem awaitsCaller_of_accepting {next : Except IoError (Option Endpoint) → Plan}
    {deadline : Nat} (hp : s.phase = .accepting next deadline) : s.awaitsCaller = true := by
  rw [awaitsCaller, hp]

/-- What lets a session that waits for a caller go on, if it is not a caller. -/
theorem continuation?_of_nobody {next : Except IoError (Option Endpoint) → Plan} {q : Plan}
    {clock deadline : Nat} {met : Bool} {e : Event} (he : ¬e.OfCaller)
    (h : continuation? clock (.accepting next deadline) e = some (q, met)) :
    met = false ∧ ∃ answer, (∀ caller, answer ≠ .ok (some caller)) ∧ q = next answer := by
  cases e with
  | calledBy => exact absurd trivial he
  | acceptFails error =>
      cases h
      exact ⟨rfl, .error error, by simp, rfl⟩
  | _ =>
      simp only [continuation?, answered?, expired?, Option.map_eq_some_iff] at h
      obtain ⟨q', hq, hmet⟩ := h
      rw [Option.ite_none_right_eq_some] at hq
      obtain ⟨-, hq⟩ := hq
      cases hq
      cases hmet
      exact ⟨rfl, .ok none, by simp, rfl⟩

/-- What is not a caller's doing leaves a session without a caller. -/
theorem Bides.step {e : Event} (h : Bides service.bindLimit r control events s)
    (he : ¬e.OfCaller) :
    Bides service.bindLimit r control (events ++ [e]) (s.step service c out e) := by
  cases h with
  | listening hr hp =>
      rw [step_of_listenerAwaited Plan.grounded_listened s e hp]
      cases e.listened? with
      | some answer => exact (hr.passed [e]).bides_listened answer
      | none => exact .listening (hr.passed [e]) hp
  | @waiting bound deadline hr hp =>
      have hwaits : Awaits (.accept service.bindLimit (.received service.bindLimit r bound))
          s.phase := by
        rw [hp]
        exact .accept _ _ _
      rw [step_of_awaits hwaits Plan.grounded_received (by simp), hp]
      cases hgoes : continuation? (s.passed [e]).clock
          (.accepting (.received service.bindLimit r bound) deadline) e with
      | none => exact .waiting (hr.passed [e]) hp
      | some answer =>
          obtain ⟨q, met⟩ := answer
          obtain ⟨rfl, answer, hnobody, rfl⟩ := continuation?_of_nobody he hgoes
          obtain ⟨status, f, hgiveUp⟩ :=
            @Plan.received_of_nobody service.bindLimit r bound answer hnobody
          dsimp only
          rw [went_nothing, hgiveUp]
          exact .ceased ((hr.passed [e]).ceased_giveUp (repliesTo_two rfl rfl))
  | ceased hc => exact .ceased (hc.trace [e])

/-- A call that is not awaited is lost. -/
theorem Bides.not_called (h : Bides service.bindLimit r control events s)
    (hno : s.awaitsCaller = false) (place : Endpoint) :
    s.step service c out (.calledBy place) = s := by
  cases h with
  | listening hr hp =>
      rw [step_of_listenerAwaited Plan.grounded_listened s _ hp, passed_of_not_common id]
      rfl
  | waiting hr hp =>
      rw [awaitsCaller_of_accepting hp] at hno
      cases hno
  | ceased hc =>
      obtain ⟨f, hp⟩ := hc.failed
      rw [step_of_over hp, passed_of_not_common id]

/-- As long as nobody has been taken up a client is told nothing but replies. -/
theorem Bides.told (h : Bides limit r control events s) : ToldReplies r control s := by
  cases h with
  | listening hr hp => exact hr.told ⟨Nat.zero_le _, by simp⟩
  | waiting hr hp => exact hr.told (repliesTo_one rfl)
  | ceased hc => exact hc.told

/-- What passes by leaves a session without a caller. -/
theorem Bides.lets_pass {e : Event} (h : Bides limit r control events s) (he : ¬e.Common) :
    Bides limit r control (events ++ [e]) s := by
  have hs := passed_of_not_common (s := s) he
  cases h with
  | listening hr hp => exact .listening (hs ▸ hr.passed [e]) hp
  | waiting hr hp => exact .waiting (hs ▸ hr.passed [e]) hp
  | ceased hc => exact .ceased hc

/-! ### The caller that is taken up -/

/-- Where a relay begins: the caller has received nothing, the client has been told about the
listener and the caller, and all that it has sent since its request is unread. -/
structure Meets (r : Request) (control : Stream) (events : List Event) (place : Endpoint)
    (s : Session) : Prop where
  far : s.far? = some .idle
  control : ∃ bound, s.control = (control.passed events).wrote
    ((Reply.granted r.version bound).bytes ++ (Reply.granted r.version place).bytes)

/-- All that the client has sent is there for the relay. -/
theorem Meets.sent {place : Endpoint} (h : Meets r control events place s) :
    s.passedOn ++ s.control.incoming = control.incoming ++ heard events := by
  obtain ⟨bound, hcontrol⟩ := h.control
  rw [passedOn, h.far, hcontrol]
  rfl

/-- A caller that is taken up is turned away, unless it is relayed from now on. -/
theorem Bides.called (h : Bides service.bindLimit r control events s)
    (hawaits : s.awaitsCaller = true) (place : Endpoint) :
    Ceased r control (s.step service c out (.calledBy place)) ∨
      r.destination.otherHost? place = none ∧
        ∃ s₁, Meets r control events place s₁ ∧
          s.step service c out (.calledBy place) = s₁.relayOn := by
  cases h with
  | listening hr hp =>
      rw [awaitsCaller, hp] at hawaits
      cases hawaits
  | ceased hc =>
      obtain ⟨f, hp⟩ := hc.failed
      rw [awaitsCaller, hp] at hawaits
      cases hawaits
  | @waiting bound deadline hr hp =>
      have hcalled : Replied control events [.granted r.version bound]
          { s with far? := some .idle } := by
        refine ⟨hr.control, fun far hfar => ?_⟩
        cases hfar
        rfl
      rw [step_of_calledBy hp (Plan.grounded_welcome place), Plan.received, Plan.welcome_eq]
      cases hother : r.destination.otherHost? place with
      | some expected => exact .inl (hcalled.ceased_giveUp (repliesTo_two rfl rfl))
      | none =>
          have hfew : RepliesTo r [.granted r.version bound, .granted r.version place] :=
            repliesTo_two rfl rfl
          rcases @Replied.ceased_or_goes_on out service.rules r control _ events _ _ hcalled hfew
            .relay with hcut | hgoes
          · exact .inl hcut
          · have hreplied := hcalled.reply (.granted r.version place)
            refine .inr ⟨rfl, _, ⟨rfl, bound, ?_⟩, hgoes⟩
            rw [hreplied.control]
            simp

end Session

end Socks
