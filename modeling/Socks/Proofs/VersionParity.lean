import Socks.Proofs.RuleGate
import Socks.Proofs.Session.Resting
import Socks.Proofs.Versions

/-!
# Commands in both versions

Where the rules do not look at the version and no write fails, a request is carried out alike for
both versions: the same calls, the same bytes relayed, the same datagrams and the same result, with
the same replies in the form of each version.

`Session.told` is the session whose client speaks another version. Every event leads from it to what
the event leads the session to, told in that version (`Session.step_told`, `Session.trace_told`).

Main statement: `Session.commands_alike`.
-/

namespace Socks

/-- What a session is busy with in this version. -/
def Phase.inVersion (v : Version) : Phase → Phase
  | .resolving next => .resolving fun answer => (next answer).inVersion v
  | .dialing next => .dialing fun answer => (next answer).inVersion v
  | .listening next => .listening fun answer => (next answer).inVersion v
  | .opening next => .opening fun answer => (next answer).inVersion v
  | .accepting next deadline => .accepting (fun answer => (next answer).inVersion v) deadline
  | .over result => .over (resultIn v result)
  | phase => phase

/-- Rules that do not look at the version of a request. -/
def Rules.IgnoreVersion (rules : Rules) : Prop := ∀ v r, rules (r.inVersion v) = rules r

namespace Session

variable {service : Service} {c : Connection} {out : Surroundings} {rules : Rules} {p q : Plan}
  {s : Session} {met : Bool} {phase : Phase} {e : Event}

/-- The session whose client speaks this version: it has given the replies `ms` in that version
after `w`, and has relayed some bytes. -/
def told (v : Version) (w : Bytes) (ms : List Reply) (relayed : Bytes) (s : Session) : Session :=
  { s with
    control := { s.control with
      written := w ++ (ms.map (Reply.inVersion v)).flatMap Reply.bytes ++ relayed }
    phase := s.phase.inVersion v
    calls := s.calls.map (Call.inVersion v) }

section telling

variable (v : Version) (w : Bytes) (ms : List Reply) (relayed : Bytes) (s : Session)

theorem told_record (call : Call) :
    (s.told v w ms relayed).record (call.inVersion v) = (s.record call).told v w ms relayed := by
  simp [told, record]

/-- A session that waits for an answer to a call. -/
theorem told_asked (call : Call) (phase : Phase) :
    { (s.told v w ms relayed).record (call.inVersion v) with phase := phase.inVersion v } =
      { s.record call with phase := phase }.told v w ms relayed := by
  simp [told, record]

theorem told_dialed (destination : Endpoint) (answer : Except IoError (Except IoError Endpoint)) :
    ((s.told v w ms relayed).record (.dial destination)).reach answer =
      ((s.record (.dial destination)).reach answer).told v w ms relayed := by
  cases answer <;> simp [told, record, reach, Call.inVersion]

theorem told_replied (m : Reply) :
    (s.told v w ms []).replied (m.inVersion v) = (s.replied m).told v w (ms ++ [m]) [] := by
  simp [told, replied, Stream.wrote]

theorem told_went (met : Bool) :
    (s.told v w ms []).went [] [] met = (s.went [] [] met).told v w ms [] := by
  simp [told, went, Stream.wrote]

theorem socketsOpened_told : (s.told v w ms relayed).socketsOpened = s.socketsOpened := by
  simp only [socketsOpened, told, List.countP_map]
  congr 1
  funext call
  cases call <;> rfl

end telling

/-! ### Relays and associations -/

/-- The end of a relay does not tell the version. -/
theorem resultIn_of_ending {ending : Ending} {result : Except Failure Unit}
    (h : ending.result? = some result) (v : Version) : resultIn v result = result := by
  cases ending <;> cases h <;> rfl

theorem resultIn_result (v : Version) (a : Association) : resultIn v a.result = a.result := by
  unfold Association.result
  cases a.innerError? <|> a.outerError? <;> rfl

/-- A relay passes on the same bytes in both versions. -/
theorem relayOn_told {far : Stream} (hf : s.control.fault? = none) (hfar : s.far? = some far)
    (hff : far.fault? = none) (w : Bytes) (ms : List Reply) (relayed : Bytes) :
    ∃ more, more <+: far.incoming ∧
      ∀ v, (s.told v w ms relayed).relayOn = s.relayOn.told v w ms (relayed ++ more) := by
  cases he : s.control.ending.result? with
  | some result =>
      refine ⟨[], List.nil_prefix, fun v => ?_⟩
      rw [relayOn_of_ending hfar hff he, relayOn_of_ending (s := s.told v w ms relayed) hfar hff he]
      simp only [told, Phase.inVersion, resultIn_of_ending he, List.append_nil]
      rfl
  | none =>
      have ha : s.control.ending = .awaited := Ending.awaited_of_result? he
      refine ⟨far.incoming, List.prefix_refl _, fun v => ?_⟩
      have hft : (s.told v w ms relayed).control.fault? = none := hf
      rw [relayOn_of_takes hfar hff ha (Stream.takes_of_faultless hf _),
        relayOn_of_takes (s := s.told v w ms relayed) hfar hff ha
          (Stream.takes_of_faultless hft _)]
      have hphase : (((far.ending.result?.map Phase.over).getD .relaying).inVersion v) =
          (far.ending.result?.map Phase.over).getD .relaying := by
        cases hr : far.ending.result? with
        | none => rfl
        | some result => exact congrArg Phase.over (resultIn_of_ending hr v)
      simp only [told, hphase, Stream.wrote, Stream.drained, List.append_assoc]

/-- An association does not tell the version. -/
theorem watch_told (a : Association) (v : Version) (w : Bytes) (ms : List Reply)
    (relayed : Bytes) (s : Session) :
    (s.told v w ms relayed).watch a = (s.watch a).told v w ms relayed := by
  simp only [watch_eq]
  have hending : (s.told v w ms relayed).control.ending = s.control.ending := rfl
  by_cases h : s.control.ending = .awaited
  · simp only [hending, h, if_true]
    rfl
  · simp only [h, if_false, told, Phase.inVersion, resultIn_result]
    rfl

/-! ### Plans that are carried out -/

/-- To carry out a plan in this version is to carry it out and to reply in this version. -/
theorem pursue_told (out : Surroundings) (hrules : rules.IgnoreVersion)
    (hf : s.control.fault? = none) (hg : p.Grounded met) (hfar : met = true → s.far? = some .idle)
    (w : Bytes) (ms : List Reply) :
    ∃ ms', ∀ v, pursue out rules (p.inVersion v) (s.told v w ms []) =
      (pursue out rules p s).told v w ms' [] := by
  induction p generalizing s met ms with
  | finish result => exact ⟨ms, fun v => rfl⟩
  | consult r next ih =>
      obtain ⟨ms', h⟩ := ih (rules r) (s := s.record (.rules r (rules r))) hf (hg _) hfar ms
      refine ⟨ms', fun v => ?_⟩
      simp only [Plan.inVersion, pursue, hrules v r]
      rw [← h v, ← told_record]
      rfl
  | reply m next ih =>
      obtain ⟨ms', h⟩ := ih (s := s.replied m) hf hg hfar (ms ++ [m])
      refine ⟨ms', fun v => ?_⟩
      have hft : (s.told v w ms []).control.fault? = none := hf
      rw [Plan.inVersion, pursue_reply (Stream.takes_of_faultless hft _),
        pursue_reply (Stream.takes_of_faultless hf _), told_replied, h v]
  | resolve host next ih =>
      simp only [Plan.inVersion, pursue]
      cases out.resolve host with
      | none => exact ⟨ms, fun v => told_asked v w ms [] s (.resolve host) (.resolving next)⟩
      | some answer =>
          obtain ⟨ms', h⟩ := ih answer (s := s.record (.resolve host)) hf (hg _) hfar ms
          exact ⟨ms', fun v => by rw [← h v, ← told_record]; rfl⟩
  | dial destination next ih =>
      simp only [Plan.inVersion, pursue]
      cases out.dial destination with
      | none => exact ⟨ms, fun v => told_asked v w ms [] s (.dial destination) (.dialing next)⟩
      | some answer =>
          have hnext : ∃ ms', ∀ v, pursue out rules ((next answer).inVersion v)
              (((s.record (.dial destination)).reach answer).told v w ms []) =
                (pursue out rules (next answer) ((s.record (.dial destination)).reach answer)).told
                  v w ms' [] := by
            cases answer with
            | ok here =>
                exact ih (.ok here) (s := (s.record (.dial destination)).reach (.ok here)) hf
                  (hg.1 here) (fun _ => rfl) ms
            | error e => exact ih (.error e) (s := s.record _) hf (hg.2 e) hfar ms
          obtain ⟨ms', h⟩ := hnext
          exact ⟨ms', fun v => by rw [← h v, ← told_dialed]⟩
  | listen place next ih =>
      simp only [Plan.inVersion, pursue]
      cases out.listen place with
      | none => exact ⟨ms, fun v => told_asked v w ms [] s (.listen place) (.listening next)⟩
      | some answer =>
          obtain ⟨ms', h⟩ := ih answer (s := s.record (.listen place)) hf (hg _) hfar ms
          exact ⟨ms', fun v => by rw [← h v, ← told_record]; rfl⟩
  | openSocket place next ih =>
      simp only [Plan.inVersion, pursue, socketsOpened_told]
      cases out.openSocket s.socketsOpened place with
      | none => exact ⟨ms, fun v => told_asked v w ms [] s (.openSocket place) (.opening next)⟩
      | some answer =>
          obtain ⟨ms', h⟩ := ih answer (s := s.record (.openSocket place)) hf (hg _) hfar ms
          exact ⟨ms', fun v => by rw [← h v, ← told_record]; rfl⟩
  | accept limit next ih =>
      have hclock (v : Version) : (s.told v w ms []).clock = s.clock := rfl
      simp only [Plan.inVersion, pursue, hclock]
      split_ifs
      · exact ih (.ok none) hf hg.2.1 hfar ms
      · exact ⟨ms, fun v => rfl⟩
  | relay =>
      obtain ⟨more, hmore, h⟩ := relayOn_told hf (hfar hg) rfl w ms []
      obtain rfl : more = [] := List.prefix_nil.mp hmore
      exact ⟨ms, h⟩
  | associate sockets => exact ⟨ms, fun v => watch_told (.start sockets) v w ms [] s⟩

/-! ### One event in both versions -/

/-- What a session waits for is the same in both versions. -/
theorem Awaits.inVersion (h : Awaits q phase) (v : Version) :
    Awaits (q.inVersion v) (phase.inVersion v) := by
  cases h with
  | finish result => exact .finish _
  | resolve host next => exact .resolve host _
  | dial destination next => exact .dial destination _
  | listen place next => exact .listen place _
  | openSocket place next => exact .openSocket place _
  | accept limit next deadline => exact .accept limit _ deadline

theorem answered?_inVersion (phase : Phase) (e : Event) (v : Version) :
    answered? (phase.inVersion v) e = (answered? phase e).map fun x => (x.1.inVersion v, x.2) := by
  cases phase with
  | dialing next =>
      cases e with
      | dialed answer => cases answer <;> rfl
      | _ => rfl
  | _ => cases e <;> rfl

theorem expired?_inVersion (clock : Nat) (phase : Phase) (v : Version) :
    expired? clock (phase.inVersion v) = (expired? clock phase).map (Plan.inVersion v) := by
  cases phase with
  | accepting next deadline =>
      simp only [Phase.inVersion, expired?]
      split_ifs <;> rfl
  | _ => rfl

theorem continuation?_inVersion (clock : Nat) (phase : Phase) (e : Event) (v : Version) :
    continuation? clock (phase.inVersion v) e =
      (continuation? clock phase e).map fun x => (x.1.inVersion v, x.2) := by
  simp only [continuation?, answered?_inVersion, expired?_inVersion]
  cases answered? phase e with
  | some answer => rfl
  | none => cases expired? clock phase <;> rfl

/-- What has been relayed before a session relays, or is over, is nothing. -/
def MayHaveRelayed (relayed : Bytes) (s : Session) : Prop :=
  relayed = [] ∨ s.phase = .relaying ∨ ∃ result, s.phase = .over result

variable {w : Bytes} {ms : List Reply} {relayed : Bytes}

/-- A session that waits for an answer goes on alike in both versions. -/
theorem step_told_of_awaits (hrules : service.rules.IgnoreVersion) (hf : s.control.fault? = none)
    (ha : Awaits q s.phase) (hg : q.Grounded met) (hfar : s.far? = if met then some .idle else none)
    (hr : MayHaveRelayed relayed s) (e : Event) :
    ∃ ms' relayed', MayHaveRelayed relayed' (s.step service c out e) ∧
      ∀ v, (s.told v w ms relayed).step service c out e =
        (s.step service c out e).told v w ms' relayed' := by
  have hmet : met = true → s.far? = some .idle := far?_of_met hfar
  have hstep := @step_of_awaits service c out s q met ha hg hmet e
  have htold (v : Version) := @step_of_awaits service c out (s.told v w ms relayed) _ met
    (ha.inVersion v) hg.inVersion hmet e
  have hsame (v : Version) : continuation? ((s.told v w ms relayed).passed [e]).clock
      (s.told v w ms relayed).phase e =
        (continuation? (s.passed [e]).clock s.phase e).map fun x => (x.1.inVersion v, x.2) :=
    continuation?_inVersion _ _ e v
  simp only [hsame] at htold
  cases hc : continuation? (s.passed [e]).clock s.phase e with
  | none =>
      simp only [hc] at hstep htold
      exact ⟨ms, relayed, hstep ▸ hr, fun v => by rw [htold v, hstep]; rfl⟩
  | some answer =>
      obtain ⟨q', met'⟩ := answer
      -- A session that goes on with its plan has not relayed anything.
      have hnothing : relayed = [] := by
        rcases hr with hnothing | hrelaying | ⟨result, hover⟩
        · exact hnothing
        · rw [hrelaying] at ha
          cases ha
        · rw [hover] at hc
          cases e <;> cases hc
      subst hnothing
      simp only [hc] at hstep htold
      have hg' := (ha.step_of_continuation hc service.rules).grounded hg
      have hwent := far?_went (s := s.passed [e]) hfar [] [] met'
      obtain ⟨ms', h⟩ := pursue_told out (s := (s.passed [e]).went [] [] met') hrules hf hg'
        (far?_of_met hwent) w ms
      refine ⟨ms', [], .inl rfl, fun v => ?_⟩
      rw [htold v, hstep, ← h v, ← told_went]
      rfl

theorem relayOn_phase (s : Session) :
    s.relayOn.phase = .relaying ∨ ∃ result, s.relayOn.phase = .over result := by
  unfold relayOn
  split
  · exact .inl rfl
  · dsimp only
    split
    · exact .inr ⟨_, rfl⟩
    · exact .inl rfl

/-- A relay goes on alike in both versions. -/
theorem step_told_of_relaying {far : Stream} (hf : s.control.fault? = none)
    (hp : s.phase = .relaying) (hfar : s.far? = some far) (hff : far.fault? = none) (e : Event) :
    ∃ relayed', MayHaveRelayed relayed' (s.step service c out e) ∧
      ∀ v, (s.told v w ms relayed).step service c out e =
        (s.step service c out e).told v w ms relayed' := by
  have hpt (v : Version) : (s.told v w ms relayed).phase = .relaying :=
    congrArg (Phase.inVersion v) hp
  have hthere : (s.farTaken far e).far? = some (farAfter far e) := rfl
  obtain ⟨more, -, h⟩ := relayOn_told (s := s.farTaken far e) hf hthere hff w ms relayed
  by_cases he : e = .farResets
  · subst he
    refine ⟨relayed ++ more, ?_, fun v => ?_⟩
    · rw [step_of_relaying_reset hp hfar hff]
      exact .inr (relayOn_phase _)
    · rw [step_of_relaying_reset hp hfar hff,
        step_of_relaying_reset (s := s.told v w ms relayed) (hpt v) hfar hff]
      exact congrArg (fun s => { s with far? := none }) (h v)
  · refine ⟨relayed ++ more, ?_, fun v => ?_⟩
    · rw [step_of_relaying hp hfar he]
      exact .inr (relayOn_phase _)
    · rw [step_of_relaying hp hfar he,
        step_of_relaying (s := s.told v w ms relayed) (hpt v) hfar he]
      exact h v

/-- An association goes on alike in both versions. -/
theorem step_told_of_associated {a : Association} (hp : s.phase = .associated a) (e : Event)
    (v : Version) :
    (s.told v w ms relayed).step service c out e =
      (s.step service c out e).told v w ms relayed := by
  have hpt : (s.told v w ms relayed).phase = .associated a := congrArg (Phase.inVersion v) hp
  have hacted : ((s.told v w ms relayed).passed [e]).acted (a.after out.resolve e).2 =
      ((s.passed [e]).acted (a.after out.resolve e).2).told v w ms relayed := by
    simp [told, acted, Session.passed, Call.inVersion, Function.comp_def]
  rw [step_of_associated hp, step_of_associated hpt, hacted, watch_told]

/-- Every event leads a session that rests to the same place in both versions. -/
theorem step_told (c : Connection) (out : Surroundings) (w : Bytes) (ms : List Reply)
    (hrules : service.rules.IgnoreVersion) (hf : s.control.fault? = none)
    (hs : Rests s) (hr : MayHaveRelayed relayed s) (e : Event) :
    ∃ ms' relayed', MayHaveRelayed relayed' (s.step service c out e) ∧
      ∀ v, (s.told v w ms relayed).step service c out e =
        (s.step service c out e).told v w ms' relayed' := by
  cases hs with
  | waits ha hg hfar => exact step_told_of_awaits hrules hf ha hg hfar hr e
  | relays hp hfar hff => exact ⟨ms, step_told_of_relaying hf hp hfar hff e⟩
  | @attends a hp =>
      have hnothing : relayed = [] := by
        rcases hr with hnothing | hrelaying | ⟨result, hover⟩
        · exact hnothing
        · rw [hp] at hrelaying
          cases hrelaying
        · rw [hp] at hover
          cases hover
      exact ⟨ms, relayed, .inl hnothing, fun v => step_told_of_associated hp e v⟩
  | @ended result hp =>
      refine ⟨ms, relayed, ?_, fun v => ?_⟩
      · rw [step_of_over hp]
        exact .inr (.inr ⟨result, hp⟩)
      · have hpt : (s.told v w ms relayed).phase = .over (resultIn v result) :=
          congrArg (Phase.inVersion v) hp
        rw [step_of_over hp, step_of_over hpt]
        rfl

/-- Events lead a session that rests to the same place in both versions. -/
theorem trace_told (w : Bytes) (ms : List Reply) (hrules : service.rules.IgnoreVersion)
    (hf : ∀ events, (s.trace service c out events).control.fault? = none)
    (hs : ∀ events, Rests (s.trace service c out events)) (hr : MayHaveRelayed relayed s)
    (events : List Event) :
    ∃ ms' relayed', ∀ v, (s.told v w ms relayed).trace service c out events =
      (s.trace service c out events).told v w ms' relayed' := by
  induction events generalizing s ms relayed with
  | nil => exact ⟨ms, relayed, fun v => rfl⟩
  | cons e events ih =>
      obtain ⟨ms', relayed', hr', hstep⟩ :=
        step_told c out w ms hrules (s := s) (hf []) (hs []) hr e
      obtain ⟨ms'', relayed'', htrace⟩ := ih ms' (s := s.step service c out e)
        (fun later => hf (e :: later)) (fun later => hs (e :: later)) hr'
      refine ⟨ms'', relayed'', fun v => ?_⟩
      rw [trace_cons, hstep v, htrace v]
      rfl

/-! ### Requests in both versions -/

variable {control : Stream} {r : Request} {events : List Event}

/-- A request is carried out in every version alike. -/
theorem ofRequest_told (c : Connection) (out : Surroundings)
    (hrules : service.rules.IgnoreVersion) (hf : control.fault? = none) (r : Request)
    (events : List Event) :
    ∃ ms relayed, ∀ v,
      (ofRequest service c out control (r.inVersion v)).trace service c out events =
        ((ofRequest service c out control r).trace service c out events).told v control.written ms
          relayed := by
  have hgrounded : (Plan.ofRequest service.bindLimit (c.server?.map Endpoint.ip) r).Grounded
    false := Plan.grounded_ofRequest
  have hstands := stands_ofRequest service c out control r
  have hfresh (v : Version) : (fresh control (.over (.ok ()))).told v control.written [] [] =
      fresh control (.over (.ok ())) := by
    simp [told, fresh, Phase.inVersion, resultIn, Except.mapError]
  obtain ⟨ms, hstart⟩ := pursue_told out (s := fresh control (.over (.ok ()))) hrules hf
    hgrounded far?_of_unmet control.written []
  obtain ⟨ms', relayed, htrace⟩ := trace_told control.written ms hrules
    (fun events => (hstands events).fault.trans hf) (rests_trace hgrounded rfl) (.inl rfl) events
  refine ⟨ms', relayed, fun v => ?_⟩
  have hrequest : ofRequest service c out control (r.inVersion v) =
      (ofRequest service c out control r).told v control.written ms [] := by
    have hplanned := hstart v
    rw [hfresh v, Plan.inVersion_ofRequest] at hplanned
    exact hplanned
  rw [hrequest]
  exact htrace v

/-- No write to the client fails while a request is carried out: the session has come to what it
would have come to on a stream that takes every write. -/
def Undisturbed (service : Service) (c : Connection) (out : Surroundings) (control : Stream)
    (r : Request) (events : List Event) : Prop :=
  let s := (ofRequest service c out control r).trace service c out events
  (ofRequest service c out control.sound r).trace service c out events =
    { s with control := s.control.sound }

theorem undisturbed_of_faultless (hf : control.fault? = none) :
    Undisturbed service c out control r events := by
  have hs := (stands_ofRequest service c out control r events).fault.trans hf
  simp only [Undisturbed, Stream.sound_of_faultless hf, Stream.sound_of_faultless hs]

theorem result?_told (v : Version) (w : Bytes) (ms : List Reply) (relayed : Bytes) (s : Session) :
    (s.told v w ms relayed).result? = s.result?.map (resultIn v) := by
  obtain ⟨control, far?, clock, phase, calls, sent⟩ := s
  cases phase <;> rfl

/-- The commands are carried out alike for both versions. What is planned about a request is the
same in either version. Where the rules do not look at the version of a request and no write fails,
a session makes the same calls in either version, relays the same bytes in both directions, sends
the same datagrams, leaves the same bytes unread and comes to the same result, apart from the
version of the request that is shown to the rules or was denied. At every moment it has given the
same replies: in SOCKS5 with the code of the status and the literal address, in SOCKS4 with 5A for
the code zero and 5B for all others, the same port, and the same address if that is an IPv4
address. -/
theorem commands_alike (service : Service) (c : Connection) (out : Surroundings)
    (control : Stream) (r : Request) (events : List Event)
    (hrules : service.rules.IgnoreVersion)
    (hwrites : ∀ v, Undisturbed service c out control (r.inVersion v) events) :
    let planned : Request → Plan := .ofRequest service.bindLimit (c.server?.map Endpoint.ip)
    let run (v : Version) :=
      (ofRequest service c out control (r.inVersion v)).trace service c out events
    (∀ v, planned (r.inVersion v) = (planned r).inVersion v) ∧
    (∀ v v', (run v).calls.map (Call.inVersion v') = (run v').calls ∧
      (run v).far? = (run v').far? ∧ (run v).sent = (run v').sent ∧
      (run v).control.incoming = (run v').control.incoming ∧
      (run v).result?.map (resultIn v') = (run v').result? ∧
      (run v).result?.map (Except.mapError Failure.kind) =
        (run v').result?.map (Except.mapError Failure.kind)) ∧
    ∃ (ms : List Reply) (relayed : Bytes),
      (∀ v, (run v).control.written =
        control.written ++ (ms.map (Reply.inVersion v)).flatMap Reply.bytes ++ relayed) ∧
      ∀ m ∈ ms,
        (m.inVersion .v5).bytes =
          [5, m.status.code, 0] ++ Address.encodeLiteral m.address.ip? m.address.port ∧
        (m.inVersion .v4).bytes =
          [0, if m.status.code = 0 then 0x5A else 0x5B] ++
            ((Block.ofWord m.address.port).bytes ++
              match m.address.ip? with
              | some (.v4 octets) => octets.bytes
              | _ => [0, 0, 0, 0]) := by
  intro planned run
  have hf : control.sound.fault? = none := rfl
  obtain ⟨ms, relayed, hall⟩ := ofRequest_told c out hrules hf r events
  generalize (ofRequest service c out control.sound r).trace service c out events = s at hall
  have hrun (v : Version) :
      { run v with control := (run v).control.sound } = s.told v control.written ms relayed :=
    (hwrites v).symm.trans (hall v)
  have hcalls (v : Version) : (run v).calls = s.calls.map (Call.inVersion v) :=
    congrArg calls (hrun v)
  have hfar (v : Version) : (run v).far? = s.far? := (congrArg far? (hrun v) :)
  have hsent (v : Version) : (run v).sent = s.sent := (congrArg sent (hrun v) :)
  have hunread (v : Version) : (run v).control.incoming = s.control.incoming :=
    congrArg (fun s => s.control.incoming) (hrun v)
  have hresult (v : Version) : (run v).result? = s.result?.map (resultIn v) :=
    (congrArg result? (hrun v)).trans (result?_told v control.written ms relayed s)
  refine ⟨fun v => (Plan.inVersion_ofRequest _ _ v r).symm, fun v v' => ?_, ms, relayed,
    fun v => congrArg (fun s => s.control.written) (hrun v),
    fun m _ => ⟨m.bytes_inVersion_v5, m.bytes_inVersion_v4⟩⟩
  refine ⟨?_, (hfar v).trans (hfar v').symm, (hsent v).trans (hsent v').symm,
    (hunread v).trans (hunread v').symm, ?_, ?_⟩
  · rw [hcalls v, hcalls v', List.map_map]
    exact List.map_congr_left fun call _ => call.inVersion_inVersion v v'
  · rw [hresult v, hresult v', Option.map_map]
    congr 1
    exact funext (resultIn_resultIn v v')
  · rw [hresult v, hresult v', Option.map_map, Option.map_map, kind_comp_resultIn,
      kind_comp_resultIn]

/-- A client is connected in SOCKS4 as it is in SOCKS5. Where the server leaves from an IPv6
address, the reply of SOCKS4 has the port of the other, and no address. -/
theorem commands_alike_connect :
    let service : Service := ⟨.anyone, Permissions.rules ⟨true, false, false⟩, 10, 60⟩
    let r : Request := ⟨.v5, .connect, .literal (.ofOctets 10 0 0 1) 80, .anonymous, none⟩
    let events : List Event := [.dialed (.ok (.ok ⟨.anyV6, 1234⟩)), .farSends [1, 2]]
    let run (v : Version) :=
      (ofRequest service ⟨none, none⟩ .silent .idle (r.inVersion v)).trace service ⟨none, none⟩
        .silent events
    (service.rules.IgnoreVersion ∧
      ∀ v, Undisturbed service ⟨none, none⟩ .silent .idle (r.inVersion v) events) ∧
      (run .v4).calls.map (Call.inVersion .v5) = (run .v5).calls ∧
      (run .v4).far? = (run .v5).far? ∧
      (run .v4).control.written = [0, 0x5A, 4, 210, 0, 0, 0, 0, 1, 2] ∧
      (run .v5).control.written = [5, 0, 0, 4] ++ List.replicate 16 0 ++ [4, 210, 1, 2] := by
  intro service r events run
  have hrules : service.rules.IgnoreVersion := fun _ _ => rfl
  have hwrites : ∀ v, Undisturbed service ⟨none, none⟩ .silent .idle (r.inVersion v) events :=
    fun v => undisturbed_of_faultless rfl
  have hwritten : (run .v4).control.written = [0, 0x5A, 4, 210, 0, 0, 0, 0, 1, 2] ∧
      (run .v5).control.written = [5, 0, 0, 4] ++ List.replicate 16 0 ++ [4, 210, 1, 2] := by
    decide +kernel
  have hall := commands_alike service ⟨none, none⟩ .silent .idle r events hrules hwrites
  obtain ⟨hcalls, hfar, -⟩ := hall.2.1 .v4 .v5
  exact ⟨⟨hrules, hwrites⟩, hcalls, hfar, hwritten⟩

end Session

end Socks
