import Socks.Proofs.Session.HandedOver

/-!
# Sessions that wait

A session waits for the answer to a question, or for somebody to call. What it comes to is told by
the first event that it waits for, and for a caller by the time that has passed before: everything
else that happens meanwhile passes.

Main statements: to carry out a plan leaves nothing that a session would go on with by itself
(`Session.settle_pursue`); an event brings what a session waits for, or passes
(`Session.step_of_awaits`); and `Session.receives_accept` puts a session that waits for a caller in
closed form.
-/

namespace Socks

namespace Event

/-- Who calls with an event, if anybody does. -/
def caller? : Event → Option Endpoint
  | calledBy caller => some caller
  | _ => none

theorem eq_calledBy {e : Event} {caller : Endpoint} (h : e.caller? = some caller) :
    e = .calledBy caller := by
  cases e with
  | calledBy caller' =>
      cases h
      rfl
  | _ => cases h

end Event

/-- What comes of waiting for a caller: nothing so far, nobody in time, or a first caller and the
events after that. -/
inductive Reception where
  | pending
  | nobody
  | caller (who : Endpoint) (later : List Event)

/-- What comes of waiting for a caller for so many milliseconds: nobody is in time if the limit has
passed before the first one calls. -/
def reception (limit : Nat) (events : List Event) : Reception :=
  let waited := events.takeWhile fun e => e.caller?.isNone
  if limit ≤ elapsed waited then .nobody
  else
    match events.dropWhile fun e => e.caller?.isNone with
    | .calledBy caller :: later => .caller caller later
    | _ => .pending

section waiting

variable {limit : Nat} {e : Event} {events : List Event}

theorem reception_nil (h : 0 < limit) : reception limit [] = .pending := by
  simp [reception, Nat.not_le.mpr h]

theorem reception_calledBy (h : 0 < limit) (caller : Endpoint) (events : List Event) :
    reception limit (.calledBy caller :: events) = .caller caller events := by
  simp [reception, Event.caller?, Nat.not_le.mpr h]

/-- The time that passes with an event counts against the limit. -/
theorem reception_cons (h : e.caller? = none) (events : List Event) :
    reception limit (e :: events) = reception (limit - e.delay) events := by
  simp [reception, h, elapsed, Nat.add_comm]

theorem reception_zero (events : List Event) : reception 0 events = .nobody := by
  simp [reception]

/-- What has come of waiting when some more events have happened. -/
def Reception.followedBy (more : List Event) : Reception → Reception
  | pending => .pending
  | nobody => .nobody
  | caller who later => .caller who (later ++ more)

/-- What has come of waiting stays so. -/
theorem reception_append (h : reception limit events ≠ .pending) (more : List Event) :
    reception limit (events ++ more) = (reception limit events).followedBy more := by
  induction events generalizing limit with
  | nil =>
      by_cases hlimit : limit = 0
      · rw [hlimit, reception_zero, reception_zero]
        rfl
      · exact absurd (reception_nil (by omega)) h
  | cons e events ih =>
      by_cases hlimit : limit = 0
      · rw [hlimit, reception_zero, reception_zero]
        rfl
      · cases hcaller : e.caller? with
        | some caller =>
            obtain rfl := Event.eq_calledBy hcaller
            rw [List.cons_append, reception_calledBy (by omega), reception_calledBy (by omega)]
            rfl
        | none =>
            rw [reception_cons hcaller] at h
            rw [List.cons_append, reception_cons hcaller, reception_cons hcaller]
            exact ih h

end waiting

namespace Session

variable {service : Service} {c : Connection} {out : Surroundings} {s s₀ : Session}
  {events : List Event} {far : Stream}

/-! ### Sessions that rest -/

theorem relayOn_of_rest (hp : s.phase = .relaying) (hfar : s.far? = some far)
    (hf : far.fault? = none) (hi : s.control.incoming = []) (he : s.control.ending = .awaited)
    (hfi : far.incoming = []) (hfe : far.ending = .awaited) : s.relayOn = s := by
  have ht : s.control.Takes far.incoming.length := by
    intro fault _
    rw [hfi]
    exact Nat.zero_le _
  have hcontrol : s.control.drained.wrote far.incoming = s.control := by
    rw [Stream.wrote, hfi, List.append_nil, Stream.drained, ← hi]
  have hthere : (far.wrote s.control.incoming).spent = far := by
    rw [Stream.wrote, hi, List.append_nil, Stream.spent, ← hfi]
    simp [hfe, Ending.met]
    rw [← hfe]
  rw [relayOn_of_takes hfar hf he ht, hcontrol, hthere, ← hfar, hfe]
  simp [Ending.result?, ← hp]

/-- A relay has done what it can do. -/
theorem Relayed.settle_eq (h : Relayed s₀ events s) : s.settle service c out = s := by
  rcases h.stage with ⟨hp, far, hr, hi, he, hfi, hfe⟩ | ⟨⟨result, hp⟩, -⟩
  · rw [settle_of_relaying hp, relayOn_of_rest hp hr.there hr.farTakes hi he hfi hfe]
  · exact settle_of_over hp

theorem settle_watch (s : Session) (a : Association) :
    (s.watch a).settle service c out = s.watch a := by
  by_cases he : s.control.ending = .awaited
  · have hp : (s.watch a).phase = .associated a := by
      rw [watch_eq]
      exact if_pos he
    simp only [settle, hp]
    rw [watch_eq, watch_eq]
    simp [he, Stream.drained]
  · refine @settle_of_over service c out _ a.result ?_
    rw [watch_eq]
    exact if_neg he

/-- To carry out a plan leaves nothing that a session would go on with by itself. -/
theorem settle_pursue {p : Plan} {met : Bool} (hg : p.Grounded met)
    (hfar : met = true → s.far? = some .idle) :
    (pursue out service.rules p s).settle service c out = pursue out service.rules p s := by
  induction p generalizing s met with
  | finish result => exact settle_of_over rfl
  | consult request next ih => exact ih _ (hg _) hfar
  | reply m next ih =>
      simp only [pursue]
      split
      · exact ih hg hfar
      · exact settle_of_over rfl
  | resolve host next ih =>
      simp only [pursue]
      split
      · exact ih _ (hg _) hfar
      · simp [settle]
  | dial destination next ih =>
      simp only [pursue]
      split
      · rename_i answer _
        cases answer with
        | ok here => exact ih _ (hg.1 here) fun _ => rfl
        | error e => exact ih _ (hg.2 e) hfar
      · simp [settle]
  | listen place next ih =>
      simp only [pursue]
      split
      · exact ih _ (hg _) hfar
      · simp [settle]
  | openSocket place next ih =>
      simp only [pursue]
      split
      · exact ih _ (hg _) hfar
      · simp [settle]
  | accept limit next ih =>
      simp only [pursue]
      split_ifs with hd
      · exact ih _ hg.2.1 hfar
      · simp [settle, hd]
  | relay => exact (relayed_start (hfar hg)).settle_eq
  | associate sockets => exact settle_watch s _

/-- The plan with which a session that waits goes on after an event, when the clock shows `clock`,
and whether the event brings a far side. -/
def continuation? (clock : Nat) (phase : Phase) (e : Event) : Option (Plan × Bool) :=
  match answered? phase e with
  | some answer => some answer
  | none => (expired? clock phase).map fun q => (q, false)

theorem Awaits.step_of_continuation {q q' : Plan} {phase : Phase} {clock : Nat} {e : Event}
    {met : Bool} (h : Awaits q phase) (hc : continuation? clock phase e = some (q', met))
    (rules : Rules) : q.Step rules q.asks [] met q' := by
  rw [continuation?] at hc
  cases ha : answered? phase e with
  | some answer =>
      rw [ha] at hc
      cases hc
      exact h.step_of_answered ha rules
  | none =>
      rw [ha, Option.map_eq_some_iff] at hc
      obtain ⟨q'', hexpired, he⟩ := hc
      cases he
      exact h.step_of_expired hexpired rules

/-- A session that waits goes on with its plan or lets an event pass. -/
theorem step_of_awaits {q : Plan} {met : Bool} (h : Awaits q s.phase) (hg : q.Grounded met)
    (hfar : met = true → s.far? = some .idle) (e : Event) :
    s.step service c out e =
      match continuation? (s.passed [e]).clock s.phase e with
      | some (q', met') => pursue out service.rules q' ((s.passed [e]).went [] [] met')
      | none => s.passed [e] := by
  rw [step, take_eq_of_awaits h, continuation?]
  cases ha : answered? s.phase e with
  | some answer =>
      obtain ⟨q', met'⟩ := answer
      have hs : s.passed [e] = s := by
        refine passed_of_not_common fun hc => ?_
        rw [answered?_of_common hc] at ha
        cases ha
      rw [hs]
      refine settle_pursue ((h.step_of_answered ha service.rules).grounded hg) fun hmet => ?_
      cases met' with
      | true => rfl
      | false => exact hfar (by simpa using hmet)
  | none =>
      have hpassed : Awaits q (s.passed [e]).phase := h
      have hphase : (s.passed [e]).phase = s.phase := rfl
      show (s.passed [e]).settle service c out = _
      rw [settle_eq_of_awaits hpassed, hphase]
      cases expired? (s.passed [e]).clock s.phase <;> simp

/-! ### Waiting for a caller -/

/-- What a session has come to that waits at `s` for a caller: it still does, it has waited in vain,
or it has taken up a caller, who called at the end of the events `waited`. -/
inductive Receives (service : Service) (c : Connection) (out : Surroundings)
    (next : Except IoError (Option Endpoint) → Plan) (s : Session) (events : List Event) :
    Reception → Session → Prop
  | pending {deadline : Nat} :
      s.phase = .accepting next deadline → Receives service c out next s events .pending
        (s.passed events)
  | nobody {waited later : List Event} :
      events = waited ++ later →
        Receives service c out next s events .nobody
          ((pursue out service.rules (next (.ok none)) (s.passed waited)).trace service c out later)
  | caller {waited later : List Event} {caller : Endpoint} :
      events = waited ++ later →
        Receives service c out next s events (.caller caller later)
          ((pursue out service.rules (next (.ok (some caller)))
            { s.passed waited with far? := some .idle }).trace service c out later)

theorem Receives.cons {next : Except IoError (Option Endpoint) → Plan} {e : Event} {s' : Session}
    {received : Reception} (h : Receives service c out next (s.passed [e]) events received s') :
    Receives service c out next s (e :: events) received s' := by
  cases h with
  | pending hp =>
      rw [passed_passed]
      exact .pending hp
  | nobody he =>
      rw [passed_passed]
      exact .nobody (by rw [he, List.singleton_append, List.cons_append])
  | caller he =>
      rw [passed_passed]
      exact .caller (by rw [he, List.singleton_append, List.cons_append])

theorem take_of_accepting {next : Except IoError (Option Endpoint) → Plan} {deadline : Nat}
    {e : Event} (hp : s.phase = .accepting next deadline) (hcaller : e.caller? = none)
    (hf : ∀ error, e ≠ .acceptFails error) : s.take service out e = s.passed [e] := by
  by_cases hc : e.Common
  · exact take_of_common hc
  · rw [passed_of_not_common hc]
    cases e with
    | calledBy => cases hcaller
    | acceptFails error => exact absurd rfl (hf error)
    | clientSends | clientEnds | clientBreaks | timePasses => exact absurd trivial hc
    | _ => simp [take, hp]

/-- A caller makes a session go on that waits for one. -/
theorem step_of_calledBy {next : Except IoError (Option Endpoint) → Plan} {deadline : Nat}
    {caller : Endpoint} (hp : s.phase = .accepting next deadline)
    (hg : (next (.ok (some caller))).Grounded true) :
    s.step service c out (.calledBy caller) =
      pursue out service.rules (next (.ok (some caller))) { s with far? := some .idle } := by
  have htake : s.take service out (.calledBy caller) =
      pursue out service.rules (next (.ok (some caller))) { s with far? := some .idle } := by
    simp [take, hp]
  rw [step, htake, settle_pursue hg fun _ => rfl]

/-- Until somebody calls or the time is over a session that waits for a caller lets everything
pass. -/
theorem receives_trace {next : Except IoError (Option Endpoint) → Plan} {left : Nat}
    (hp : s.phase = .accepting next (s.clock + left)) (hleft : 0 < left)
    (hg : ∀ caller, (next (.ok (some caller))).Grounded true) {events : List Event}
    (hf : ∀ error, .acceptFails error ∉ events) :
    Receives service c out next s events (reception left events)
      (s.trace service c out events) := by
  induction events generalizing s left with
  | nil =>
      rw [reception_nil hleft]
      have h : Receives service c out next s [] .pending (s.passed []) := .pending hp
      rwa [passed_nil] at h
  | cons e events ih =>
      have hfails : ∀ error, e ≠ .acceptFails error := by
        intro error he
        exact hf error (by simp [he])
      have hrest : ∀ error, .acceptFails error ∉ events :=
        fun error hmem => hf error (List.mem_cons_of_mem _ hmem)
      rw [trace_cons]
      cases hcaller : e.caller? with
      | some caller =>
          obtain rfl := Event.eq_calledBy hcaller
          have hreceives := @Receives.caller service c out next s _ [.calledBy caller] events
            caller rfl
          rw [reception_calledBy hleft, step_of_calledBy hp (hg caller)]
          rwa [passed_of_not_common id] at hreceives
      | none =>
          rw [reception_cons hcaller, step, take_of_accepting hp hcaller hfails]
          have hpassed : (s.passed [e]).phase = .accepting next (s.clock + left) := hp
          have hclock : (s.passed [e]).clock = s.clock + e.delay := rfl
          by_cases hlate : left ≤ e.delay
          · have hsettle : (s.passed [e]).settle service c out =
                pursue out service.rules (next (.ok none)) (s.passed [e]) := by
              simp [settle, hpassed, hclock, hlate]
            rw [Nat.sub_eq_zero_of_le hlate, reception_zero, hsettle]
            exact .nobody rfl
          · have hsettle : (s.passed [e]).settle service c out = s.passed [e] := by
              simp [settle, hpassed, hclock, hlate]
            rw [hsettle]
            refine (ih ?_ (by omega) hrest).cons
            rw [hpassed, hclock]
            congr 1
            omega

/-- A session that begins to wait for a caller. -/
theorem receives_accept {limit : UInt64} {next : Except IoError (Option Endpoint) → Plan}
    (hg : ∀ caller, (next (.ok (some caller))).Grounded true) (s : Session) {events : List Event}
    (hf : ∀ error, .acceptFails error ∉ events) :
    ∃ phase, Receives service c out next { s with phase := phase } events
      (reception (limit.toNat * 1000) events)
      ((pursue out service.rules (.accept limit next) s).trace service c out events) := by
  have hdeadline : Clock.deadline s.clock limit = s.clock + limit.toNat * 1000 := rfl
  by_cases hnow : limit.toNat * 1000 = 0
  · have hpursue : pursue out service.rules (.accept limit next) s =
        pursue out service.rules (next (.ok none)) s := by
      simp [pursue, hdeadline, hnow]
    have h : Receives service c out next s events .nobody
        ((pursue out service.rules (next (.ok none)) (s.passed [])).trace service c out events) :=
      .nobody (List.nil_append events).symm
    rw [passed_nil] at h
    rw [hnow, reception_zero, hpursue]
    exact ⟨s.phase, h⟩
  · have hpursue : pursue out service.rules (.accept limit next) s =
        { s with phase := .accepting next (s.clock + limit.toNat * 1000) } := by
      simp only [pursue, hdeadline]
      rw [if_neg (by omega)]
    rw [hpursue]
    exact ⟨_, receives_trace rfl (by omega) hg hf⟩

end Session

end Socks
