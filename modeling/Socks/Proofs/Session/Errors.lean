import Socks.Proofs.Session.Resting

/-!
# The errors that sessions end with

A session that carries out a plan ends with an input or output error only if a stream, the wait for
a caller or a socket of its association has failed with that error, or if it is why nobody can tell
the address of a connection or a listener. The errors of look-ups, of dials and of listeners are
told with their causes, which sets them apart.

Main statement: `Session.clear_trace`.
-/

namespace Socks

/-- The error that an event brings, if it may become that of the session. -/
def Event.error? : Event → Option IoError
  | clientBreaks e | acceptFails e | innerFails e | outerFails e => some e
  | dialed (.ok (.error e)) | listened (.ok (.error e)) => some e
  | _ => none

/-- No connection and no listener is at once there of which the address cannot be told because of an
error. -/
structure Surroundings.Spares (e : IoError) (out : Surroundings) : Prop where
  dial : ∀ place, out.dial place ≠ some (.ok (.error e))
  listen : ∀ place, out.listen place ≠ some (.ok (.error e))

/-- A stream that fails with another error, if at all. -/
structure Stream.Spares (e : IoError) (s : Stream) : Prop where
  fault : ∀ fault, s.fault? = some fault → fault.error ≠ e
  ending : s.ending ≠ .broken e

namespace Plan

/-- A plan that fails with another error, if at all, unless this one is what waiting for a caller
fails with or why an address cannot be told. -/
def Spares (e : IoError) : Plan → Prop
  | finish r => r ≠ .error (.transport e)
  | consult _ next => ∀ b, (next b).Spares e
  | reply _ next => next.Spares e
  | resolve _ next => ∀ a, (next a).Spares e
  | dial _ next => ∀ a, a ≠ .ok (.error e) → (next a).Spares e
  | listen _ next => ∀ a, a ≠ .ok (.error e) → (next a).Spares e
  | openSocket _ next => ∀ a, (next a).Spares e
  | accept _ next => ∀ a, a ≠ .error e → (next a).Spares e
  | relay => True
  | associate _ => True

variable {e : IoError} {limit : UInt64} {here? : Option IpAddress} {r : Request}

theorem spares_giveUp {f : Failure} (h : f ≠ .transport e) (v : Version) (status : Status) :
    (giveUp v status f).Spares e := fun he => h (Except.error.inj he)

theorem spares_dialing (destination : Endpoint) : (dialing r destination).Spares e := by
  intro a hne
  rcases a with e' | (e' | here)
  · exact spares_giveUp (by simp) _ _
  · exact fun he => hne (by cases he; rfl)
  · trivial

theorem spares_connect : (connect r).Spares e := by
  unfold connect
  split
  · exact spares_dialing _
  · intro a
    cases a with
    | ok ip => exact spares_dialing _
    | error e' => exact spares_giveUp (by simp) _ _
  · exact spares_giveUp (by simp) _ _

theorem spares_welcome (caller : Endpoint) : (welcome r caller).Spares e := by
  unfold welcome
  split
  · split_ifs
    · trivial
    · exact spares_giveUp (by simp) _ _
  · trivial

theorem spares_bind : (bind limit here? r).Spares e := by
  intro a hne
  rcases a with e' | (e' | bound)
  · exact spares_giveUp (by simp) _ _
  · exact fun he => hne (by cases he; rfl)
  · intro answer hne
    rcases answer with e' | (_ | caller)
    · exact spares_giveUp (fun he => hne (congrArg _ (Failure.transport.inj he))) _ _
    · exact spares_giveUp (by simp) _ _
    · exact spares_welcome caller

theorem spares_datagrams : (datagrams here? r).Spares e := by
  intro a
  cases a with
  | ok inner =>
      intro a
      cases a with
      | ok outer => trivial
      | error e' => exact spares_giveUp (by simp) _ _
  | error e' => exact spares_giveUp (by simp) _ _

theorem spares_ofRequest : (ofRequest limit here? r).Spares e := by
  intro allowed
  cases allowed with
  | false => exact spares_giveUp (by simp) _ _
  | true =>
      show (perform limit here? r).Spares e
      unfold perform
      cases r.command with
      | connect => exact spares_connect
      | bind => exact spares_bind
      | associate => exact spares_datagrams

end Plan

namespace Association

variable (resolve : Answers) (a : Association)

/-- What the sockets of an association have failed with. -/
def failures (a : Association) : List IoError := a.innerError?.toList ++ a.outerError?.toList

theorem failures_handle (source : Endpoint) (packet : Packet) :
    (a.handle resolve source packet).1.failures = a.failures := by
  obtain ⟨parcel?, h, -⟩ := handle_cases resolve a source packet
  rw [h, learn_eq]
  rfl

theorem failures_handleAll (ds : List (Endpoint × Packet)) :
    (a.handleAll resolve ds).1.failures = a.failures := by
  induction ds generalizing a with
  | nil => rfl
  | cons d ds ih =>
      unfold handleAll
      split
      · rfl
      · exact (ih _).trans (failures_handle resolve a d.1 d.2)

/-- Datagrams and look-ups leave the sockets as they are. -/
theorem failures_after {e : Event} (he : e.error? = none) :
    (a.after resolve e).1.failures = a.failures := by
  cases e with
  | innerFails | outerFails => cases he
  | innerReceives source packet =>
      simp only [after, receive]
      split_ifs
      · rfl
      · exact failures_handleAll resolve { a with waiting := [] } _
  | resolved ip =>
      simp only [after, answer]
      split
      · rfl
      · exact failures_handleAll resolve { a with parcel? := none, waiting := [] } _
  | _ => rfl

theorem mem_failures_after {e : Event} {error : IoError}
    (h : error ∈ (a.after resolve e).1.failures) : error ∈ a.failures ∨ e.error? = some error := by
  cases he : e.error? with
  | none =>
      rw [failures_after resolve a he] at h
      exact .inl h
  | some error' =>
      cases e with
      | innerFails | outerFails =>
          cases he
          simp only [after, failInner, failOuter, failures] at h ⊢
          cases hi : a.innerError? <;> cases ho : a.outerError? <;> simp_all [or_comm, eq_comm]
      | clientBreaks | acceptFails | dialed | listened => exact .inl h
      | _ => cases he

theorem result_mem_failures {e : IoError} (h : a.result = .error (.transport e)) :
    e ∈ a.failures := by
  unfold result at h
  cases hi : a.innerError? <;> cases ho : a.outerError? <;> simp_all [failures]

end Association

namespace Session

variable {service : Service} {c : Connection} {out : Surroundings} {s s₀ : Session} {e : IoError}
  {p : Plan}

/-- Nothing that a session has to do with has failed with an error, nor has the session. -/
structure Clear (e : IoError) (s : Session) : Prop where
  control : s.control.Spares e
  far : ∀ far, s.far? = some far → far.Spares e
  plan : ∀ q, Awaits q s.phase → q.Spares e
  association : ∀ a, s.phase = .associated a → e ∉ a.failures

theorem Clear.result (h : Clear e s) : s.result? ≠ some (.error (.transport e)) := by
  intro hr
  unfold result? at hr
  split at hr
  · rename_i result hp
    cases hr
    have hspares := h.plan (.finish (.error (.transport e))) (by rw [hp]; exact .finish _)
    exact hspares rfl
  · cases hr

/-- What a plan spares does not depend on which question a session waits with. -/
theorem Awaits.spares {q q' : Plan} {phase : Phase} (h : Awaits q phase) (h' : Awaits q' phase)
    (hs : q.Spares e) : q'.Spares e := by
  cases h <;> cases h' <;> exact hs

theorem clear_of_awaits {q : Plan} (hc : s.control.Spares e)
    (hf : ∀ far, s.far? = some far → far.Spares e) (ha : Awaits q s.phase) (hq : q.Spares e) :
    Clear e s := by
  refine ⟨hc, hf, fun q' h' => ha.spares h' hq, fun a hp => ?_⟩
  rw [hp] at ha
  cases ha

theorem clear_over {result : Except Failure Unit} (hc : s.control.Spares e)
    (hf : ∀ far, s.far? = some far → far.Spares e) (hp : s.phase = .over result)
    (hr : result ≠ .error (.transport e)) : Clear e s :=
  clear_of_awaits (q := .finish result) hc hf (hp ▸ .finish result) hr

theorem Clear.passed (h : Clear e s) {event : Event} (he : event.error? ≠ some e) :
    Clear e (s.passed [event]) := by
  refine ⟨⟨h.control.fault, fun hbroken => ?_⟩, h.far, h.plan, h.association⟩
  cases event with
  | clientBreaks error =>
      cases hbroken
      exact he rfl
  | clientEnds => cases hbroken
  | _ => exact h.control.ending hbroken

/-! ### Relays and associations -/

section handedOver

variable {far : Stream}

theorem spent_spares (h : far.Spares e) : far.spent.Spares e := by
  refine ⟨h.fault, fun hbroken => ?_⟩
  simp only [Stream.spent] at hbroken
  cases hf : far.ending <;> simp [hf, Ending.met] at hbroken

theorem result?_ne_of_spares (h : far.Spares e) {result : Except Failure Unit}
    (hr : far.ending.result? = some result) : result ≠ .error (.transport e) := by
  rintro rfl
  cases hf : far.ending with
  | awaited | ended => rw [hf] at hr; cases hr
  | broken error =>
      rw [hf] at hr
      cases hr
      exact h.ending hf

theorem clear_relayOn (hc : s.control.Spares e) (hfar : s.far? = some far)
    (hf : far.fault? = none) (hs : far.Spares e) : Clear e s.relayOn := by
  cases he : s.control.ending.result? with
  | some result =>
      rw [relayOn_of_ending hfar hf he]
      refine clear_over (spent_spares hc) (fun far' hfar' => ?_) rfl (result?_ne_of_spares hc he)
      cases hfar'
      exact ⟨hs.fault, hs.ending⟩
  | none =>
      have ha : s.control.ending = .awaited := Ending.awaited_of_result? he
      by_cases ht : s.control.Takes far.incoming.length
      · have hspent : (far.wrote s.control.incoming).spent.Spares e :=
          spent_spares ⟨hs.fault, hs.ending⟩
        have hthere : ∀ far', some (far.wrote s.control.incoming).spent = some far' →
            far'.Spares e := by
          intro far' hfar'
          cases hfar'
          exact hspent
        rw [relayOn_of_takes hfar hf ha ht]
        cases hr : far.ending.result? with
        | some result =>
            exact clear_over ⟨hc.fault, hc.ending⟩ hthere rfl (result?_ne_of_spares hs hr)
        | none =>
            refine ⟨⟨hc.fault, hc.ending⟩, hthere, fun q hq => ?_, fun a hp => ?_⟩
            · cases hq
            · cases hp
      · obtain ⟨fault, k, hfault, -, hcut⟩ := relayOn_of_not_takes hfar hf ha ht
        rw [hcut]
        refine clear_over ⟨hc.fault, hc.ending⟩ (fun far' hfar' => ?_) rfl fun hr => ?_
        · cases hfar'
          exact ⟨hs.fault, hs.ending⟩
        · cases hr
          exact hc.fault fault hfault rfl

theorem clear_watch {a : Association} (hc : s.control.Spares e)
    (hf : ∀ far, s.far? = some far → far.Spares e) (ha : e ∉ a.failures) : Clear e (s.watch a) := by
  rw [watch_eq]
  by_cases he : s.control.ending = .awaited
  · rw [if_pos he]
    refine ⟨⟨hc.fault, hc.ending⟩, hf, fun q hq => ?_, fun a' hp => ?_⟩
    · cases hq
    · cases hp
      exact ha
  · rw [if_neg he]
    exact clear_over ⟨hc.fault, hc.ending⟩ hf rfl fun hr => ha (a.result_mem_failures hr)

end handedOver

/-! ### Plans -/

theorem idle_spares : Stream.idle.Spares e :=
  ⟨fun _ hfault => (by cases hfault), fun hbroken => (by cases hbroken)⟩

/-- To carry out a plan that spares an error keeps a session clear of it. -/
theorem clear_pursue {met : Bool} (hout : out.Spares e) (hp : p.Spares e) (hg : p.Grounded met)
    (hc : s.control.Spares e) (hfar : s.far? = if met then some .idle else none) :
    Clear e (pursue out service.rules p s) := by
  have hidle : ∀ far, s.far? = some far → far.Spares e :=
    fun far hthere => idle_of_far? hfar hthere ▸ idle_spares
  induction p generalizing s met with
  | finish result => exact clear_over hc hidle rfl hp
  | consult request next ih => exact ih _ (hp _) (hg _) hc hfar hidle
  | reply m next ih =>
      by_cases ht : s.control.Takes m.bytes.length
      · rw [pursue_reply ht]
        exact ih hp hg ⟨hc.fault, hc.ending⟩ hfar hidle
      · obtain ⟨fault, hfault, -, hcut⟩ :=
          @pursue_reply_of_not_takes out service.rules s m ht next
        rw [hcut]
        refine clear_over ⟨hc.fault, hc.ending⟩ hidle rfl fun hr => ?_
        cases hr
        exact hc.fault fault hfault rfl
  | resolve host next ih =>
      simp only [pursue]
      split
      · exact ih _ (hp _) (hg _) hc hfar hidle
      · exact clear_of_awaits hc hidle (.resolve host next) hp
  | dial destination next ih =>
      simp only [pursue]
      split
      · rename_i answer hanswer
        have hnext : (next answer).Spares e :=
          hp answer fun he => hout.dial destination (he ▸ hanswer)
        cases answer with
        | ok here =>
            refine ih _ hnext (hg.1 here) hc rfl fun far hthere => ?_
            cases hthere
            exact idle_spares
        | error error => exact ih _ hnext (hg.2 error) hc hfar hidle
      · exact clear_of_awaits hc hidle (.dial destination next) hp
  | listen place next ih =>
      simp only [pursue]
      split
      · rename_i answer hanswer
        exact ih _ (hp answer fun he => hout.listen place (he ▸ hanswer)) (hg _) hc hfar hidle
      · exact clear_of_awaits hc hidle (.listen place next) hp
  | openSocket place next ih =>
      simp only [pursue]
      split
      · exact ih _ (hp _) (hg _) hc hfar hidle
      · exact clear_of_awaits hc hidle (.openSocket place next) hp
  | accept limit next ih =>
      simp only [pursue]
      split_ifs
      · exact ih _ (hp _ (by simp)) hg.2.1 hc hfar hidle
      · exact clear_of_awaits hc hidle (.accept limit next _) hp
  | relay =>
      obtain rfl : met = true := hg
      exact clear_relayOn hc hfar rfl idle_spares
  | associate sockets =>
      exact clear_watch hc hidle (by simp [Association.failures, Association.start])

/-! ### Runs -/

/-- An answer that is not the error keeps what is left of a plan from it. -/
theorem Awaits.spares_continuation {q q' : Plan} {phase : Phase} {clock : Nat} {event : Event}
    {met : Bool} (h : Awaits q phase) (hq : q.Spares e)
    (hc : continuation? clock phase event = some (q', met)) (he : event.error? ≠ some e) :
    q'.Spares e := by
  have hstep := h.step_of_continuation hc .everything
  cases h with
  | accept limit next deadline =>
      cases event with
      | calledBy caller =>
          cases hc
          exact hq _ (by simp)
      | acceptFails error =>
          cases hc
          exact hq _ fun herror => he (congrArg some (Except.error.inj herror))
      | _ =>
          have hexpired : (expired? clock (.accepting next deadline)).map (fun q => (q, false)) =
              some (q', met) := hc
          obtain ⟨q'', hnext, heq⟩ := Option.map_eq_some_iff.mp hexpired
          cases heq
          rw [expired?, Option.ite_none_right_eq_some] at hnext
          cases hnext.2
          exact hq _ (by simp)
  | dial destination next | listen destination next =>
      cases event with
      | dialed answer | listened answer =>
          rcases answer with error | (error | here)
          · cases hc <;> exact hq _ (by simp)
          · cases hc <;> exact hq _ fun herror => he (by cases herror; rfl)
          · cases hc <;> exact hq _ (by simp)
      | _ => cases hc
  | finish | resolve | openSocket => cases hstep <;> exact hq _

/-- An event that does not bring the error keeps a session clear of it. -/
theorem Clear.step (h : Clear e s) (hout : out.Spares e) (hr : Rests s)
    (hreset : e ≠ .connectionReset) {event : Event} (he : event.error? ≠ some e) :
    Clear e (s.step service c out event) := by
  have hpassed := h.passed he
  cases hr with
  | @waits q met ha hg hfar =>
      rw [step_of_awaits ha hg (far?_of_met hfar)]
      cases hcont : continuation? (s.passed [event]).clock s.phase event with
      | none => exact hpassed
      | some answer =>
          obtain ⟨q', met'⟩ := answer
          have hspares := ha.spares_continuation (h.plan q ha) hcont he
          have hgrounded := (ha.step_of_continuation hcont service.rules).grounded hg
          exact clear_pursue hout hspares hgrounded ⟨hpassed.control.fault, hpassed.control.ending⟩
            (far?_went (s := s.passed [event]) hfar [] [] met')
  | @relays far hp hfar hf hfi hfa hci hca =>
      have hafter : (farAfter far event).Spares e := by
        refine ⟨fun fault hfault => (h.far far hfar).fault fault hfault, fun hbroken => ?_⟩
        cases event with
        | farResets => cases hbroken; exact hreset rfl
        | farEnds => cases hbroken
        | _ => exact (h.far far hfar).ending hbroken
      have hround : Clear e (s.farTaken far event).relayOn :=
        clear_relayOn ⟨hpassed.control.fault, hpassed.control.ending⟩ rfl hf hafter
      by_cases hevent : event = .farResets
      · subst hevent
        rw [step_of_relaying_reset hp hfar hf]
        exact ⟨hround.control, fun _ hthere => (by cases hthere), hround.plan, hround.association⟩
      · rw [step_of_relaying hp hfar hevent]
        exact hround
  | @attends a hp =>
      rw [step_of_associated hp]
      refine clear_watch ⟨hpassed.control.fault, hpassed.control.ending⟩ hpassed.far fun hmem => ?_
      rcases a.mem_failures_after _ hmem with hmem | hevent
      · exact h.association a hp hmem
      · exact he hevent
  | ended hp =>
      rw [step_of_over hp]
      exact hpassed

/-- A session that carries out the plan of a request does not end with an error with which nothing
outside has failed. -/
theorem clear_trace {limit : UInt64} {here? : Option IpAddress} {r : Request}
    (hout : out.Spares e) (hc : s₀.control.Spares e) (hfar : s₀.far? = none)
    (hreset : e ≠ .connectionReset) {events : List Event}
    (he : ∀ event ∈ events, event.error? ≠ some e) :
    Clear e ((pursue out service.rules (.ofRequest limit here? r) s₀).trace service c out
      events) := by
  induction events using List.reverseRecOn with
  | nil => exact clear_pursue hout Plan.spares_ofRequest Plan.grounded_ofRequest hc hfar
  | append_singleton events event ih =>
      have hevents := ih fun event hmem => he event (List.mem_append_left _ hmem)
      have hlast := he event (List.mem_append_right _ (List.mem_singleton_self _))
      rw [trace_snoc]
      exact hevents.step hout (rests_trace Plan.grounded_ofRequest hfar events) hreset hlast

end Session

end Socks
