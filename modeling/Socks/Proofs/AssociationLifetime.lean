import Socks.Proofs.Session.Associated

/-!
# How long an association lasts

An association lasts as long as its client neither ends nor breaks off the control stream, whatever
becomes of single datagrams and of look-ups, and it ends at once when the client does. What the
client sends on the control stream makes no difference.

Main statement: `Session.association_lifetime`.
-/

namespace Socks

open Association Handshake

section outcome

variable {there : Address} {sockets : Sockets} {events : List Event} {a : Association}

/-- What an association comes to in whose time these events have happened: the inner socket counts
before the outer one. -/
def Association.outcome (events : List Event) : Except Failure Unit :=
  match (innerFailure? events).or (outerFailure? events) with
  | some e => .error (.transport e)
  | none => .ok ()

theorem Association.Follows.result (h : Follows there sockets events a) :
    a.result = outcome events := by
  have hor : (a.innerError? <|> a.outerError?) =
      (innerFailure? events).or (outerFailure? events) := by
    rw [h.innerError, h.outerError]
    cases innerFailure? events <;> rfl
  cases hcase : (innerFailure? events).or (outerFailure? events) with
  | none => simp [Association.result, outcome, hor, hcase]
  | some e => simp [Association.result, outcome, hor, hcase]

end outcome

/-- What the client is told about the sockets of its association. -/
def Outfit.told? (v : Version) : Outfit → Option Reply
  | opening => none
  | unopened _ => some (.bare v .serverFailure)
  | ready inner _ _ => some (.granted v inner)

namespace Session

variable {service : Service} {c : Connection} {out : Surroundings} {control : Stream} {s : Session}
  {events before later : List Event} {r : Request} {inner outer : Endpoint} {o : Outfit}

/-- What a session shows of the life of its association, which was asked for with the destination
`there` on the stream `control`, when these events have happened since. -/
structure Lives (out : Surroundings) (v : Version) (there : Address) (control : Stream)
    (events : List Event) (o : Outfit) (s : Session) : Prop where
  opening : o = .opening → s.shown = ⟨[], control.written, none⟩
  cut : ∀ m, o.told? v = some m → ¬control.Takes m.bytes.length → ∃ fault,
    control.fault? = some fault ∧ fault.after - control.written.length < m.bytes.length ∧
      s.shown = ⟨[], control.written ++ m.bytes.take (fault.after - control.written.length),
        some (.error (.transport fault.error))⟩
  unopened : ∀ e, o = .unopened e →
    control.Takes (Reply.bare v .serverFailure).bytes.length →
      s.shown = ⟨[], control.written ++ (Reply.bare v .serverFailure).bytes,
        some (.error (.command (.noRelaySockets e)))⟩
  ready : ∀ inner outer later, o = .ready inner outer later →
    control.Takes (Reply.granted v inner).bytes.length → ∃ before, events = before ++ later ∧
      let lived := quiet (attended (endingAfter control.ending before) later)
      let a := Association.start ⟨inner, outer, there.literalHost?⟩
      s.shown = ⟨sendings (a.afterAll out.resolve lived).2,
        control.written ++ (Reply.granted v inner).bytes,
        if endingAfter control.ending events = .awaited then none else some (outcome lived)⟩

/-- What the client sends does not move what a run shows, and nothing does once the run is over. -/
structure Unmoved (run : List Event → Session) (events : List Event) : Prop where
  deaf : ∀ other, quiet other = quiet events → (run other).shown = (run events).shown
  ended : (run events).isOver = true → ∀ more, (run (events ++ more)).shown = (run events).shown

theorem shown_fitted (hr : Replied control before [] s) (hs : s.sent = [])
    (ht : control.Takes (Reply.granted r.version inner).bytes.length) (later : List Event) :
    let lived := quiet (attended (endingAfter control.ending before) later)
    let a := Association.start ⟨inner, outer, r.destination.literalHost?⟩
    ((pursue out service.rules (.fitted r inner outer) s).trace service c out later).shown =
      ⟨sendings (a.afterAll out.resolve lived).2,
        control.written ++ (Reply.granted r.version inner).bytes,
        if endingAfter control.ending (before ++ later) = .awaited then none
        else some (outcome lived)⟩ := by
  intro lived a
  have hending : (s.replied (.granted r.version inner)).control.ending =
      endingAfter control.ending before := by
    show s.control.ending = _
    rw [hr.control_eq]
    rfl
  have hresult : (a.afterAll out.resolve lived).1.result = outcome lived :=
    ((follows_start r.destination ⟨inner, outer, r.destination.literalHost?⟩).afterAll rfl
      out.resolve lived).1.result
  have hshown := @shown_trace_watch service c out (s.replied (.granted r.version inner)) a later
  dsimp only at hshown
  rw [hending, ← endingAfter_append, ← Association.afterAll_quiet, hresult] at hshown
  rw [pursue_fitted hr ht, hshown]
  show (⟨s.sent ++ _, s.control.written ++ _, _⟩ : Shown) = _
  rw [hs, hr.control_eq]
  rfl

theorem Fits.lives (h : Fits service c out r control [] events o s) :
    Lives out r.version r.destination control events o s := by
  cases h with
  | @opening next s hr hs hp =>
      have hshown : s.shown = ⟨[], control.written, none⟩ := by
        rw [shown, hs, hr.control_eq, result?, hp]
        rfl
      refine ⟨fun _ => hshown, ?_, ?_, ?_⟩
      · intro m hm
        cases hm
      · intro e he
        cases he
      · intro inner outer later he
        cases he
  | @unopened before later e s he hr hs =>
      refine ⟨?_, ?_, ?_, ?_⟩
      · intro he
        cases he
      · intro m hm ht
        cases hm
        exact shown_reply_cut hr hs ht _ later
      · intro e' he' ht
        cases he'
        exact shown_giveUp hr hs ht later
      · intro inner outer later' he'
        cases he'
  | @ready before later inner outer s he hr hs =>
      refine ⟨?_, ?_, ?_, ?_⟩
      · intro he
        cases he
      · intro m hm ht
        cases hm
        exact shown_reply_cut hr hs ht _ later
      · intro e' he'
        cases he'
      · intro inner' outer' later' he' ht
        cases he'
        refine ⟨before, he, ?_⟩
        rw [he]
        exact shown_fitted hr hs ht later

theorem Lives.agree {other : List Event} {o' : Outfit} {s' : Session} {v : Version}
    {there : Address} (h : Lives out v there control events o s)
    (h' : Lives out v there control other o' s') (hquiet : quiet other = quiet events)
    (ho : o'.quieted = o.quieted) : s'.shown = s.shown := by
  have hcut : ∀ m, o.told? v = some m → o'.told? v = some m → ¬control.Takes m.bytes.length →
      s'.shown = s.shown := by
    intro m hm hm' ht
    obtain ⟨fault, hfault, -, hs⟩ := h.cut m hm ht
    obtain ⟨fault', hfault', -, hs'⟩ := h'.cut m hm' ht
    rw [hfault] at hfault'
    cases hfault'
    rw [hs', hs]
  cases o with
  | opening =>
      cases o' with
      | opening => rw [h'.opening rfl, h.opening rfl]
      | unopened | ready => cases ho
  | unopened e =>
      cases o' with
      | unopened e' =>
          cases ho
          by_cases ht : control.Takes (Reply.bare v .serverFailure).bytes.length
          · rw [h'.unopened e rfl ht, h.unopened e rfl ht]
          · exact hcut _ rfl rfl ht
      | opening | ready => cases ho
  | ready inner outer later =>
      cases o' with
      | ready inner' outer' later' =>
          obtain ⟨rfl, rfl, hlater⟩ := Outfit.ready.inj ho
          by_cases ht : control.Takes (Reply.granted v inner').bytes.length
          · obtain ⟨before, he, hs⟩ := h.ready _ _ _ rfl ht
            obtain ⟨before', he', hs'⟩ := h'.ready _ _ _ rfl ht
            have hboth := hquiet
            rw [he, he'] at hboth
            have hopened := endingAfter_congr (quiet_before hboth hlater) control.ending
            have hended := endingAfter_congr hquiet control.ending
            rw [hs', hs, hopened, hended, ← attended_quiet, hlater, attended_quiet]
          · exact hcut _ rfl rfl ht
      | opening | unopened => cases ho

theorem unmoved_of_lives {run : List Event → Session} {v : Version} {there : Address}
    (hlives : ∀ late, Lives out v there control late (.ofConnection c out late) (run late))
    (htrace : ∀ more, run (events ++ more) = (run events).trace service c out more) :
    Unmoved run events := by
  refine ⟨fun other hquiet => ?_, fun hover more => ?_⟩
  · apply (hlives events).agree (hlives other) hquiet
    rw [← Outfit.ofConnection_quiet, hquiet, Outfit.ofConnection_quiet]
  · rw [htrace]
    exact shown_trace_of_over hover more

/-- How long an association lasts, for a request that is known from the start and for one that comes
in a handshake: it has come to nothing as long as the control stream is open, and to its end as soon
as that has ended or broken off. What is sent and what the client is told does not depend on what
the client sends on the control stream, and a session that is over shows nothing more. Without both
sockets the client is told so, and nothing is ever sent. -/
theorem association_lifetime (service : Service) (c : Connection) (out : Surroundings)
    (control : Stream) (events : List Event) :
    (∀ r, r.command = .associate → service.rules r = true →
      let run := (ofRequest service c out control r).trace service c out
      Lives out r.version r.destination control events (.ofConnection c out events) (run events) ∧
        Unmoved run events) ∧
    (let s := (start service c out control).trace service c out events
     Outside s ∨
      ∃ before after r hello rest said, events = before ++ after ∧
        Accepts service.authenticator r hello said ∧ sentBy control before = hello ++ rest ∧
        (let stream : Stream :=
          { control with
            incoming := rest
            ending := endingAfter control.ending before
            written := control.written ++ said }
         let run (late : List Event) : Session :=
          (start service c out control).trace service c out (before ++ late)
         r.command = .associate → service.rules { r with client? := c.client? } = true →
          Lives out r.version r.destination stream after (.ofConnection c out after) s ∧
            Unmoved run after)) := by
  constructor
  · intro r hcommand hr run
    have hlives : ∀ late, Lives out r.version r.destination control late
        (.ofConnection c out late) (run late) := fun late =>
      (fits_ofRequest hcommand hr late).lives
    exact ⟨hlives events, unmoved_of_lives hlives fun more => trace_append ..⟩
  · intro s
    cases enters_trace service c out control events with
    | outside ho => exact .inl ho
    | @inside before after r hello rest said phase he ha hsent hs =>
        refine .inr ⟨before, after, r, hello, rest, said, he, ha, hsent, ?_⟩
        intro stream run hcommand hr
        have hlives : ∀ late, Lives out r.version r.destination stream late
            (.ofConnection c out late) (run late) := fun late =>
          (fits_start hcommand hr hs late).lives
        have hlast : run after = s := by
          show (start service c out control).trace service c out (before ++ after) = s
          rw [← he]
        have htrace : ∀ more, run (after ++ more) = (run after).trace service c out more := by
          intro more
          show (start service c out control).trace service c out (before ++ (after ++ more)) = _
          rw [← List.append_assoc, trace_append]
        exact ⟨hlast ▸ hlives after, unmoved_of_lives hlives htrace⟩

/-- A client ends while a name is looked up for it. The answer comes too late, and so does another
datagram of the client. -/
theorem association_lifetime_pending_lookup :
    let service : Service := ⟨.anyone, fun _ => true, 10, 60⟩
    let out : Surroundings := .silent
    let r : Request := ⟨.v5, .associate, .literal .anyV4 0, .anonymous, none⟩
    let inner : Endpoint := ⟨.ofOctets 127 0 0 1, 1080⟩
    let client : Endpoint := ⟨.ofOctets 10 0 0 1, 9⟩
    let opened : List Event := [.opened (.ok inner), .opened (.ok ⟨.anyV4, 5353⟩)]
    let asked : List Event :=
      [.innerReceives client ⟨[0, 0, 0, 3, 1, 104, 0, 53, 98], true⟩, .clientSends [104, 105]]
    let ended : List Event :=
      [.clientEnds, .resolved (.ok (.ofOctets 10 0 0 7)),
        .innerReceives client ⟨[0, 0, 0, 1, 10, 0, 0, 7, 0, 53, 99], true⟩]
    let run := (ofRequest service ⟨none, none⟩ out .idle r).trace service ⟨none, none⟩ out
    r.command = .associate ∧ service.rules r = true ∧
      Stream.Takes .idle (Reply.granted .v5 inner).bytes.length ∧
      (run (opened ++ asked)).question? = some (.resolve "h") ∧
      (run (opened ++ asked)).shown = ⟨[], (Reply.granted .v5 inner).bytes, none⟩ ∧
      (run (opened ++ (asked ++ ended))).shown =
        ⟨[], (Reply.granted .v5 inner).bytes, some (.ok ())⟩ := by
  intro service out r inner client opened asked ended run
  have ht : Stream.Takes .idle (Reply.granted .v5 inner).bytes.length :=
    Stream.takes_of_faultless rfl _
  have hready : ∀ late, ∃ before, opened ++ late = before ++ late ∧ _ := fun late =>
    ((association_lifetime service ⟨none, none⟩ out .idle (opened ++ late)).1 r rfl rfl).1.ready
      inner ⟨.anyV4, 5353⟩ late rfl ht
  obtain ⟨before, he, hasked⟩ := hready asked
  obtain ⟨before', he', hended⟩ := hready (asked ++ ended)
  obtain rfl := List.append_cancel_right he
  obtain rfl := List.append_cancel_right he'
  exact ⟨rfl, rfl, ht, by decide +kernel, hasked, hended⟩

/-- A client that cannot be written to is not told that there is no socket, and this is not what its
request comes to. -/
theorem no_sockets_untold :
    let service : Service := ⟨.anyone, fun _ => true, 10, 60⟩
    let taken : IoError := ⟨.addrInUse, "taken"⟩
    let gone : IoError := ⟨.brokenPipe, "client gone"⟩
    let out : Surroundings :=
      { Surroundings.silent with openSocket := fun _ _ => some (.error taken) }
    let control : Stream := { Stream.idle with fault? := some ⟨0, gone⟩ }
    let r : Request := ⟨.v5, .associate, .literal .anyV4 0, .anonymous, none⟩
    let s := ofRequest service ⟨none, none⟩ out control r
    s.isOver = true ∧ s.control.written ≠ (Reply.bare .v5 .serverFailure).bytes ∧
      s.result? ≠ some (.error (.command (.noRelaySockets taken))) ∧
      s.shown = ⟨[], [], some (.error (.transport gone))⟩ := by
  decide +kernel

end Session

end Socks
