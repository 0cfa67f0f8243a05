import Socks.Proofs.RuleGate
import Socks.Proofs.Session.Entrance
import Socks.Proofs.Session.Impaired

/-!
# A write that fails only cuts off

A connection whose control stream takes so many bytes and then fails every write does what it would
have done on a sound stream, until a message does not fit. What is left of that message is the last
that the client gets; nobody is asked anything more, the control stream is not handed over, and the
connection ends with the error of the write, or with what was wrong with the request if it was that
of which the client was being told.

Main statement: `Session.write_failure_truncates`.
-/

namespace Socks

theorem Failure.Answers.unique {f : Failure} {a a' last last' : Bytes} (h : f.Answers last)
    (h' : f.Answers last') (he : a ++ last = a' ++ last') : last = last' := by
  -- The forms of the two versions do not end in the same way.
  have hforms : ∀ (a a' : Bytes) (status status' : Status),
      a ++ (Reply.bare .v4 status).bytes ≠ a' ++ (Reply.bare .v5 status').bytes := by
    intro a a' status status' he
    have hsplit : (Reply.bare .v5 status').bytes =
        [5, status'.code] ++ [0, 1, 0, 0, 0, 0, 0, 0] := by cases status' <;> rfl
    rw [hsplit, ← List.append_assoc] at he
    have htail := (List.append_inj' he rfl).2
    cases status <;> cases htail
  obtain ⟨version, status, hstatus, rfl⟩ := h
  obtain ⟨version', status', hstatus', rfl⟩ := h'
  cases hstatus.symm.trans hstatus'
  cases version <;> cases version'
  · rfl
  · exact absurd he (hforms _ _ _ _)
  · exact absurd he.symm (hforms _ _ _ _)
  · rfl

namespace Session

variable {service : Service} {c : Connection} {out : Surroundings} {s t u : Session}
  {control : Stream} {fault : WriteFault} {w : Bytes} {f : Failure} {e : Event}

/-- The session has handed its control stream over to a relay or an association. -/
def handsOver (s : Session) : Bool :=
  match s.phase with
  | .relaying | .associated _ => true
  | _ => false

/-- The session after a number of events, or at the moment at which it hands its control stream
over. -/
def overture (service : Service) (c : Connection) (out : Surroundings) (s : Session) :
    List Event → Session
  | [] => s
  | e :: events =>
    if s.handsOver then s else (s.step service c out e).overture service c out events

/-- What the overture of a session is: the session after the events up to the hand-over. -/
theorem overture_eq_trace (service : Service) (c : Connection) (out : Surroundings) (s : Session)
    (events : List Event) :
    ∃ before after, events = before ++ after ∧
      s.overture service c out events = s.trace service c out before ∧
      (after ≠ [] → (s.trace service c out before).handsOver = true) ∧
      ∀ early late, before = early ++ late → late ≠ [] →
        (s.trace service c out early).handsOver = false := by
  induction events generalizing s with
  | nil =>
      refine ⟨[], [], rfl, rfl, fun hne => absurd rfl hne, fun early late he hne => ?_⟩
      exact absurd (List.nil_eq_append_iff.mp he).2 hne
  | cons e events ih =>
      by_cases h : s.handsOver = true
      · refine ⟨[], e :: events, rfl, by rw [overture, if_pos h]; rfl, fun _ => h, ?_⟩
        intro early late he hne
        exact absurd (List.nil_eq_append_iff.mp he).2 hne
      · obtain ⟨before, after, he, hoverture, hafter, hearly⟩ := ih (s.step service c out e)
        refine ⟨e :: before, after, by rw [he]; rfl, by rw [overture, if_neg h, hoverture]; rfl,
          hafter, ?_⟩
        intro early late hbefore hne
        cases early with
        | nil => exact Bool.eq_false_iff.mpr h
        | cons e' early =>
            rw [List.cons_append, List.cons.injEq] at hbefore
            obtain ⟨rfl, hbefore⟩ := hbefore
            exact hearly early late hbefore hne

/-- What a session is doing on a stream that takes every write. -/
inductive Stage (s : Session) : Prop
  | greets {d : Dialogue Request} {deadline : Nat} : Greeting d deadline s → Stage s
  | waits {q : Plan} {met : Bool} :
      Awaits q s.phase → q.Grounded met → s.far? = (if met then some .idle else none) →
      s.calls ≠ [] → Stage s
  | gone : s.handsOver = true → Stage s
  | ended {result : Except Failure Unit} : s.phase = .over result → Stage s

theorem Rests.stage (h : Rests s) (hcalls : s.calls ≠ []) : Stage s := by
  cases h with
  | waits ha hg hfar => exact .waits ha hg hfar hcalls
  | relays hp => exact .gone (by simp [handsOver, hp])
  | attends hp => exact .gone (by simp [handsOver, hp])
  | ended hp => exact .ended hp

theorem stage_of_stands {limit : UInt64} {here? : Option IpAddress} {r : Request} {s₀ : Session}
    {events : List Event} (h : Stands service.rules (.ofRequest limit here? r) s₀ events s)
    (hcalls : s₀.calls = []) (hfar : s₀.far? = none) : Stage s := by
  obtain ⟨more, hmore, -⟩ := h.calls_of_ofRequest hcalls
  exact (h.rests Plan.grounded_ofRequest hfar).stage (by simp [hmore])

theorem stage_of_greets {events : List Event} (h : Greets service c control events s) :
    Stage s := by
  cases h with
  | listening hadvance he hclock hs =>
      subst hs
      refine .greets ⟨rfl, ?_, rfl, rfl⟩
      exact (Handshake.candid_greet service.authenticator).of_listening
        (congrArg Pause.progress hadvance)
  | turned he hcause hs =>
      subst hs
      exact .ended rfl
  | past he hadvance hstands => exact stage_of_stands hstands rfl rfl

/-! ### One event on both streams -/

theorem Cut.of_over (h : Cut fault f s t) (events : List Event) : Cut fault f s (t.passed events) :=
  ⟨h.short, h.phase, h.written, h.calls, h.idle, h.sent⟩

theorem Reason.of_calls (h : Reason fault w f s) (hcalls : s.calls ≠ []) (hext : Extends s u) :
    Reason fault w f u := by
  have hmore : u.calls ≠ [] := fun hnil => hcalls (List.prefix_nil.mp (hnil ▸ hext.calls))
  cases h with
  | write hf => exact .write hf fun g hnil => absurd hnil hmore
  | last hnil => exact absurd hnil hcalls

theorem Reason.passed (h : Reason fault w f s) (events : List Event) :
    Reason fault w f (s.passed events) := by
  cases h with
  | write hf hall => exact .write hf hall
  | last hnil hr hw hanswers hfits => exact .last hnil hr hw hanswers hfits

/-- A session in its handshake that has been cut off keeps its reason when the handshake fails
otherwise. -/
theorem Reason.of_settle {d : Dialogue Request} {deadline : Nat} (h : Reason fault w f s)
    (hg : Greeting d deadline s) (hf : s.control.fault? = none) (hw : w <+: s.control.written)
    (hshort : fault.after < s.control.written.length) :
    Reason fault w f (s.settle service c out) := by
  cases h with
  | write hfailure =>
      refine .write hfailure fun g hcalls hr hs => ?_
      obtain ⟨opening, last, hwritten, hanswers⟩ := hg.last_words hf hcalls hr hs
      obtain ⟨before, hbefore⟩ := hw
      refine ⟨before ++ opening, last, ?_, hanswers, ?_⟩
      · rw [hwritten, ← hbefore]
        simp only [List.append_assoc]
      · rw [← List.append_assoc, hbefore, List.length_append]
        omega
  | last _ hr =>
      rw [result?, hg.phase] at hr
      cases hr

theorem step_of_greeting {d : Dialogue Request} {deadline : Nat} (h : Greeting d deadline s)
    (e : Event) : s.step service c out e = (s.passed [e]).settle service c out := by
  rw [step, take_of_handshake h.phase]

theorem Compares.step_of_greeting {d : Dialogue Request} {deadline : Nat}
    (h : Compares fault w s t) (hg : Greeting d deadline s) (hf : s.control.fault? = none)
    (hsent : s.sent = []) (hw : w <+: s.control.written) :
    Extends s (s.step service c out e) ∧
      Compares fault w (s.step service c out e) (t.step service c out e) := by
  have hpassed : Greeting d deadline (s.passed [e]) := ⟨hg.phase, hg.candid, hg.calls, hg.far⟩
  have hsaid : Extends s { s.passed [e] with
      control := (s.passed [e]).control.wrote (d.advance (s.passed [e]).control.incoming).said } :=
    ⟨List.prefix_append .., List.prefix_refl _, rfl⟩
  have hext := hsaid.trans (hpassed.extends_settle service c out hf)
  rw [Session.step_of_greeting hg]
  refine ⟨hext, ?_⟩
  cases h with
  | whole hfits ht =>
      subst ht
      have himpaired : Greeting d deadline (s.impaired fault) :=
        ⟨hg.phase, hg.candid, hg.calls, hg.far⟩
      rw [Session.step_of_greeting himpaired]
      exact hpassed.settle_impaired hf hfits hsent hw
  | cut hcut hreason =>
      exact .cut (hcut.step hext) ((hreason.passed [e]).of_settle hpassed hf hw hcut.short)

theorem pursue_awaited (service : Service) (out : Surroundings) (fault : WriteFault) (w : Bytes)
    {q' : Plan} {met met' : Bool} (hg : q'.Grounded (met || met'))
    (hfar : s.far? = if met then some .idle else none) (hcalls : s.calls ≠ [])
    (hf : s.control.fault? = none) (hsent : s.sent = []) :
    let goesOn (s : Session) := pursue out service.rules q' (s.went [] [] met')
    Extends s (goesOn s) ∧
      (s.control.written.length ≤ fault.after →
        Compares fault w (goesOn s) (goesOn (s.impaired fault))) := by
  intro goesOn
  have hwent := far?_went hfar [] [] met'
  have hmet : (met || met') = true → (s.went [] [] met').far? = some .idle := far?_of_met hwent
  have hwritten : (s.went [] [] met').control.written = s.control.written := List.append_nil _
  have hadds : Extends s (s.went [] [] met') :=
    extends_of_eq hwritten (List.append_nil _) rfl
  have hext : Extends s (goesOn s) := hadds.trans (extends_pursue hg hmet)
  refine ⟨hext, fun hfits => ?_⟩
  have hidle : ∀ far, (s.went [] [] met').far? = some far → far = .idle :=
    fun far => idle_of_far? hwent
  have hsame : goesOn (s.impaired fault) =
      pursue out service.rules q' ((s.went [] [] met').impaired fault) := rfl
  rw [hsame]
  refine compares_pursue (s := s.went [] [] met') w hf (hwritten ▸ hfits) hg hmet hidle hsent ?_
  exact fun hnil => hcalls (List.prefix_nil.mp (hnil ▸ hext.calls))

theorem Compares.step_of_awaits {q : Plan} {met : Bool} (h : Compares fault w s t)
    (ha : Awaits q s.phase) (hg : q.Grounded met) (hfar : s.far? = if met then some .idle else none)
    (hcalls : s.calls ≠ []) (hf : s.control.fault? = none) (hsent : s.sent = []) :
    Extends s (s.step service c out e) ∧
      Compares fault w (s.step service c out e) (t.step service c out e) := by
  have hmet : met = true → s.far? = some .idle := far?_of_met hfar
  have hstep := @Session.step_of_awaits service c out s q met ha hg hmet e
  have himpaired := @Session.step_of_awaits service c out (s.impaired fault) q met ha hg hmet e
  have hclock : ((s.impaired fault).passed [e]).clock = (s.passed [e]).clock := rfl
  have hphase : (s.impaired fault).phase = s.phase := rfl
  rw [hclock, hphase] at himpaired
  have hboth : Extends s (s.step service c out e) ∧ (s.control.written.length ≤ fault.after →
      Compares fault w (s.step service c out e) ((s.impaired fault).step service c out e)) := by
    rw [hstep, himpaired]
    cases hc : continuation? (s.passed [e]).clock s.phase e with
    | none => exact ⟨extends_passed s [e], fun hfits => .whole hfits rfl⟩
    | some next =>
        obtain ⟨q', met'⟩ := next
        have hg' := (ha.step_of_continuation hc service.rules).grounded hg
        have hnext := pursue_awaited service out fault w (s := s.passed [e]) hg' hfar hcalls hf
          hsent
        exact ⟨(extends_passed s [e]).trans hnext.1, hnext.2⟩
  refine ⟨hboth.1, ?_⟩
  cases h with
  | whole hfits ht => exact ht ▸ hboth.2 hfits
  | cut hcut hreason => exact .cut (hcut.step hboth.1) (hreason.of_calls hcalls hboth.1)

/-- An event leads a session that has not handed its control stream over to the same place on a
stream that fails. -/
theorem Compares.step (h : Compares fault w s t) (hs : Stage s) (hkeeps : s.handsOver = false)
    (hf : s.control.fault? = none) (hsent : s.sent = []) (hw : w <+: s.control.written) :
    Extends s (s.step service c out e) ∧
      Compares fault w (s.step service c out e) (t.step service c out e) := by
  cases hs with
  | greets hg => exact h.step_of_greeting hg hf hsent hw
  | waits ha hg hfar hcalls => exact h.step_of_awaits ha hg hfar hcalls hf hsent
  | gone hgone => rw [hkeeps] at hgone; cases hgone
  | ended hover =>
      rw [step_of_over hover]
      refine ⟨extends_passed s [e], ?_⟩
      cases h with
      | whole hfits ht =>
          subst ht
          rw [step_of_over (s := s.impaired fault) hover]
          exact .whole hfits rfl
      | cut hcut hreason => exact .cut (hcut.step (extends_passed s [e])) (hreason.passed [e])

/-! ### The whole overture on both streams -/

theorem Cut.not_handsOver (h : Cut fault f s t) (events : List Event) :
    (t.trace service c out events).handsOver = false := by
  rw [trace_of_over events h.phase]
  simp [handsOver, Session.passed, h.phase]

/-- A session that would write more in its overture than its stream takes is cut off, and has not
handed its control stream over before. -/
theorem Compares.overture (h : Compares fault w s t) (events : List Event)
    (hstage : ∀ events, Stage (s.trace service c out events))
    (hf : ∀ events, (s.trace service c out events).control.fault? = none) (hsent : s.sent = [])
    (hw : w <+: s.control.written)
    (hlong : fault.after < (s.overture service c out events).control.written.length) :
    w <+: (s.overture service c out events).control.written ∧
    (∃ f, Cut fault f (s.overture service c out events) (t.trace service c out events) ∧
      Reason fault w f (s.overture service c out events)) ∧
    ∀ before, before <+: events → (t.trace service c out before).handsOver = false := by
  -- Where the overture has come to its end, the session is already cut off.
  have hend : ∀ {s t : Session} (events : List Event), Compares fault w s t →
      fault.after < s.control.written.length →
      (∃ f, Cut fault f s (t.trace service c out events) ∧ Reason fault w f s) ∧
      ∀ before, (t.trace service c out before).handsOver = false := by
    intro s t events h hlong
    cases h with
    | whole hfits => omega
    | cut hcut hreason =>
        rw [trace_of_over events hcut.phase]
        exact ⟨⟨_, hcut.of_over events, hreason⟩, hcut.not_handsOver⟩
  induction events generalizing s t with
  | nil =>
      obtain ⟨hcut, hkeeps⟩ := hend [] h hlong
      exact ⟨hw, hcut, fun before _ => hkeeps before⟩
  | cons e events ih =>
      by_cases hover : s.handsOver = true
      · rw [Session.overture, if_pos hover] at hlong ⊢
        obtain ⟨hcut, hkeeps⟩ := hend (e :: events) h hlong
        exact ⟨hw, hcut, fun before _ => hkeeps before⟩
      · rw [Session.overture, if_neg hover] at hlong ⊢
        have hkeeps : s.handsOver = false := Bool.eq_false_iff.mpr hover
        obtain ⟨hext, hnext⟩ := h.step (e := e) (hstage []) hkeeps (hf []) hsent hw
        obtain ⟨hw', hcut, hrest⟩ := ih hnext (fun later => hstage (e :: later))
          (fun later => hf (e :: later)) (hext.sent.trans hsent) (hw.trans hext.written) hlong
        refine ⟨hw', hcut, fun before hbefore => ?_⟩
        cases before with
        | nil =>
            cases h with
            | whole hfits ht =>
                subst ht
                exact hkeeps
            | cut hcut => exact hcut.not_handsOver []
        | cons e' before =>
            obtain ⟨rfl, hrest'⟩ := List.cons_prefix_cons.mp hbefore
            exact hrest before hrest'

/-! ### What a session writes last -/

/-- What a session has written last: the reply to a malformed request, if it has ended with one, and
else nothing that counts. -/
inductive Closes (s : Session) (last : Bytes) : Prop
  | malformed {f : Failure} :
      s.calls = [] → s.result? = some (.error f) → f.Answers last → Closes s last
  | other :
      last = [] → (∀ f, s.calls = [] → s.result? = some (.error f) → f.replyStatus? = none) →
        Closes s last

theorem closes_of_stands {limit : UInt64} {here? : Option IpAddress} {r : Request} {s₀ : Session}
    {events : List Event} (h : Stands service.rules (.ofRequest limit here? r) s₀ events s)
    (hcalls : s₀.calls = []) (hf : s₀.control.fault? = none) :
    ∃ opening, s.control.written = s₀.control.written ++ opening ∧ s.Closes [] := by
  obtain ⟨cs, ms, met, q, relayed, late, -, hwritten, -⟩ := h.written hf
  obtain ⟨more, hmore, -⟩ := h.calls_of_ofRequest hcalls
  rw [List.append_assoc] at hwritten
  exact ⟨_, hwritten, .other rfl fun f hnil => by rw [hmore] at hnil; cases hnil⟩

/-- A session that has ended with a malformed request on a stream that takes every write has replied
to it. -/
theorem closes_of_greets {events : List Event} (h : Greets service c control events s)
    (hf : control.fault? = none) :
    ∃ opening last, s.control.written = control.written ++ (opening ++ last) ∧ s.Closes last := by
  cases h with
  | listening hadvance he hclock hs =>
      subst hs
      exact ⟨_, [], by rw [List.append_nil]; rfl, .other rfl fun f _ hr => by cases hr⟩
  | @turned before after f ending rest said he hcause hs =>
      subst hs
      have hother (hs : f.replyStatus? = none) : ∃ opening last,
          (greeted control ending (elapsed before) rest said (.over (.error f))).control.written =
            control.written ++ (opening ++ last) ∧
          Closes ((greeted control ending (elapsed before) rest said
            (.over (.error f))).passed after) last := by
        refine ⟨said, [], by rw [List.append_nil]; rfl, .other rfl fun f' _ hr => ?_⟩
        cases hr
        exact hs
      cases hcause with
      | failed hadvance =>
          have hcandid := Handshake.candid_greet service.authenticator
          rcases hcandid.failure (congrArg Pause.progress hadvance) with hunanswered |
            ⟨opening, last, hsaid, hanswers⟩
          · exact hother hunanswered.noReply
          · rw [hadvance] at hsaid
            refine ⟨opening, last, ?_, .malformed rfl rfl hanswers⟩
            rw [← hsaid]
            rfl
      | ended hadvance hne hfailure => exact hother (by rw [hfailure]; rfl)
      | slow hadvance hlate hfailure => exact hother (by rw [hfailure]; rfl)
      | cut hfirst hne hfull =>
          exact absurd (Stream.takes_of_faultless (s := control.wrote said) hf 1) hfull
  | @past before after r rest said phase he hadvance hstands =>
      obtain ⟨opening, hwritten, hcloses⟩ := closes_of_stands hstands rfl hf
      refine ⟨said ++ opening, [], ?_, hcloses⟩
      rw [hwritten, List.append_nil, ← List.append_assoc]
      rfl

/-! ### The two ways in which a connection begins -/

/-- A session that would write more in its overture than its stream takes writes what fits, and ends
with the error of the write or, in its last words, as it would have ended. -/
theorem Compares.cut_short {n : Nat} {error : IoError} {events : List Event} {opening last : Bytes}
    (h : Compares ⟨w.length + n, error⟩ w s t)
    (hstage : ∀ events, Stage (s.trace service c out events))
    (hf : ∀ events, (s.trace service c out events).control.fault? = none) (hsent : s.sent = [])
    (hw : w <+: s.control.written)
    (hwritten : (s.overture service c out events).control.written = w ++ (opening ++ last))
    (hcloses : (s.overture service c out events).Closes last)
    (hn : n < (opening ++ last).length) :
    let faulty (events : List Event) := t.trace service c out events
    (faulty events).control.written = w ++ (opening ++ last).take n ∧
      (faulty events).calls <+: (s.overture service c out events).calls ∧
      (∀ before, before <+: events → (faulty before).handsOver = false) ∧
      (∀ far, (faulty events).far? = some far → far = .idle) ∧ (faulty events).sent = [] ∧
      (faulty events).result? =
        if n < opening.length then some (.error (.transport error))
        else (s.overture service c out events).result? := by
  intro faulty
  have hlong : w.length + n < (s.overture service c out events).control.written.length := by
    rw [hwritten, List.length_append]
    omega
  obtain ⟨-, ⟨f, hcut, hreason⟩, hkeeps⟩ := h.overture events hstage hf hsent hw hlong
  have hresult : (faulty events).result? = some (.error f) := by simp [faulty, result?, hcut.phase]
  refine ⟨?_, hcut.calls, hkeeps, hcut.idle, hcut.sent, ?_⟩
  · rw [hcut.written, hwritten, List.take_append, List.take_of_length_le (Nat.le_add_right _ _),
      Nat.add_sub_cancel_left]
  · rw [hresult]
    -- The last words are the same, by whichever of the two they are known.
    have hsame : ∀ {g : Failure} {opening' last' : Bytes}, g.Answers last' →
        (s.overture service c out events).calls = [] →
        (s.overture service c out events).result? = some (.error g) →
        w ++ (opening ++ last) = w ++ opening' ++ last' → opening' = opening := by
      intro g opening' last' hanswers hnil hr he
      rw [List.append_assoc, List.append_cancel_left_eq] at he
      obtain ⟨version, status, hstatus, -⟩ := id hanswers
      cases hcloses with
      | malformed _ hr' hanswers' =>
          cases hr.symm.trans hr'
          obtain rfl := hanswers.unique hanswers' he.symm
          exact (List.append_cancel_right he).symm
      | other _ hnone =>
          rw [hnone g hnil hr] at hstatus
          cases hstatus
    cases hreason with
    | write hfailure hall =>
        have hfits : n < opening.length := by
          cases hcloses with
          | malformed hnil hr hanswers =>
              obtain ⟨version, status, hstatus, -⟩ := id hanswers
              obtain ⟨opening', last', he, hanswers', hlt⟩ := hall _ hnil hr (by simp [hstatus])
              obtain rfl := hsame hanswers' hnil hr (hwritten ▸ he)
              have hover : w.length + n < (w ++ opening').length := hlt
              rw [List.length_append] at hover
              omega
          | other hnothing _ =>
              rw [hnothing, List.append_nil] at hn
              exact hn
        rw [if_pos hfits, hfailure]
    | @last opening' last' hnil hr he hanswers hle =>
        have hfits : (w ++ opening').length ≤ w.length + n := hle
        obtain rfl : opening' = opening := hsame hanswers hnil hr (hwritten ▸ he)
        rw [List.length_append] at hfits
        rw [if_neg (by omega), hr]

variable {n : Nat} {error : IoError}

theorem compares_start (hf : control.fault? = none) :
    control.written <+: (start service c out control).control.written ∧
      (start service c out control).sent = [] ∧
      Compares ⟨control.written.length + n, error⟩ control.written (start service c out control)
        (start service c out (control.impaired ⟨control.written.length + n, error⟩)) := by
  have hgreeting : Greeting (Handshake.greet service.authenticator)
      (Clock.deadline 0 service.requestLimit) (fresh control
        (.handshake (Handshake.greet service.authenticator)
          (Clock.deadline 0 service.requestLimit))) :=
    ⟨rfl, Handshake.candid_greet _, rfl, rfl⟩
  have hext := hgreeting.extends_settle service c out hf
  exact ⟨(List.prefix_append ..).trans hext.written, hext.sent,
    hgreeting.settle_impaired hf (Nat.le_add_right _ _) rfl (List.prefix_refl control.written)⟩

theorem compares_ofRequest (r : Request) (hf : control.fault? = none) :
    control.written <+: (ofRequest service c out control r).control.written ∧
      (ofRequest service c out control r).sent = [] ∧
      Compares ⟨control.written.length + n, error⟩ control.written
        (ofRequest service c out control r)
        (ofRequest service c out (control.impaired ⟨control.written.length + n, error⟩) r) := by
  have hgrounded : (Plan.ofRequest service.bindLimit (c.server?.map Endpoint.ip) r).Grounded
    false := Plan.grounded_ofRequest
  have hext : Extends (fresh control (.over (.ok ()))) (ofRequest service c out control r) :=
    extends_pursue hgrounded far?_of_unmet
  refine ⟨hext.written, hext.sent, ?_⟩
  have hroom : control.written.length ≤ (⟨control.written.length + n, error⟩ : WriteFault).after :=
    Nat.le_add_right _ _
  exact compares_pursue (s := fresh control (.over (.ok ()))) control.written hf hroom hgrounded
    far?_of_unmet (by simp [fresh]) rfl (calls_pursue_ofRequest _ _ _ _)

/-- A write failure only truncates. What a connection writes before it hands its control stream over
falls into `opening` and `last`, the reply to a malformed request if there is one. If the stream
takes `n` bytes of it in all and then fails every write, the client gets the first `n` bytes, no
call is made that would not have been made, the control stream is not handed over, and the
connection ends with the error of the write, or as it would have ended if all of `opening` was
taken. -/
theorem write_failure_truncates (service : Service) (c : Connection) (out : Surroundings)
    {opens : Stream → Session}
    (ho : opens = start service c out ∨
      ∃ r, opens = fun control => ofRequest service c out control r)
    {control : Stream} (hf : control.fault? = none) (events : List Event) :
    let overture := (opens control).overture service c out events
    ∃ opening last, overture.control.written = control.written ++ (opening ++ last) ∧
      overture.Closes last ∧
      ∀ n < (opening ++ last).length, ∀ error : IoError,
        let faulty (events : List Event) :=
          (opens (control.impaired ⟨control.written.length + n, error⟩)).trace service c out events
        (faulty events).control.written = control.written ++ (opening ++ last).take n ∧
          (faulty events).calls <+: overture.calls ∧
          (∀ before, before <+: events → (faulty before).handsOver = false) ∧
          (∀ far, (faulty events).far? = some far → far = .idle) ∧ (faulty events).sent = [] ∧
          (faulty events).result? =
            if n < opening.length then some (.error (.transport error)) else overture.result? := by
  intro overture
  obtain ⟨before, after, -, htrace, -⟩ :=
    overture_eq_trace service c out (opens control) events
  have hoverture : overture = (opens control).trace service c out before := htrace
  rcases ho with rfl | ⟨r, rfl⟩
  · have hgreets := greets_trace service c out control
    obtain ⟨opening, last, hwritten, hcloses⟩ := closes_of_greets (hgreets before) hf
    rw [← hoverture] at hwritten hcloses
    refine ⟨opening, last, hwritten, hcloses, fun n hn error => ?_⟩
    obtain ⟨hfirst, hsent, hcompares⟩ := compares_start hf
    exact Compares.cut_short hcompares (fun events => stage_of_greets (hgreets events))
      (fun events => (hgreets events).fault.trans hf) hsent hfirst hwritten hcloses hn
  · have hstands := stands_ofRequest service c out control r
    obtain ⟨opening, hwritten, hcloses⟩ := closes_of_stands (hstands before) rfl hf
    rw [← List.append_nil opening] at hwritten
    have hcloses' : overture.Closes [] := hoverture ▸ hcloses
    have hwritten' : overture.control.written = control.written ++ (opening ++ []) :=
      hoverture ▸ hwritten
    refine ⟨opening, [], hwritten', hcloses', fun n hn error => ?_⟩
    obtain ⟨hfirst, hsent, hcompares⟩ := compares_ofRequest r hf
    exact Compares.cut_short hcompares (fun events => stage_of_stands (hstands events) rfl rfl)
      (fun events => (hstands events).fault.trans hf) hsent hfirst hwritten' hcloses' hn

/-- A client that asks for an unknown command is told so as far as it takes bytes. A stream that
fails before the reply makes the connection fail, one that fails in the reply does not hide what was
wrong with the request. -/
theorem write_failure_truncates_unknown_command :
    let service : Service := ⟨.anyone, fun _ => true, 10, 60⟩
    let control : Stream :=
      { Stream.idle with incoming := [5, 1, 0, 5, 9, 0, 1, 127, 0, 0, 1, 0, 80] }
    let error : IoError := ⟨.connectionReset, "reset"⟩
    let faulty (n : Nat) := (start service ⟨none, none⟩ .silent (control.impaired
      ⟨control.written.length + n, error⟩)).trace service ⟨none, none⟩ .silent [.clientEnds]
    control.fault? = none ∧ (faulty 1).result? = some (.error (.transport error)) ∧
      (faulty 5).control.written = [5, 0, 5, 7, 0] ∧
      (faulty 5).result? = some (.error (.commandNotSupported 9)) := by
  intro service control error faulty
  have hf : control.fault? = none := rfl
  have hclean :
      let s := overture service ⟨none, none⟩ .silent (start service ⟨none, none⟩ .silent control)
        [.clientEnds]
      s.control.written = [5, 0] ++ (Reply.bare .v5 .commandNotSupported).bytes ∧ s.calls = [] ∧
        s.result? = some (.error (.commandNotSupported 9)) := by
    decide +kernel
  have hwhole : control.written ++ ([5, 0] ++ (Reply.bare .v5 .commandNotSupported).bytes).take 5 =
      [5, 0, 5, 7, 0] ∧ 5 < ([5, 0] ++ (Reply.bare .v5 .commandNotSupported).bytes).length := by
    decide +kernel
  have hempty : control.written = [] := rfl
  obtain ⟨opening, last, hwritten, hcloses, hall⟩ :=
    write_failure_truncates service ⟨none, none⟩ .silent (.inl rfl) hf [.clientEnds]
  clear_value control service
  obtain ⟨hclean, hcalls, hr⟩ := hclean
  have hbytes : opening ++ last = [5, 0] ++ (Reply.bare .v5 .commandNotSupported).bytes := by
    rw [hwritten, hempty, List.nil_append] at hclean
    exact hclean
  have hlast : last = (Reply.bare .v5 .commandNotSupported).bytes := by
    cases hcloses with
    | malformed _ hr' hanswers =>
        cases hr.symm.trans hr'
        exact hanswers.unique ⟨.v5, _, rfl, rfl⟩ hbytes
    | other _ hnone =>
        have hstatus := hnone _ hcalls hr
        cases hstatus
  obtain rfl : opening = [5, 0] := by
    rw [hlast] at hbytes
    exact List.append_cancel_right hbytes
  subst hlast
  obtain ⟨-, -, -, -, -, hone⟩ := hall 1 (by omega) error
  obtain ⟨hfive, -, -, -, -, hresult⟩ := hall 5 hwhole.2 error
  exact ⟨hf, hone, hfive.trans hwhole.1, hresult.trans hr⟩

end Session

end Socks
