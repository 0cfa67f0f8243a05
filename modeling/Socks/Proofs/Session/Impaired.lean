import Socks.Proofs.Session.Greeting
import Socks.Proofs.Session.Resting

/-!
# Plans on control streams that fail

A session that carries out a plan on a stream which fails does what it would have done on a sound
one, up to the reply that it cannot write whole.

Main statements: carrying out a plan only adds to what a session has written and called
(`Session.extends_pursue`), and on a stream that fails it leads to the same place or is cut off
(`Session.pursue_impaired`).
-/

namespace Socks

/-- The stream when it takes so many bytes in all, and then fails every write. -/
def Stream.impaired (s : Stream) (fault : WriteFault) : Stream := { s with fault? := some fault }

theorem Stream.takes_impaired_iff {s : Stream} {fault : WriteFault} {n : Nat} :
    (s.impaired fault).Takes n ↔ n ≤ fault.after - s.written.length := by
  constructor
  · intro h
    exact h fault rfl
  · intro h fault' hfault
    cases hfault
    exact h

namespace Session

variable {service : Service} {c : Connection} {out : Surroundings} {rules : Rules} {p : Plan}
  {s t : Session} {fault : WriteFault} {met : Bool}

/-- The session on a control stream that fails. -/
def impaired (s : Session) (fault : WriteFault) : Session :=
  { s with control := s.control.impaired fault }

/-! ### What a session adds -/

/-- A session has written and called all that another one has, and has sent no datagram since. -/
structure Extends (s t : Session) : Prop where
  written : s.control.written <+: t.control.written
  calls : s.calls <+: t.calls
  sent : t.sent = s.sent

theorem Extends.trans {u : Session} (h : Extends s t) (h' : Extends t u) : Extends s u :=
  ⟨h.written.trans h'.written, h.calls.trans h'.calls, h'.sent.trans h.sent⟩

theorem extends_of_eq (hw : t.control.written = s.control.written) (hc : t.calls = s.calls)
    (hs : t.sent = s.sent) : Extends s t :=
  ⟨hw ▸ List.prefix_refl _, hc ▸ List.prefix_refl _, hs⟩

theorem extends_passed (s : Session) (events : List Event) : Extends s (s.passed events) :=
  extends_of_eq rfl rfl rfl

theorem extends_record (s : Session) (call : Call) (phase : Phase) :
    Extends s { s.record call with phase := phase } :=
  ⟨List.prefix_refl _, List.prefix_append .., rfl⟩

theorem relayOn_idle (fault : WriteFault) (h : s.far? = some .idle) :
    Extends s s.relayOn ∧ s.relayOn.control.written = s.control.written ∧
      (s.impaired fault).relayOn = s.relayOn.impaired fault := by
  have hi : (s.impaired fault).far? = some .idle := h
  cases he : s.control.ending.result? with
  | some result =>
      have hie : (s.impaired fault).control.ending.result? = some result := he
      rw [relayOn_of_ending h rfl he, relayOn_of_ending hi rfl hie]
      exact ⟨extends_of_eq rfl rfl rfl, rfl, rfl⟩
  | none =>
      have ha : s.control.ending = .awaited := Ending.awaited_of_result? he
      have hia : (s.impaired fault).control.ending = .awaited := ha
      rw [relayOn_of_takes h rfl ha fun _ _ => Nat.zero_le _,
        relayOn_of_takes hi rfl hia fun _ _ => Nat.zero_le _]
      exact ⟨extends_of_eq (List.append_nil _) rfl rfl, List.append_nil _, rfl⟩

theorem extends_pursue (hg : p.Grounded met) (hfar : met = true → s.far? = some .idle) :
    Extends s (pursue out rules p s) := by
  induction p generalizing s met with
  | finish result => exact extends_of_eq rfl rfl rfl
  | consult request next ih =>
      exact (extends_record s _ s.phase).trans (ih _ (s := s.record _) (hg _) hfar)
  | reply m next ih =>
      by_cases ht : s.control.Takes m.bytes.length
      · rw [pursue_reply ht]
        have hreplied : Extends s (s.replied m) :=
          ⟨List.prefix_append .., List.prefix_refl _, rfl⟩
        exact hreplied.trans (ih (s := s.replied m) hg hfar)
      · obtain ⟨fault, -, -, hcut⟩ := @pursue_reply_of_not_takes out rules s m ht next
        rw [hcut]
        exact ⟨List.prefix_append .., List.prefix_refl _, rfl⟩
  | resolve host next ih =>
      simp only [pursue]
      split
      · exact (extends_record s _ s.phase).trans (ih _ (s := s.record _) (hg _) hfar)
      · exact extends_record s _ _
  | dial destination next ih =>
      simp only [pursue]
      split
      · rename_i answer _
        refine (extends_record s (.dial destination) s.phase).trans ?_
        cases answer with
        | ok here =>
            have hreached : Extends (s.record (.dial destination))
              ((s.record (.dial destination)).reach (.ok here)) := extends_of_eq rfl rfl rfl
            exact hreached.trans (ih _ (hg.1 here) fun _ => rfl)
        | error e => exact ih _ (s := s.record _) (hg.2 e) hfar
      · exact extends_record s _ _
  | listen place next ih =>
      simp only [pursue]
      split
      · exact (extends_record s _ s.phase).trans (ih _ (s := s.record _) (hg _) hfar)
      · exact extends_record s _ _
  | openSocket place next ih =>
      simp only [pursue]
      split
      · exact (extends_record s _ s.phase).trans (ih _ (s := s.record _) (hg _) hfar)
      · exact extends_record s _ _
  | accept limit next ih =>
      simp only [pursue]
      split_ifs
      · exact ih _ hg.2.1 hfar
      · exact extends_of_eq rfl rfl rfl
  | relay => exact (relayOn_idle ⟨0, .connectionReset⟩ (hfar hg)).1
  | associate sockets =>
      simp only [pursue, watch_eq]
      exact extends_of_eq rfl rfl rfl

/-! ### Where a stream that fails leads -/

/-- A session `t` has been cut off with the failure `f`, when the session `s` has gone on. -/
structure Cut (fault : WriteFault) (f : Failure) (s t : Session) : Prop where
  short : fault.after < s.control.written.length
  phase : t.phase = .over (.error f)
  written : t.control.written = s.control.written.take fault.after
  calls : t.calls <+: s.calls
  idle : ∀ far, t.far? = some far → far = .idle
  sent : t.sent = []

theorem Cut.step {f : Failure} {u : Session} {e : Event} (h : Cut fault f s t) (hs : Extends s u) :
    Cut fault f u (t.step service c out e) := by
  rw [step_of_over h.phase]
  obtain ⟨more, hmore⟩ := hs.written
  refine ⟨Nat.lt_of_lt_of_le h.short hs.written.length_le, h.phase, ?_, h.calls.trans hs.calls,
    h.idle, h.sent⟩
  rw [← hmore, List.take_append_of_le_length (Nat.le_of_lt h.short), ← h.written]
  rfl

/-- A session that is cut off while it says something, when otherwise it would go on from there. -/
theorem cut_of_said {said : Bytes} {f : Failure} {stream : Stream}
    (hshort : fault.after - s.control.written.length < said.length)
    (hroom : s.control.written.length ≤ fault.after)
    (hstream : stream.written =
      s.control.written ++ said.take (fault.after - s.control.written.length))
    (ht : Extends { s with control := s.control.wrote said } t)
    (hidle : ∀ far, s.far? = some far → far = .idle) (hsent : s.sent = []) :
    Cut fault f t { s with control := stream, phase := .over (.error f) } := by
  obtain ⟨more, hmore⟩ := ht.written
  have hlen := ht.written.length_le
  simp only [Stream.wrote, List.length_append] at hlen
  refine ⟨by omega, rfl, ?_, ht.calls, hidle, hsent⟩
  rw [← hmore, Stream.wrote, List.append_assoc, List.take_append, List.take_of_length_le hroom,
    List.take_append_of_le_length (Nat.le_of_lt hshort)]
  exact hstream

/-- To carry out a plan on a stream that fails leads to the same place, or is cut off. -/
theorem pursue_impaired (out : Surroundings) (rules : Rules) (hf : s.control.fault? = none)
    (hroom : s.control.written.length ≤ fault.after) (hg : p.Grounded met)
    (hfar : met = true → s.far? = some .idle) (hidle : ∀ far, s.far? = some far → far = .idle)
    (hsent : s.sent = []) :
    (pursue out rules p s).control.written.length ≤ fault.after ∧
        pursue out rules p (s.impaired fault) = (pursue out rules p s).impaired fault ∨
      Cut fault (.transport fault.error) (pursue out rules p s)
        (pursue out rules p (s.impaired fault)) := by
  induction p generalizing s met with
  | finish result => exact .inl ⟨hroom, rfl⟩
  | consult request next ih => exact ih _ (s := s.record _) hf hroom (hg _) hfar hidle hsent
  | reply m next ih =>
      rw [pursue_reply (Stream.takes_of_faultless hf _)]
      by_cases ht : (s.impaired fault).control.Takes m.bytes.length
      · have hlen := Stream.takes_impaired_iff.mp ht
        rw [pursue_reply ht]
        refine ih (s := s.replied m) hf ?_ hg hfar hidle hsent
        simp only [replied, Stream.wrote, List.length_append]
        omega
      · obtain ⟨fault', hfault, hlt, hcut⟩ :=
          @pursue_reply_of_not_takes out rules (s.impaired fault) m ht next
        cases hfault
        rw [hcut]
        exact .inr (cut_of_said (s := s) hlt hroom rfl (extends_pursue (s := s.replied m) hg hfar)
          hidle hsent)
  | resolve host next ih =>
      simp only [pursue]
      split
      · exact ih _ (s := s.record _) hf hroom (hg _) hfar hidle hsent
      · exact .inl ⟨hroom, rfl⟩
  | dial destination next ih =>
      simp only [pursue]
      split
      · rename_i answer _
        cases answer with
        | ok here =>
            refine ih _ (s := (s.record _).reach (.ok here)) hf hroom (hg.1 here) (fun _ => rfl) ?_
              hsent
            rintro far hthere
            exact (Option.some.inj hthere).symm
        | error e => exact ih _ (s := s.record _) hf hroom (hg.2 e) hfar hidle hsent
      · exact .inl ⟨hroom, rfl⟩
  | listen place next ih =>
      simp only [pursue]
      split
      · exact ih _ (s := s.record _) hf hroom (hg _) hfar hidle hsent
      · exact .inl ⟨hroom, rfl⟩
  | openSocket place next ih =>
      have hbefore : (s.impaired fault).socketsOpened = s.socketsOpened := rfl
      simp only [pursue, hbefore]
      split
      · exact ih _ (s := s.record _) hf hroom (hg _) hfar hidle hsent
      · exact .inl ⟨hroom, rfl⟩
  | accept limit next ih =>
      have hclock : (s.impaired fault).clock = s.clock := rfl
      simp only [pursue, hclock]
      split_ifs
      · exact ih _ hf hroom hg.2.1 hfar hidle hsent
      · exact .inl ⟨hroom, rfl⟩
  | relay =>
      obtain ⟨-, hwritten, himpaired⟩ := relayOn_idle fault (hfar hg)
      exact .inl ⟨by rw [pursue, hwritten]; exact hroom, himpaired⟩
  | associate sockets =>
      simp only [pursue, watch_eq]
      exact .inl ⟨hroom, rfl⟩

/-! ### Handshakes on streams that fail -/

/-- Why a session has been cut off with the failure `f` that would have come to `s`: with the error
of the write, or with what is wrong with a request while its client was being told of it. All this
was written after `w`. -/
inductive Reason (fault : WriteFault) (w : Bytes) (f : Failure) (s : Session) : Prop
  | write :
      f = .transport fault.error →
      (∀ g, s.calls = [] → s.result? = some (.error g) → g.replyStatus? ≠ none →
        ∃ opening last, s.control.written = w ++ opening ++ last ∧ g.Answers last ∧
          fault.after < (w ++ opening).length) →
        Reason fault w f s
  | last {opening last : Bytes} :
      s.calls = [] → s.result? = some (.error f) → s.control.written = w ++ opening ++ last →
      f.Answers last → (w ++ opening).length ≤ fault.after →
        Reason fault w f s

/-- What a session `t` on a stream that fails has to do with the session `s` on a sound one. -/
inductive Compares (fault : WriteFault) (w : Bytes) (s t : Session) : Prop
  | whole : s.control.written.length ≤ fault.after → t = s.impaired fault → Compares fault w s t
  | cut {f : Failure} : Cut fault f s t → Reason fault w f s → Compares fault w s t

/-- To carry out a plan for which somebody is called leads to the same place on a stream that fails,
or is cut off with the error of the write. -/
theorem compares_pursue (w : Bytes) (hf : s.control.fault? = none)
    (hroom : s.control.written.length ≤ fault.after) (hg : p.Grounded met)
    (hfar : met = true → s.far? = some .idle) (hidle : ∀ far, s.far? = some far → far = .idle)
    (hsent : s.sent = []) (hcalls : (pursue out rules p s).calls ≠ []) :
    Compares fault w (pursue out rules p s) (pursue out rules p (s.impaired fault)) := by
  rcases pursue_impaired out rules hf hroom hg hfar hidle hsent with ⟨hfits, heq⟩ | hcut
  · exact .whole hfits heq
  · exact .cut hcut (.write rfl fun g hnil => absurd hnil hcalls)

theorem calls_pursue_ofRequest (limit : UInt64) (here? : Option IpAddress) (r : Request)
    (s : Session) : (pursue out rules (.ofRequest limit here? r) s).calls ≠ [] := by
  intro hnil
  have hgrounded : (Plan.ofRequest limit here? r).Grounded false := Plan.grounded_ofRequest
  have hadds : Extends (s.record (.rules r (rules r)))
      (pursue out rules (.ofRequest limit here? r) s) :=
    extends_pursue (hgrounded (rules r)) far?_of_unmet
  have hcalls := hadds.calls
  rw [hnil, List.prefix_nil, record] at hcalls
  simp at hcalls

/-- A session that is in its handshake has not called anybody. -/
structure Greeting (d : Dialogue Request) (deadline : Nat) (s : Session) : Prop where
  phase : s.phase = .handshake d deadline
  candid : d.Candid Failure.Unanswered Failure.Answers
  calls : s.calls = []
  far : s.far? = none

namespace Greeting

variable {d : Dialogue Request} {deadline : Nat} {w : Bytes}

/-- What a handshake leaves of a stream that takes every write. -/
def trail (d : Dialogue Request) (s : Stream) : Stream :=
  { s with
    incoming := (d.advance s.incoming).rest
    ending := (d.advance s.incoming).progress.left s.ending
    written := s.written ++ (d.advance s.incoming).said }

theorem resume_eq (hf : s.control.fault? = none) :
    d.resume s.control =
      ((d.advance s.control.incoming).progress.meet s.control.ending, trail d s.control) :=
  Dialogue.resume_of_takes (Stream.takes_of_faultless hf _)

theorem extends_settle (service : Service) (c : Connection) (out : Surroundings)
    (h : Greeting d deadline s) (hf : s.control.fault? = none) :
    Extends { s with control := s.control.wrote (d.advance s.control.incoming).said }
      (s.settle service c out) := by
  have hresume := resume_eq (d := d) hf
  generalize hx : (d.advance s.control.incoming).progress.meet s.control.ending = x at hresume
  cases x with
  | finished result =>
      cases result with
      | ok r =>
          rw [settle_of_accepted h.phase hresume]
          have htrail : Extends
              { s with control := s.control.wrote (d.advance s.control.incoming).said }
              { s with control := trail d s.control } := extends_of_eq rfl rfl rfl
          exact htrail.trans (extends_pursue Plan.grounded_ofRequest far?_of_unmet)
      | error f =>
          rw [settle_of_failed h.phase hresume]
          exact extends_of_eq rfl rfl rfl
  | listening field n next =>
      by_cases hlate : deadline ≤ s.clock
      · rw [settle_of_late h.phase hresume hlate]
        exact extends_of_eq rfl rfl rfl
      · rw [settle_of_listening h.phase hresume hlate]
        exact extends_of_eq rfl rfl rfl

/-- A session ends with a malformed request only when its handshake fails by itself. -/
theorem progress_of_malformed (h : Greeting d deadline s) (hf : s.control.fault? = none)
    {f : Failure} (hcalls : (s.settle service c out).calls = [])
    (hr : (s.settle service c out).result? = some (.error f)) (hs : f.replyStatus? ≠ none) :
    (d.advance s.control.incoming).progress = .finished (.error f) := by
  have hresume := resume_eq (d := d) hf
  cases hp : (d.advance s.control.incoming).progress with
  | finished result =>
      rw [hp] at hresume
      cases result with
      | ok r =>
          rw [settle_of_accepted h.phase hresume] at hcalls
          exact absurd hcalls (calls_pursue_ofRequest _ _ _ _)
      | error f' =>
          rw [settle_of_failed h.phase hresume] at hr
          cases hr
          rfl
  | listening field n next =>
      rw [hp] at hresume
      cases he : s.control.ending with
      | awaited =>
          rw [he] at hresume
          by_cases hlate : deadline ≤ s.clock
          · rw [settle_of_late h.phase hresume hlate] at hr
            cases hr
            exact absurd rfl hs
          · rw [settle_of_listening h.phase hresume hlate] at hr
            cases hr
      | ended | broken e =>
          rw [he] at hresume
          rw [settle_of_failed h.phase hresume] at hr
          cases hr
          exact absurd rfl hs

theorem settle_of_progress (service : Service) (c : Connection) (out : Surroundings)
    (h : Greeting d deadline s) (hf : s.control.fault? = none) {f : Failure}
    (hp : (d.advance s.control.incoming).progress = .finished (.error f)) :
    (s.settle service c out).calls = [] ∧ (s.settle service c out).result? = some (.error f) ∧
      (s.settle service c out).control.written =
        s.control.written ++ (d.advance s.control.incoming).said := by
  have hresume := resume_eq (d := d) hf
  rw [hp] at hresume
  rw [settle_of_failed h.phase hresume]
  exact ⟨h.calls, rfl, rfl⟩

theorem last_words (h : Greeting d deadline s) (hf : s.control.fault? = none)
    {f : Failure} (hcalls : (s.settle service c out).calls = [])
    (hr : (s.settle service c out).result? = some (.error f)) (hs : f.replyStatus? ≠ none) :
    ∃ opening last, (s.settle service c out).control.written =
      s.control.written ++ (opening ++ last) ∧ f.Answers last := by
  have hp := h.progress_of_malformed hf hcalls hr hs
  have hwritten := (h.settle_of_progress service c out hf hp).2.2
  rcases h.candid.failure hp with hunanswered | ⟨opening, last, hsaid, hanswers⟩
  · exact absurd hunanswered.noReply hs
  · exact ⟨opening, last, by rw [hwritten, hsaid], hanswers⟩

theorem resume_impaired (hf : s.control.fault? = none)
    (ht : (s.impaired fault).control.Takes (d.advance s.control.incoming).said.length) :
    d.resume (s.impaired fault).control =
      ((d.resume s.control).1, (d.resume s.control).2.impaired fault) := by
  have himpaired := Dialogue.resume_of_takes (d := d) (s := (s.impaired fault).control) ht
  rw [himpaired, resume_eq hf]
  rfl

/-- As long as the stream takes what is said, a session in its handshake goes on to the same place,
or is cut off in the plan of its request. -/
theorem settle_of_takes (h : Greeting d deadline s) (hf : s.control.fault? = none)
    (hroom : s.control.written.length ≤ fault.after) (hsent : s.sent = [])
    (ht : (s.impaired fault).control.Takes (d.advance s.control.incoming).said.length) :
    Compares fault w (s.settle service c out) ((s.impaired fault).settle service c out) := by
  have hphase : (s.impaired fault).phase = .handshake d deadline := h.phase
  have hresume := resume_eq (d := d) hf
  have himpaired := resume_impaired (d := d) hf ht
  have hsaid := Stream.takes_impaired_iff.mp ht
  rw [hresume] at himpaired
  generalize (d.advance s.control.incoming).progress.meet s.control.ending = x
    at hresume himpaired
  have hwrote : (trail d s.control).written.length ≤ fault.after := by
    rw [trail, List.length_append]
    omega
  cases x with
  | finished result =>
      cases result with
      | ok r =>
          rw [settle_of_accepted h.phase hresume, settle_of_accepted hphase himpaired]
          have hnobody : ∀ far, s.far? = some far → far = .idle := by simp [h.far]
          exact compares_pursue (s := { s with control := trail d s.control }) w hf hwrote
            Plan.grounded_ofRequest far?_of_unmet hnobody hsent (calls_pursue_ofRequest _ _ _ _)
      | error f =>
          rw [settle_of_failed h.phase hresume, settle_of_failed hphase himpaired]
          exact .whole hwrote rfl
  | listening field n next =>
      have hclock : (s.impaired fault).clock = s.clock := rfl
      by_cases hlate : deadline ≤ s.clock
      · rw [settle_of_late h.phase hresume hlate, settle_of_late hphase himpaired (hclock ▸ hlate)]
        exact .whole hwrote rfl
      · rw [settle_of_listening h.phase hresume hlate,
          settle_of_listening hphase himpaired (hclock ▸ hlate)]
        exact .whole hwrote rfl

theorem settle_of_not_takes (h : Greeting d deadline s) (hf : s.control.fault? = none)
    (hroom : s.control.written.length ≤ fault.after) (hsent : s.sent = [])
    (hw : w <+: s.control.written)
    (ht : ¬(s.impaired fault).control.Takes (d.advance s.control.incoming).said.length) :
    Compares fault w (s.settle service c out) ((s.impaired fault).settle service c out) := by
  have hphase : (s.impaired fault).phase = .handshake d deadline := h.phase
  obtain ⟨fault', f, rest, hfault, -, hlt, hresume, hblamed⟩ :=
    Dialogue.resume_of_not_takes (s := (s.impaired fault).control) h.candid ht
  cases hfault
  rw [settle_of_failed hphase hresume]
  have hnobody : ∀ far, s.far? = some far → far = .idle := by simp [h.far]
  have hext := h.extends_settle service c out hf
  refine .cut (cut_of_said (s := s) hlt hroom rfl hext hnobody hsent) ?_
  obtain ⟨before, hbefore⟩ := hw
  have hlength := congrArg List.length hbefore
  rw [List.length_append] at hlength
  have hopening : ∀ opening : Bytes,
      (w ++ (before ++ opening)).length = s.control.written.length + opening.length := by
    intro opening
    simp only [List.length_append]
    omega
  have hroom' : (s.impaired fault).control.written.length = s.control.written.length := rfl
  rw [hroom'] at hblamed
  cases hblamed with
  | write hall =>
      refine .write rfl fun g hcalls hr hs => ?_
      have hp := h.progress_of_malformed hf hcalls hr hs
      rcases hall g hp with hunanswered | ⟨opening, last, hsaid, hanswers, hover⟩
      · exact absurd hunanswered.noReply hs
      · refine ⟨before ++ opening, last, ?_, hanswers, ?_⟩
        · have hsaid' : (d.advance s.control.incoming).said = opening ++ last := hsaid
          rw [(h.settle_of_progress service c out hf hp).2.2, hsaid', ← hbefore]
          simp only [List.append_assoc]
        · rw [hopening]
          omega
  | @last _ opening last hp hsaid hanswers hfits =>
      obtain ⟨hcalls, hr, hwritten⟩ :=
        h.settle_of_progress service c out hf hp
      have hall : (s.settle service c out).control.written = w ++ (before ++ opening) ++ last := by
        have hsaid' : (d.advance s.control.incoming).said = opening ++ last := hsaid
        rw [hwritten, hsaid', ← hbefore]
        simp only [List.append_assoc]
      refine .last hcalls hr hall hanswers ?_
      rw [hopening]
      omega

/-- A session in its handshake goes on to the same place on a stream that fails, or is cut off. -/
theorem settle_impaired (h : Greeting d deadline s) (hf : s.control.fault? = none)
    (hroom : s.control.written.length ≤ fault.after) (hsent : s.sent = [])
    (hw : w <+: s.control.written) :
    Compares fault w (s.settle service c out) ((s.impaired fault).settle service c out) := by
  by_cases ht : (s.impaired fault).control.Takes (d.advance s.control.incoming).said.length
  · exact h.settle_of_takes hf hroom hsent ht
  · exact h.settle_of_not_takes hf hroom hsent hw ht

end Greeting

end Session

end Socks
