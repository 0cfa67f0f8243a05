import Socks.Proofs.Session.Entrance

/-!
# Callers told apart

Anybody can call a session that listens, at any time and from anywhere. Callers are told apart by
numbers here. One of them may be taken up; what it sends then, and how it ends, reaches the session,
and what any other caller does is lost.

Main statement: a connection takes up nobody before its request (`Gathering.admits_run`).
-/

namespace Socks

namespace Event

/-- What callers do. -/
def OfCaller : Event → Prop
  | calledBy _ | farSends _ | farEnds | farResets => True
  | _ => False

end Event

/-- What happens around a session: a caller calls, sends something, ends or resets its connection,
or something else happens. -/
inductive Doing where
  | calls (caller : Nat) (place : Endpoint)
  | sends (caller : Nat) (bytes : Bytes)
  | ends (caller : Nat)
  | resets (caller : Nat)
  | besides (event : { e : Event // ¬e.OfCaller })

namespace Doing

/-- What a session notices that a doing reaches. -/
def event : Doing → Event
  | calls _ place => .calledBy place
  | sends _ bytes => .farSends bytes
  | ends _ => .farEnds
  | resets _ => .farResets
  | besides e => e.val

def speaker? : Doing → Option Nat
  | sends caller _ => some caller
  | ends caller => some caller
  | resets caller => some caller
  | calls _ _ | besides _ => none

/-- Whether a doing reaches a session that has taken up this caller, or none. -/
def reaches (taken? : Option Nat) (d : Doing) : Bool :=
  match d.speaker? with
  | none => true
  | some caller => taken? == some caller

def saidBy (caller : Nat) : Doing → Bytes
  | sends speaker bytes => if speaker = caller then bytes else []
  | _ => []

/-- A caller ends or resets its connection. -/
def Parts (caller : Nat) (d : Doing) : Prop := d.speaker? = some caller ∧ d.event.EndsFar

end Doing

open Doing

/-- What a session notices of some doings, if nobody is taken up in their course. -/
def noticed (taken? : Option Nat) (doings : List Doing) : List Event :=
  (doings.filter (reaches taken?)).map event

/-- All that a caller sends in the course of some doings. -/
def said (caller : Nat) (doings : List Doing) : Bytes := doings.flatMap (saidBy caller)

section noticing

variable {taken? : Option Nat} {d : Doing} {doings : List Doing} {caller : Nat}

theorem reaches_eq_false_iff :
    d.reaches taken? = false ↔ ∃ caller, d.speaker? = some caller ∧ taken? ≠ some caller := by
  unfold reaches
  cases d.speaker? <;> simp

theorem noticed_append (taken? : Option Nat) (a b : List Doing) :
    noticed taken? (a ++ b) = noticed taken? a ++ noticed taken? b := by
  simp [noticed]

theorem noticed_of_reaches (h : d.reaches taken? = true) : noticed taken? [d] = [d.event] := by
  simp [noticed, h]

theorem noticed_of_not_reaches (h : d.reaches taken? = false) : noticed taken? [d] = [] := by
  simp [noticed, h]

theorem noticed_eq_append {before after : List Event}
    (h : noticed taken? doings = before ++ after) :
    ∃ earlier later, doings = earlier ++ later ∧ noticed taken? earlier = before := by
  obtain ⟨l, l', hfilter, hbefore, -⟩ := List.map_eq_append_iff.mp h
  obtain ⟨earlier, later, hall, hl, -⟩ := List.filter_eq_append_iff.mp hfilter
  exact ⟨earlier, later, hall, by rw [noticed, hl, hbefore]⟩

/-- What does not reach a session would change nothing if only time passed and the client went
on. -/
theorem passed_of_not_reaches (h : d.reaches taken? = false) (s : Session) :
    s.passed [d.event] = s := by
  obtain ⟨caller, hspeaker, -⟩ := reaches_eq_false_iff.mp h
  refine Session.passed_of_not_common ?_
  cases d with
  | sends | ends | resets => exact id
  | calls | besides => cases hspeaker

/-- Whomever a session has taken up, it notices its client and the clock. -/
theorem passed_noticed (taken? : Option Nat) (s : Session) (doings : List Doing) :
    s.passed (noticed taken? doings) = s.passed (doings.map event) := by
  induction doings generalizing s with
  | nil => rfl
  | cons d doings ih =>
      rw [← List.singleton_append, noticed_append, List.map_append, ← Session.passed_passed,
        ← Session.passed_passed, ih, List.map_singleton]
      cases hreaches : d.reaches taken? with
      | true => rw [noticed_of_reaches hreaches]
      | false =>
          rw [noticed_of_not_reaches hreaches, passed_of_not_reaches hreaches, Session.passed_nil]

theorem heard_noticed (taken? : Option Nat) (doings : List Doing) :
    heard (noticed taken? doings) = heard (doings.map event) :=
  congrArg (fun s => s.control.incoming)
    (passed_noticed taken? (Session.fresh .idle .relaying) doings)

theorem endingAfter_noticed (taken? : Option Nat) (ending : Ending) (doings : List Doing) :
    endingAfter ending (noticed taken? doings) = endingAfter ending (doings.map event) :=
  congrArg (fun s => s.control.ending)
    (passed_noticed taken? (Session.fresh { Stream.idle with ending := ending } .relaying) doings)

theorem heardFar_noticed (caller : Nat) (doings : List Doing) :
    heardFar (noticed (some caller) doings) = said caller doings := by
  induction doings with
  | nil => rfl
  | cons d doings ih =>
      rw [← List.singleton_append, noticed_append, heardFar_append, ih, said, said,
        List.flatMap_append, List.flatMap_singleton]
      congr 1
      cases d with
      | sends speaker bytes =>
          by_cases hs : speaker = caller
          · subst hs
            rw [noticed_of_reaches (by simp [reaches, speaker?])]
            simp [saidBy, event, Event.farBytes]
          · rw [noticed_of_not_reaches (by simp [reaches, speaker?, Ne.symm hs])]
            simp [saidBy, hs]
      | ends speaker | resets speaker =>
          by_cases hs : speaker = caller
          · subst hs
            rw [noticed_of_reaches (by simp [reaches, speaker?])]
            rfl
          · rw [noticed_of_not_reaches (by simp [reaches, speaker?, Ne.symm hs])]
            rfl
      | calls => rfl
      | besides e =>
          obtain ⟨e, he⟩ := e
          rw [noticed_of_reaches rfl, heardFar_singleton]
          cases e with
          | farSends => exact absurd trivial he
          | _ => rfl

theorem parts_of_noticed {e : Event} (hmem : e ∈ noticed (some caller) doings)
    (he : e.EndsFar) : ∃ d ∈ doings, d.Parts caller := by
  obtain ⟨d, hd, rfl⟩ := List.mem_map.mp hmem
  obtain ⟨hd, hreaches⟩ := List.mem_filter.mp hd
  refine ⟨d, hd, ?_, he⟩
  cases d with
  | ends speaker | resets speaker => exact (eq_of_beq hreaches).symm
  | calls | sends => exact he.elim
  | besides e =>
      obtain ⟨e, hother⟩ := e
      cases e with
      | farEnds | farResets => exact absurd trivial hother
      | _ => exact he.elim

end noticing

/-- A session and the caller that it has taken up, if there is one. -/
structure Gathering where
  session : Session
  taken? : Option Nat

namespace Gathering

/-- What is left when something happens: a caller that calls is taken up if one is awaited. -/
def step (service : Service) (c : Connection) (out : Surroundings) (g : Gathering) (d : Doing) :
    Gathering where
  session := if d.reaches g.taken? then g.session.step service c out d.event else g.session
  taken? :=
    match d with
    | .calls caller _ => if g.session.awaitsCaller then some caller else g.taken?
    | _ => g.taken?

/-- What is left when a number of things have happened. -/
def run (service : Service) (c : Connection) (out : Surroundings) (g : Gathering)
    (doings : List Doing) : Gathering :=
  doings.foldl (step service c out) g

/-- What a caller has received. -/
def received (g : Gathering) (caller : Nat) : Bytes :=
  if g.taken? = some caller then g.session.passedOn else []

variable {service : Service} {c : Connection} {out : Surroundings} {control : Stream}
  {g : Gathering} {d : Doing} {doings : List Doing} {caller : Nat}

theorem run_append (g : Gathering) (a b : List Doing) :
    g.run service c out (a ++ b) = (g.run service c out a).run service c out b :=
  List.foldl_append ..

theorem run_snoc (g : Gathering) (doings : List Doing) (d : Doing) :
    g.run service c out (doings ++ [d]) = (g.run service c out doings).step service c out d :=
  run_append g doings [d]

theorem run_cons (g : Gathering) (d : Doing) (doings : List Doing) :
    g.run service c out (d :: doings) = (g.step service c out d).run service c out doings := rfl

theorem session_step (g : Gathering) (d : Doing) :
    (g.step service c out d).session =
      g.session.trace service c out (noticed g.taken? [d]) := by
  cases hreaches : d.reaches g.taken? with
  | true =>
      rw [noticed_of_reaches hreaches]
      simp only [step, hreaches, if_true]
      rfl
  | false =>
      rw [noticed_of_not_reaches hreaches]
      simp only [step, hreaches]
      rfl

theorem step_of_not_reaches (h : d.reaches g.taken? = false) : g.step service c out d = g := by
  obtain ⟨caller, hspeaker, -⟩ := reaches_eq_false_iff.mp h
  cases d with
  | sends | ends | resets => simp [step, h]
  | calls | besides => cases hspeaker

/-- Nobody is taken up but by a session that awaits a caller. -/
theorem step_of_not_awaits (h : g.session.awaitsCaller = false) (d : Doing) :
    g.step service c out d =
      ⟨g.session.trace service c out (noticed g.taken? [d]), g.taken?⟩ := by
  have htaken : (g.step service c out d).taken? = g.taken? := by
    cases d with
    | calls => simp [step, h]
    | _ => rfl
  rw [← session_step, ← htaken]

end Gathering

/-! ### From the first byte to the request -/

namespace Session

open Handshake

variable {service : Service} {c : Connection} {out : Surroundings} {control : Stream}
  {s : Session} {events : List Event}

theorem Outside.awaitsCaller_eq (h : Outside s) : s.awaitsCaller = false := by
  rcases h.stage with ⟨d, deadline, hp⟩ | ⟨result, hp⟩ <;> rw [awaitsCaller, hp]

/-- One event leaves a session outside, or brings its request. -/
theorem Outside.next (h : Outside ((start service c out control).trace service c out events))
    (e : Event) :
    Outside ((start service c out control).trace service c out (events ++ [e])) ∨
      ∃ r hello rest said phase, Accepts service.authenticator r hello said ∧
        sentBy control (events ++ [e]) = hello ++ rest ∧
        (start service c out control).trace service c out (events ++ [e]) =
          pursue out service.rules (planFor service c r)
            (greeted control (endingAfter control.ending (events ++ [e]))
              (elapsed (events ++ [e])) rest said phase) := by
  cases enters_trace service c out control (events ++ [e]) with
  | outside ho => exact .inl ho
  | @inside before after r hello rest said phase he ha hsent hs =>
      rcases List.eq_nil_or_concat' after with rfl | ⟨earlier, last, rfl⟩
      · rw [List.append_nil] at he
        rw [he]
        exact .inr ⟨r, hello, rest, said, phase, ha, hsent, hs⟩
      · -- A session that had its request before has asked the rules.
        rw [← List.append_assoc] at he
        obtain ⟨he, -⟩ := List.append_inj' he rfl
        have hstands := @stands_trace service c out _ (@Plan.grounded_ofRequest service.bindLimit
          (c.server?.map Endpoint.ip) { r with client? := c.client? })
          (greeted control (endingAfter control.ending before) (elapsed before) rest said phase)
          earlier
        obtain ⟨more, hmore, -⟩ := hstands.calls_of_ofRequest rfl
        have hcalls := h.calls
        rw [he, trace_append, hs, planFor, hmore] at hcalls
        cases hcalls

end Session

namespace Gathering

open Session Handshake

variable {service : Service} {c : Connection} {out : Surroundings} {control : Stream}
  {g : Gathering} {doings : List Doing}

/-- What a connection that began with the stream `control` has come to when some things have
happened: it is outside and has taken up nobody, or it had its request after the first of them and
goes on with it. -/
inductive Admits (service : Service) (c : Connection) (out : Surroundings) (control : Stream)
    (doings : List Doing) : Prop
  | outside : Outside (run service c out ⟨start service c out control, none⟩ doings).session →
      run service c out ⟨start service c out control, none⟩ doings =
        ⟨(start service c out control).trace service c out (noticed none doings), none⟩ →
      Admits service c out control doings
  | inside {before after : List Doing} {r : Request} {hello rest said : Bytes} {clock : Nat}
      {phase : Phase} : doings = before ++ after → Accepts service.authenticator r hello said →
      sentBy control (before.map event) = hello ++ rest →
      run service c out ⟨start service c out control, none⟩ before =
        ⟨pursue out service.rules (planFor service c r)
          (greeted control (endingAfter control.ending (before.map event)) clock rest said phase),
          none⟩ →
      Admits service c out control doings

theorem admits_start (service : Service) (c : Connection) (out : Surroundings)
    (control : Stream) : Admits service c out control [] := by
  cases enters_start service c out control with
  | outside ho => exact .outside ho rfl
  | @inside before after r hello rest said phase he ha hsent hs =>
      obtain ⟨rfl, rfl⟩ := List.nil_eq_append_iff.mp he
      exact .inside (List.append_nil []).symm ha hsent (congrArg (Gathering.mk · none) hs)

/-- What happens leads further into a session, or leaves it outside. -/
theorem Admits.step (h : Admits service c out control doings) (d : Doing) :
    Admits service c out control (doings ++ [d]) := by
  cases h with
  | inside he ha hsent hg =>
      exact .inside (by rw [he, List.append_assoc]) ha hsent hg
  | outside ho hg =>
      have hnext : run service c out ⟨start service c out control, none⟩ (doings ++ [d]) =
          ⟨(start service c out control).trace service c out (noticed none (doings ++ [d])),
            none⟩ := by
        rw [run_snoc, step_of_not_awaits ho.awaitsCaller_eq, hg, ← trace_append, noticed_append]
      rw [hg] at ho
      cases hreaches : d.reaches none with
      | false =>
          have hsame : noticed none (doings ++ [d]) = noticed none doings := by
            rw [noticed_append, noticed_of_not_reaches hreaches, List.append_nil]
          refine .outside ?_ hnext
          rw [hnext, hsame]
          exact ho
      | true =>
          have hmore : noticed none (doings ++ [d]) = noticed none doings ++ [d.event] := by
            rw [noticed_append, noticed_of_reaches hreaches]
          rcases ho.next d.event with hout | ⟨r, hello, rest, said, phase, ha, hsent, hs⟩
          · rw [← hmore] at hout
            exact .outside (hnext ▸ hout) hnext
          · rw [← hmore] at hsent hs
            rw [sentBy, heard_noticed] at hsent
            rw [endingAfter_noticed] at hs
            rw [hs] at hnext
            exact .inside (List.append_nil _).symm ha hsent hnext

/-- A connection takes up nobody before its request, and goes on with its request from then on. -/
theorem admits_run (service : Service) (c : Connection) (out : Surroundings) (control : Stream)
    (doings : List Doing) : Admits service c out control doings := by
  induction doings using List.reverseRecOn with
  | nil => exact admits_start service c out control
  | append_singleton doings d ih => exact ih.step d

end Gathering

end Socks
