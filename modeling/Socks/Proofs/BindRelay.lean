import Socks.Proofs.RelayIntegrity
import Socks.Proofs.Session.Biding

/-!
# What a BIND passes on, and between whom

A BIND waits for a caller while its client may send already, and anybody may call. Nothing passes
between the client and a caller but the one that is taken up and comes from the right host, and
nothing before the client has been told of it; from then on this caller gets all that the client has
sent since its request.

Main statement: `Gathering.bind_passes_on`.
-/

namespace Socks

open Doing Session

namespace Gathering

variable {service : Service} {c : Connection} {out : Surroundings} {r : Request}
  {control : Stream} {g₀ g : Gathering} {doings before after : List Doing} {d : Doing}
  {caller : Nat} {place : Endpoint}

/-- A caller was awaited after the first of some doings, and then this one called, from a place that
counts. -/
structure Chosen (service : Service) (c : Connection) (out : Surroundings) (a : Address)
    (g₀ : Gathering) (doings before : List Doing) (caller : Nat) (place : Endpoint)
    (after : List Doing) : Prop where
  called : doings = before ++ .calls caller place :: after
  awaited : (g₀.run service c out before).session.awaitsCaller = true
  fits : a.otherHost? place = none

/-- A caller is relayed that was taken up after the doings `before`, or was relayed until its relay
ended. -/
structure Serves (service : Service) (c : Connection) (out : Surroundings) (r : Request)
    (control : Stream) (before : List Doing) (caller : Nat) (place : Endpoint)
    (after : List Doing) (g : Gathering) : Prop where
  taken : g.taken? = some caller
  course : ∃ s₁, Meets r control (before.map event) place s₁ ∧
    g.session = s₁.relayOn.trace service c out (noticed (some caller) after)

theorem Serves.awaitsCaller_eq (h : Serves service c out r control before caller place after g) :
    g.session.awaitsCaller = false := by
  obtain ⟨s₁, hmeets, hs⟩ := h.course
  have hrelayed := @Relayed.trace service c out _ _ _ (relayed_start hmeets.far)
    (noticed (some caller) after)
  rw [hs]
  rcases hrelayed.stage with ⟨hp, -⟩ | ⟨⟨result, hp⟩, -⟩ <;> rw [awaitsCaller, hp]

theorem Serves.step (h : Serves service c out r control before caller place after g)
    (d : Doing) :
    Serves service c out r control before caller place (after ++ [d])
      (g.step service c out d) := by
  rw [step_of_not_awaits h.awaitsCaller_eq]
  obtain ⟨s₁, hmeets, hs⟩ := h.course
  refine ⟨h.taken, s₁, hmeets, ?_⟩
  dsimp only
  rw [h.taken, hs, ← trace_append, noticed_append]

theorem Serves.run (h : Serves service c out r control before caller place after g)
    (more : List Doing) :
    Serves service c out r control before caller place (after ++ more)
      (g.run service c out more) := by
  induction more generalizing after g with
  | nil =>
      rw [List.append_nil]
      exact h
  | cons d more ih =>
      rw [run_cons, List.append_cons]
      exact ih (h.step d)

theorem ceased_step (h : Ceased r control g.session) (d : Doing) :
    Ceased r control (g.step service c out d).session := by
  rw [session_step]
  exact h.trace _

theorem ceased_run (h : Ceased r control g.session) (more : List Doing) :
    Ceased r control (g.run service c out more).session := by
  induction more generalizing g with
  | nil => exact h
  | cons d more ih => exact ih (ceased_step h d)

/-- Where a BIND stands that has been carried out since `g₀`: it has taken up nobody, or it is over
without having relayed anything, or it relays a caller, or has relayed one. -/
inductive Stage (service : Service) (c : Connection) (out : Surroundings) (r : Request)
    (control : Stream) (g₀ : Gathering) (doings : List Doing) : Prop
  | bides : (g₀.run service c out doings).taken? = none →
      Bides service.bindLimit r control (doings.map event) (g₀.run service c out doings).session →
      Stage service c out r control g₀ doings
  | ceased : Ceased r control (g₀.run service c out doings).session →
      Stage service c out r control g₀ doings
  | serves {before after : List Doing} {caller : Nat} {place : Endpoint} :
      Chosen service c out r.destination g₀ doings before caller place after →
      Serves service c out r control before caller place after (g₀.run service c out doings) →
      Stage service c out r control g₀ doings

/-- A caller that calls when one is awaited is turned away, or relayed. -/
theorem step_of_called
    (hbides : Bides service.bindLimit r control (before.map event) g.session)
    (hawaits : g.session.awaitsCaller = true) (caller : Nat) (place : Endpoint) :
    Ceased r control (g.step service c out (.calls caller place)).session ∨
      r.destination.otherHost? place = none ∧
        Serves service c out r control before caller place []
          (g.step service c out (.calls caller place)) := by
  have htaken : (g.step service c out (.calls caller place)).taken? = some caller := by
    simp [Gathering.step, hawaits]
  have hsession : (g.step service c out (.calls caller place)).session =
      g.session.step service c out (.calledBy place) := rfl
  rw [hsession]
  rcases hbides.called hawaits place with hc | ⟨hother, s₁, hmeets, hs⟩
  · exact .inl hc
  · exact .inr ⟨hother, htaken, s₁, hmeets, hsession.trans hs⟩

theorem Stage.step_of_bides (htaken : (g₀.run service c out doings).taken? = none)
    (hbides : Bides service.bindLimit r control (doings.map event)
      (g₀.run service c out doings).session) (d : Doing) :
    Stage service c out r control g₀ (doings ++ [d]) := by
  have hrun := @run_snoc service c out g₀ doings d
  have hevents : (doings ++ [d]).map event = doings.map event ++ [d.event] := List.map_append
  cases d with
  | calls caller place =>
      cases hawaits : (g₀.run service c out doings).session.awaitsCaller with
      | true =>
          rcases @step_of_called service c out r control _ doings hbides hawaits caller place with
            hc | ⟨hother, hserves⟩
          · exact .ceased (hrun ▸ hc)
          · exact .serves ⟨rfl, hawaits, hother⟩ (hrun ▸ hserves)
      | false =>
          have hlost : (g₀.run service c out doings).step service c out (.calls caller place) =
              g₀.run service c out doings := by
            rw [step_of_not_awaits hawaits, noticed_of_reaches rfl]
            exact congrArg (Gathering.mk · _) (hbides.not_called hawaits place)
          rw [hlost] at hrun
          refine .bides (hrun ▸ htaken) ?_
          rw [hrun, hevents]
          exact hbides.lets_pass id
  | besides e =>
      refine .bides ?_ ?_
      · rw [hrun]
        exact htaken
      · rw [hrun, hevents]
        exact hbides.step e.property
  | sends caller | ends caller | resets caller =>
      -- Whoever speaks has not been taken up, since nobody has.
      rw [step_of_not_reaches (reaches_eq_false_iff.mpr ⟨caller, rfl, by simp [htaken]⟩)] at hrun
      refine .bides (hrun ▸ htaken) ?_
      rw [hrun, hevents]
      exact hbides.lets_pass id

/-- Whatever happens leads from one such place to another. -/
theorem Stage.step (h : Stage service c out r control g₀ doings) (d : Doing) :
    Stage service c out r control g₀ (doings ++ [d]) := by
  cases h with
  | bides htaken hbides => exact .step_of_bides htaken hbides d
  | ceased hc =>
      refine .ceased ?_
      rw [run_snoc]
      exact ceased_step hc d
  | @serves before after caller place hchosen hserves =>
      have hcalled : doings ++ [d] = before ++ .calls caller place :: (after ++ [d]) := by
        rw [hchosen.called, List.append_assoc, List.cons_append]
      refine .serves ⟨hcalled, hchosen.awaited, hchosen.fits⟩ ?_
      rw [run_snoc]
      exact hserves.step d

/-- Where a BIND stands after any number of doings. -/
theorem stage_run {s : Session}
    (h : Bides service.bindLimit r control [] s) (doings : List Doing) :
    Stage service c out r control ⟨s, none⟩ doings := by
  induction doings using List.reverseRecOn with
  | nil => exact .bides rfl h
  | append_singleton doings d ih => exact ih.step d

/-- A caller that was awaited and comes from a place that counts is relayed, unless the client could
not be told. -/
theorem Chosen.serves (h : Chosen service c out r.destination g₀ doings before caller place after)
    (hstage : Stage service c out r control g₀ before) :
    Ceased r control (g₀.run service c out doings).session ∨
      Serves service c out r control before caller place after
        (g₀.run service c out doings) := by
  rw [h.called, run_append, run_cons]
  -- The caller decides what becomes of the session; what comes after it keeps to that.
  cases hstage with
  | bides htaken hbides =>
      rcases @step_of_called service c out r control _ before hbides h.awaited caller place with
        hc | ⟨-, hserves⟩
      · exact .inl (ceased_run hc after)
      · exact .inr (hserves.run after)
  | ceased hc => exact .inl (ceased_run (ceased_step hc _) after)
  | serves hchosen hserves =>
      have hawaits := h.awaited
      rw [hserves.awaitsCaller_eq] at hawaits
      cases hawaits

/-! ### What passes, and between whom -/

/-- What passes in the course of a BIND that has been carried out since `g₀` with the stream
`control`, when some things have happened. To the client: replies at first, and then a first part of
what the chosen caller has said, after both replies. To callers: nothing but what the client has
sent since its request, from the first byte on, and only to the chosen caller, after both replies.
As long as the session goes on this caller has received all that the client has sent; and also when
the session has ended with the client. Nothing passes when it is over. -/
structure PassesOn (service : Service) (c : Connection) (out : Surroundings) (r : Request)
    (control : Stream) (g₀ : Gathering) (doings : List Doing) : Prop where
  written : ∃ told relayed,
    (g₀.run service c out doings).session.control.written = control.written ++ told ++ relayed ∧
    (∃ ms, RepliesTo r ms ∧ told <+: ms.flatMap Reply.bytes) ∧
    (relayed ≠ [] → ∃ before caller place after bound,
      Chosen service c out r.destination g₀ doings before caller place after ∧
      told = (Reply.granted r.version bound).bytes ++ (Reply.granted r.version place).bytes ∧
      relayed <+: said caller after)
  received : ∀ caller, (g₀.run service c out doings).received caller ≠ [] →
    ∃ before place after bound,
      Chosen service c out r.destination g₀ doings before caller place after ∧
      control.written ++
          ((Reply.granted r.version bound).bytes ++ (Reply.granted r.version place).bytes) <+:
        (g₀.run service c out doings).session.control.written
  forth : ∀ caller, (g₀.run service c out doings).received caller <+:
    control.incoming ++ heard (doings.map event)
  whole : ∀ before caller place after,
    Chosen service c out r.destination g₀ doings before caller place after →
    (g₀.run service c out doings).session.isOver = false →
      (g₀.run service c out doings).received caller =
        control.incoming ++ heard (doings.map event)
  ended : ∀ before caller place after,
    Chosen service c out r.destination g₀ doings before caller place after →
    (g₀.run service c out doings).session.result? = some (.ok ()) →
    (∀ d ∈ after, ¬d.Parts caller) → ∃ earlier later, doings = earlier ++ later ∧
      endingAfter control.ending (earlier.map event) ≠ .awaited ∧
      (g₀.run service c out doings).received caller =
        control.incoming ++ heard (earlier.map event)
  relays : ∀ before caller place after,
    Chosen service c out r.destination g₀ doings before caller place after →
    Ceased r control (g₀.run service c out doings).session ∨
      Serves service c out r control before caller place after (g₀.run service c out doings)
  stays : (g₀.run service c out doings).session.isOver = true → ∀ more,
    (g₀.run service c out (doings ++ more)).session.control.written =
        (g₀.run service c out doings).session.control.written ∧
      ∀ caller, (g₀.run service c out (doings ++ more)).received caller =
        (g₀.run service c out doings).received caller

theorem Chosen.heard_eq
    (h : Chosen service c out r.destination g₀ doings before caller place after) :
    heard (doings.map event) = heard (before.map event) ++ heard (after.map event) := by
  rw [h.called, List.map_append, List.map_cons, heard_append]
  rfl

theorem received_of_taken (h : g.taken? = some caller) :
    g.received caller = g.session.passedOn := if_pos h

theorem taken_of_received (h : g.received caller ≠ []) :
    g.taken? = some caller ∧ g.session.passedOn ≠ [] := by
  by_cases htaken : g.taken? = some caller
  · rw [received_of_taken htaken] at h
    exact ⟨htaken, h⟩
  · exact absurd (if_neg htaken) h

theorem received_of_ceased (h : Ceased r control g.session) (caller : Nat) :
    g.received caller = [] := by
  by_contra hne
  exact (taken_of_received hne).2 h.passedOn_eq

theorem Serves.relayed (h : Serves service c out r control before caller place after g) :
    ∃ s₁, Meets r control (before.map event) place s₁ ∧
      Relayed s₁ (noticed (some caller) after) g.session ∧
      EndsWell s₁ (noticed (some caller) after) g.session := by
  obtain ⟨s₁, hmeets, hs⟩ := h.course
  refine ⟨s₁, hmeets, ?_, ?_⟩
  · rw [hs]
    exact @Relayed.trace service c out _ _ _ (relayed_start hmeets.far) _
  · rw [hs]
    exact endsWell_trace hmeets.far _

theorem Serves.written (h : Serves service c out r control before caller place after g) :
    ∃ bound relayed, g.session.control.written = control.written ++
        ((Reply.granted r.version bound).bytes ++ (Reply.granted r.version place).bytes) ++
        relayed ∧ relayed <+: said caller after := by
  obtain ⟨s₁, hmeets, hrelayed, -⟩ := h.relayed
  obtain ⟨bound, hcontrol⟩ := hmeets.control
  obtain ⟨relayed, hw, hback⟩ := hrelayed.back
  refine ⟨bound, relayed, ?_, ?_⟩
  · rw [hw, hcontrol]
    rfl
  · rwa [← heardFar_noticed]

theorem Serves.forth (h : Serves service c out r control before caller place after g) :
    g.session.passedOn <+:
      control.incoming ++ (heard (before.map event) ++ heard (after.map event)) := by
  obtain ⟨s₁, hmeets, hrelayed, -⟩ := h.relayed
  rw [← List.append_assoc, ← hmeets.sent, ← heard_noticed (some caller)]
  unfold passedOn
  cases hfar : g.session.far? with
  | none => exact List.nil_prefix
  | some far => exact hrelayed.forth far hfar

theorem Serves.whole (h : Serves service c out r control before caller place after g)
    (hgoes : g.session.isOver = false) :
    g.session.passedOn =
      control.incoming ++ (heard (before.map event) ++ heard (after.map event)) := by
  obtain ⟨s₁, hmeets, hrelayed, -⟩ := h.relayed
  rcases hrelayed.stage with ⟨-, far, hrelaying, hread, -⟩ | ⟨⟨result, hp⟩, -⟩
  · have hforth := hrelaying.forth
    rw [hread, List.append_nil, hmeets.sent, heard_noticed, List.append_assoc] at hforth
    rw [passedOn, hrelaying.there]
    exact hforth
  · rw [isOver, result?, hp] at hgoes
    cases hgoes

/-- A relay that has ended without failure, and not with its caller, has ended with the client, and
the caller has got everything until then. -/
theorem Serves.ended (h : Serves service c out r control before caller place after g)
    (hover : g.session.result? = some (.ok ())) (hstays : ∀ d ∈ after, ¬d.Parts caller) :
    ∃ earlier later, after = earlier ++ later ∧
      endingAfter (endingAfter control.ending (before.map event)) (earlier.map event) ≠
        .awaited ∧
      g.session.passedOn =
        control.incoming ++ (heard (before.map event) ++ heard (earlier.map event)) := by
  obtain ⟨s₁, hmeets, -, hends⟩ := h.relayed
  obtain ⟨bound, hcontrol⟩ := hmeets.control
  rcases hends (phase_of_result? hover) with
    ⟨e, hmem, he⟩ | ⟨first, rest, far, hall, hne, hfar, hgot⟩
  · obtain ⟨d, hd, hparts⟩ := parts_of_noticed hmem he
    exact absurd hparts (hstays d hd)
  · obtain ⟨earlier, later, hafter, rfl⟩ := noticed_eq_append hall
    refine ⟨earlier, later, hafter, ?_, ?_⟩
    · rw [hcontrol, endingAfter_noticed] at hne
      exact hne
    · rw [hmeets.sent, heard_noticed, List.append_assoc] at hgot
      rw [passedOn, hfar]
      exact hgot

/-- Nobody but the chosen caller takes part, and nothing is relayed before the second reply. -/
theorem Stage.written (h : Stage service c out r control g₀ doings) : ∃ told relayed,
    (g₀.run service c out doings).session.control.written = control.written ++ told ++ relayed ∧
    (∃ ms, RepliesTo r ms ∧ told <+: ms.flatMap Reply.bytes) ∧
    (relayed ≠ [] → ∃ before caller place after bound,
      Chosen service c out r.destination g₀ doings before caller place after ∧
      told = (Reply.granted r.version bound).bytes ++ (Reply.granted r.version place).bytes ∧
      relayed <+: said caller after) := by
  cases h with
  | bides htaken hbides =>
      obtain ⟨told, ms, hw, hms⟩ := hbides.told
      exact ⟨told, [], by rw [hw, List.append_nil], ⟨ms, hms⟩, fun hne => absurd rfl hne⟩
  | ceased hc =>
      obtain ⟨told, ms, hw, hms⟩ := hc.told
      exact ⟨told, [], by rw [hw, List.append_nil], ⟨ms, hms⟩, fun hne => absurd rfl hne⟩
  | @serves before after caller place hchosen hs =>
      obtain ⟨bound, relayed, hw, hback⟩ := hs.written
      have hfew : RepliesTo r [.granted r.version bound, .granted r.version place] :=
        repliesTo_two rfl rfl
      exact ⟨_, relayed, hw, ⟨_, hfew, by simp⟩,
        fun _ => ⟨before, caller, place, after, bound, hchosen, rfl, hback⟩⟩

theorem Stage.serves_of_received (h : Stage service c out r control g₀ doings)
    (hgot : (g₀.run service c out doings).received caller ≠ []) :
    ∃ before place after,
      Chosen service c out r.destination g₀ doings before caller place after ∧
      Serves service c out r control before caller place after
        (g₀.run service c out doings) := by
  obtain ⟨htaken, -⟩ := taken_of_received hgot
  cases h with
  | bides hnobody hbides =>
      rw [hnobody] at htaken
      cases htaken
  | ceased hc => exact absurd (received_of_ceased hc caller) hgot
  | serves hchosen hs =>
      rw [hs.taken] at htaken
      cases htaken
      exact ⟨_, _, _, hchosen, hs⟩

theorem Stage.received (h : Stage service c out r control g₀ doings)
    (hgot : (g₀.run service c out doings).received caller ≠ []) :
    ∃ before place after bound,
      Chosen service c out r.destination g₀ doings before caller place after ∧
      control.written ++
          ((Reply.granted r.version bound).bytes ++ (Reply.granted r.version place).bytes) <+:
        (g₀.run service c out doings).session.control.written := by
  obtain ⟨before, place, after, hchosen, hs⟩ := h.serves_of_received hgot
  obtain ⟨bound, relayed, hw, -⟩ := hs.written
  exact ⟨before, place, after, bound, hchosen, relayed, hw.symm⟩

theorem Stage.forth (h : Stage service c out r control g₀ doings) (caller : Nat) :
    (g₀.run service c out doings).received caller <+:
      control.incoming ++ heard (doings.map event) := by
  by_cases hgot : (g₀.run service c out doings).received caller = []
  · rw [hgot]
    exact List.nil_prefix
  · obtain ⟨before, place, after, hchosen, hs⟩ := h.serves_of_received hgot
    rw [received_of_taken hs.taken, hchosen.heard_eq]
    exact hs.forth

theorem run_of_over {result : Except Failure Unit} (h : g.session.phase = .over result)
    (more : List Doing) :
    g.run service c out more = ⟨g.session.passed (noticed g.taken? more), g.taken?⟩ := by
  induction more generalizing g with
  | nil => exact congrArg (Gathering.mk · _) (passed_nil g.session).symm
  | cons d more ih =>
      have hquiet : g.session.awaitsCaller = false := by rw [awaitsCaller, h]
      have hmore := @ih ⟨g.session.passed (noticed g.taken? [d]), g.taken?⟩ h
      rw [run_cons, step_of_not_awaits hquiet, trace_of_over _ h, hmore]
      dsimp only
      rw [passed_passed, ← noticed_append, List.singleton_append]

theorem Stage.passesOn (h : Stage service c out r control g₀ doings)
    (hbefore : ∀ before after, doings = before ++ after →
      Stage service c out r control g₀ before) :
    PassesOn service c out r control g₀ doings := by
  have hserves : ∀ before caller place after,
      Chosen service c out r.destination g₀ doings before caller place after →
      Ceased r control (g₀.run service c out doings).session ∨
        Serves service c out r control before caller place after
          (g₀.run service c out doings) :=
    fun before caller place after hchosen => hchosen.serves (hbefore _ _ hchosen.called)
  refine ⟨?_, ?_, ?_, ?_, ?_, hserves, ?_⟩
  · exact h.written
  · exact fun caller => h.received
  · exact h.forth
  · intro before caller place after hchosen hgoes
    rcases hserves _ _ _ _ hchosen with hc | hs
    · obtain ⟨f, hp⟩ := hc.failed
      rw [isOver, result?, hp] at hgoes
      cases hgoes
    · rw [received_of_taken hs.taken, hs.whole hgoes, hchosen.heard_eq]
  · intro before caller place after hchosen hover hstays
    rcases hserves _ _ _ _ hchosen with hc | hs
    · obtain ⟨f, hp⟩ := hc.failed
      rw [result?, hp] at hover
      cases hover
    · obtain ⟨earlier, later, hafter, hne, hgot⟩ := hs.ended hover hstays
      refine ⟨before ++ .calls caller place :: earlier, later, ?_, ?_, ?_⟩
      · rw [hchosen.called, hafter, List.append_assoc, List.cons_append]
      · rw [List.map_append, endingAfter_append]
        exact hne
      · rw [received_of_taken hs.taken, hgot, List.map_append, heard_append]
        rfl
  · intro hover more
    obtain ⟨result, hresult⟩ := Option.isSome_iff_exists.mp hover
    rw [run_append, run_of_over (phase_of_result? hresult)]
    exact ⟨rfl, fun _ => rfl⟩

theorem passesOn_of_bides {s : Session} (h : Bides service.bindLimit r control [] s)
    (doings : List Doing) : PassesOn service c out r control ⟨s, none⟩ doings :=
  (stage_run h doings).passesOn fun before _ _ => stage_run h before

end Gathering

namespace Relay

/-- In whatever order a relay takes its turns, and whatever happens to its streams between them: it
gives the left stream a first part of what the right one brings, and the right stream a first part
of what was unread and of what the left one brings, and all of it if the left stream ends the
relay. -/
theorem passes_in_any_order (stream : Stream) (incidents : List Incident) :
    let r := (start stream .idle).after incidents
    (∃ relayed, r.left.written = stream.written ++ relayed ∧
      relayed <+: brought .right incidents) ∧
    r.right.written <+: stream.incoming ++ brought .left incidents ∧
    ∀ before last later, incidents = before ++ last :: later →
      (start stream .idle).FirstEnding before last .left (.ok ()) →
        r.right.written = stream.incoming ++ brought .left before := by
  intro r
  refine ⟨?_, ?_, ?_⟩
  · obtain ⟨read, written, hread, hw, hfirst⟩ :=
      written_prefix_read stream .idle incidents .right
    refine ⟨written, hw, hfirst.trans ⟨r.right.incoming, ?_⟩⟩
    exact hread
  · obtain ⟨read, written, hread, hw, hfirst⟩ :=
      written_prefix_read stream .idle incidents .left
    have hright : r.right.written = written := hw
    rw [hright]
    refine hfirst.trans ⟨r.left.incoming, ?_⟩
    exact hread
  · intro before last later he hends
    have hover := hends.over rfl
    have hr : r = (((start stream .idle).after before).undergo last).after later := by
      rw [← after_cons, ← after_append, ← he]
    have hkept := written_after_of_over hover later .right
    have hlast := @written_undergo_of_over ((start stream .idle).after before) last
      (by simp [hover]) .right
    rw [hr]
    exact (hkept.trans hlast).trans hends.whole

end Relay

namespace Gathering

open Handshake

/-- A BIND passes data only between its client and the caller that is taken up and comes from the
right host, only after it has told the client of this caller, and keeps what the client has sent
before: for a request that is known from the start, for one that comes in a handshake, and in
whatever order the relay takes its turns. -/
theorem bind_passes_on (service : Service) (c : Connection) (out : Surroundings)
    (control : Stream) (doings : List Doing) :
    (∀ r, r.command = .bind →
      PassesOn service c out r control ⟨ofRequest service c out control r, none⟩ doings) ∧
    (let g₀ : Gathering := ⟨start service c out control, none⟩
     let g := g₀.run service c out doings
     (Outside g.session ∧ ∀ caller, g.received caller = []) ∨
      ∃ before after r hello rest said, doings = before ++ after ∧
        Accepts service.authenticator r hello said ∧
        sentBy control (before.map event) = hello ++ rest ∧
        (r.command = .bind →
          PassesOn service c out { r with client? := c.client? }
            { control with
              incoming := rest
              ending := endingAfter control.ending (before.map event)
              written := control.written ++ said }
            (g₀.run service c out before) after)) ∧
    ∀ (stream : Stream) (incidents : List Relay.Incident),
      let relay := (Relay.start stream .idle).after incidents
      (∃ relayed, relay.left.written = stream.written ++ relayed ∧
        relayed <+: Relay.brought .right incidents) ∧
      relay.right.written <+: stream.incoming ++ Relay.brought .left incidents ∧
      ∀ before last later, incidents = before ++ last :: later →
        (Relay.start stream .idle).FirstEnding before last .left (.ok ()) →
          relay.right.written = stream.incoming ++ Relay.brought .left before := by
  refine ⟨fun r hcommand => ?_, ?_, Relay.passes_in_any_order⟩
  · have hbides := @bides_pursue out service.rules r (fresh control (.over (.ok ())))
      service.bindLimit (c.server?.map Endpoint.ip) hcommand rfl
    exact passesOn_of_bides hbides doings
  · intro g₀ g
    cases admits_run service c out control doings with
    | outside ho hg =>
        refine .inl ⟨ho, fun caller => ?_⟩
        by_contra hne
        obtain ⟨htaken, -⟩ := taken_of_received hne
        have hnobody : g.taken? = none := congrArg Gathering.taken? hg
        rw [hnobody] at htaken
        cases htaken
    | @inside before after r hello rest said clock phase he ha hsent hg =>
        refine .inr ⟨before, after, r, hello, rest, said, he, ha, hsent, fun hcommand => ?_⟩
        have hbides := @bides_pursue out service.rules { r with client? := c.client? }
          (greeted control (endingAfter control.ending (before.map event)) clock rest said phase)
          service.bindLimit (c.server?.map Endpoint.ip) hcommand rfl
        rw [hg]
        exact passesOn_of_bides hbides after

/-- What a client sends before there is a listener, and while it waits, reaches the caller that is
taken up. Another caller gets nothing, and what it says is lost. -/
theorem bind_passes_on_early_bytes :
    let service : Service := ⟨.anyone, fun _ => true, 10, 60⟩
    let r : Request := ⟨.v5, .bind, .literal (.ofOctets 10 0 0 1) 0, .anonymous, none⟩
    let bound : Endpoint := ⟨.ofOctets 127 0 0 1, 1080⟩
    let place : Endpoint := ⟨.ofOctets 10 0 0 1, 9⟩
    let before : List Doing :=
      [.besides ⟨.clientSends [97], id⟩, .calls 0 place, .besides ⟨.listened (.ok (.ok bound)), id⟩,
        .besides ⟨.clientSends [98], id⟩]
    let after : List Doing :=
      [.sends 1 [120], .calls 0 place, .sends 0 [121], .besides ⟨.clientSends [99], id⟩, .ends 0]
    let g₀ : Gathering := ⟨ofRequest service ⟨none, none⟩ .silent .idle r, none⟩
    let doings := before ++ .calls 1 place :: after
    let g := g₀.run service ⟨none, none⟩ .silent doings
    Chosen service ⟨none, none⟩ .silent r.destination g₀ doings before 1 place after ∧
      g.session.isOver = false ∧ g.received 1 = [97, 98, 99] ∧ g.received 0 = [] ∧
      g.session.control.written =
        (Reply.granted .v5 bound).bytes ++ (Reply.granted .v5 place).bytes ++ [120] := by
  intro service r bound place before after g₀ doings g
  have hchosen : Chosen service ⟨none, none⟩ .silent r.destination g₀ doings before 1 place after :=
    ⟨rfl, by decide +kernel, by decide +kernel⟩
  have hgoes : g.session.isOver = false := by decide +kernel
  have h := (bind_passes_on service ⟨none, none⟩ .silent .idle doings).1 r rfl
  exact ⟨hchosen, hgoes, h.whole _ _ _ _ hchosen hgoes, by decide +kernel, by decide +kernel⟩

end Gathering

end Socks
