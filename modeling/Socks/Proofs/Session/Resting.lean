import Socks.Proofs.Session.Associated

/-!
# Where a session rests

Between two events a session that carries out a plan waits for an answer, relays, attends to an
association, or is over. `Session.Rests` says so, with what is known of it in each case. What an
event does then is told by `Session.step_of_awaits`, `Session.step_of_relaying`,
`Session.step_of_associated` and `Session.step_of_over`.

Main statement: `Session.Stands.rests`.
-/

namespace Socks

namespace Session

variable {service : Service} {c : Connection} {out : Surroundings} {rules : Rules} {p : Plan}
  {s₀ s : Session} {events : List Event}

/-- Where a session rests that carries out a plan. A relay has passed on everything. -/
inductive Rests (s : Session) : Prop
  | waits {q : Plan} {met : Bool} :
      Awaits q s.phase → q.Grounded met → s.far? = (if met then some .idle else none) → Rests s
  | relays {far : Stream} :
      s.phase = .relaying → s.far? = some far → far.fault? = none → far.incoming = [] →
      far.ending = .awaited → s.control.incoming = [] → s.control.ending = .awaited → Rests s
  | attends {a : Association} : s.phase = .associated a → Rests s
  | ended {result : Except Failure Unit} : s.phase = .over result → Rests s

/-- Where no far side has been met, none is expected. -/
theorem far?_of_unmet (h : false = true) : s.far? = some .idle := absurd h Bool.false_ne_true

/-- A far side that has been met is an idle stream as long as no relay has begun. -/
theorem far?_of_met {met : Bool} (h : s.far? = if met then some .idle else none)
    (hmet : met = true) : s.far? = some .idle := by
  rw [h, if_pos hmet]

theorem idle_of_far? {met : Bool} {far : Stream} (h : s.far? = if met then some .idle else none)
    (hthere : s.far? = some far) : far = .idle := by
  rw [h, Option.ite_none_right_eq_some] at hthere
  exact (Option.some.inj hthere.2).symm

theorem far?_went {met : Bool} (h : s.far? = if met then some .idle else none) (cs : List Call)
    (ms : List Reply) (met' : Bool) :
    (s.went cs ms met').far? = if met || met' then some .idle else none := by
  cases met <;> cases met' <;> simp [went, h]

theorem Stands.rests (h : Stands rules p s₀ events s) (hg : p.Grounded false)
    (hfar : s₀.far? = none) : Rests s := by
  cases h with
  | @waits cs ms met q phase hc ha hs =>
      subst hs
      refine .waits ha (by simpa using hc.grounded hg) ?_
      simp [went, passed, hfar]
  | cut hc hp hne ht hs => exact .ended (by rw [hs])
  | relays he hc hr =>
      rcases hr.stage with ⟨hp, far, hr, hi, ha, hfi, hfa⟩ | ⟨⟨result, hp⟩, -⟩
      · exact .relays hp hr.there hr.farTakes hfi hfa hi ha
      · exact .ended hp
  | associates he hc ha =>
      rcases ha.stage with ⟨a, hp⟩ | ⟨result, hp⟩
      · exact .attends hp
      · exact .ended hp

/-- A session rests when it has carried out a part of a plan and some events have happened. -/
theorem rests_trace (hg : p.Grounded false) (hfar : s₀.far? = none) (events : List Event) :
    Rests ((pursue out service.rules p s₀).trace service c out events) :=
  (stands_trace hg s₀ events).rests hg hfar

/-- A request that is carried out has brought its session to one of the places of its plan. -/
theorem stands_ofRequest (service : Service) (c : Connection) (out : Surroundings)
    (control : Stream) (r : Request) (events : List Event) :
    Stands service.rules (.ofRequest service.bindLimit (c.server?.map Endpoint.ip) r)
      (fresh control (.over (.ok ()))) events
        ((ofRequest service c out control r).trace service c out events) :=
  stands_trace Plan.grounded_ofRequest _ events

end Session

end Socks
