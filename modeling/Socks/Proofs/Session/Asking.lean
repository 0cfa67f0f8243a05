import Socks.Proofs.Session.Waiting

/-!
# Sessions that have asked

A session that has asked for a look-up, a connection, a listener or a socket waits for the answer.
Everything else that happens meanwhile passes, and after the answer the session goes on as if it had
been there at once.

Main statements: `Session.answers_resolve`, `Session.answers_dial`, `Session.answers_listen` and
`Session.answers_openSocket`, which put a session that asks in closed form.
-/

namespace Socks

namespace Event

/-- The answer to a look-up that comes with an event. -/
def resolved? : Event → Option (Except IoError IpAddress)
  | resolved answer => some answer
  | _ => none

/-- The answer to a dial that comes with an event. -/
def dialed? : Event → Option (Except IoError (Except IoError Endpoint))
  | dialed answer => some answer
  | _ => none

/-- The answer about a listener that comes with an event. -/
def listened? : Event → Option (Except IoError (Except IoError Endpoint))
  | listened answer => some answer
  | _ => none

/-- The answer about a socket that comes with an event. -/
def opened? : Event → Option (Except IoError Endpoint)
  | opened answer => some answer
  | _ => none

end Event

section answers

variable {α : Type} {answer? : Event → Option α} {events : List Event}

/-- The first answer among some events, with the events after it. -/
def firstAnswer? (answer? : Event → Option α) : List Event → Option (α × List Event)
  | [] => none
  | e :: later =>
    match answer? e with
    | some a => some (a, later)
    | none => firstAnswer? answer? later

/-- The answer to a question, which is there at once or comes with an event, with the events after
it. -/
def answeredIn? (answer? : Event → Option α) (atOnce? : Option α) (events : List Event) :
    Option (α × List Event) :=
  match atOnce? with
  | some a => some (a, events)
  | none => firstAnswer? answer? events

theorem firstAnswer?_cons_some {e : Event} {a : α} (h : answer? e = some a) :
    firstAnswer? answer? (e :: events) = some (a, events) := by
  rw [firstAnswer?, h]

theorem firstAnswer?_cons_none {e : Event} (h : answer? e = none) :
    firstAnswer? answer? (e :: events) = firstAnswer? answer? events := by
  rw [firstAnswer?, h]

/-- The first answer comes with an event before which there is none. -/
theorem split_of_firstAnswer? {a : α} {later : List Event}
    (h : firstAnswer? answer? events = some (a, later)) :
    ∃ asked e, events = asked ++ e :: later ∧ asked.filterMap answer? = [] ∧
      answer? e = some a := by
  induction events with
  | nil => cases h
  | cons e events ih =>
      cases he : answer? e with
      | some a' =>
          rw [firstAnswer?_cons_some he] at h
          cases h
          exact ⟨[], e, rfl, rfl, he⟩
      | none =>
          rw [firstAnswer?_cons_none he] at h
          obtain ⟨asked, e', rfl, hasked, he'⟩ := ih h
          exact ⟨e :: asked, e', rfl, (List.filterMap_cons_none he).trans hasked, he'⟩

theorem firstAnswer?_append {a : α} {later : List Event}
    (h : firstAnswer? answer? events = some (a, later)) (more : List Event) :
    firstAnswer? answer? (events ++ more) = some (a, later ++ more) := by
  induction events with
  | nil => cases h
  | cons e events ih =>
      cases he : answer? e with
      | some a' =>
          rw [firstAnswer?_cons_some he] at h
          cases h
          exact firstAnswer?_cons_some he
      | none =>
          rw [firstAnswer?_cons_none he] at h
          rw [List.cons_append, firstAnswer?_cons_none he, ih h]

/-- An answer that has come stays. -/
theorem answeredIn?_append {atOnce? : Option α} {a : α} {later : List Event}
    (h : answeredIn? answer? atOnce? events = some (a, later)) (more : List Event) :
    answeredIn? answer? atOnce? (events ++ more) = some (a, later ++ more) := by
  cases atOnce? with
  | some a' =>
      cases h
      rfl
  | none => exact firstAnswer?_append h more

/-- The first answer is the first of all answers. -/
theorem filterMap_of_firstAnswer? {a : α} {later : List Event}
    (h : firstAnswer? answer? events = some (a, later)) :
    events.filterMap answer? = a :: later.filterMap answer? := by
  obtain ⟨asked, e, rfl, hasked, he⟩ := split_of_firstAnswer? h
  rw [List.filterMap_append, hasked, List.nil_append, List.filterMap_cons_some he]

theorem filterMap_of_unanswered (h : firstAnswer? answer? events = none) :
    events.filterMap answer? = [] := by
  induction events with
  | nil => rfl
  | cons e events ih =>
      cases he : answer? e with
      | some a =>
          rw [firstAnswer?_cons_some he] at h
          cases h
      | none =>
          rw [firstAnswer?_cons_none he] at h
          rw [List.filterMap_cons_none he, ih h]

theorem suffix_of_firstAnswer? {a : α} {later : List Event}
    (h : firstAnswer? answer? events = some (a, later)) : ∃ e, e :: later <:+ events := by
  obtain ⟨asked, e, rfl, -, -⟩ := split_of_firstAnswer? h
  exact ⟨e, List.suffix_append asked _⟩

theorem length_of_firstAnswer? {a : α} {later : List Event}
    (h : firstAnswer? answer? events = some (a, later)) : later.length < events.length := by
  obtain ⟨e, hlater⟩ := suffix_of_firstAnswer? h
  exact hlater.length_le

theorem length_of_answeredIn? {atOnce? : Option α} {a : α} {later : List Event}
    (h : answeredIn? answer? atOnce? events = some (a, later)) :
    later.length ≤ events.length := by
  cases atOnce? with
  | some a' =>
      cases h
      exact Nat.le_refl _
  | none => exact Nat.le_of_lt (length_of_firstAnswer? h)

end answers

namespace Session

variable {service : Service} {c : Connection} {out : Surroundings} {s : Session}

/-- What a session has come to that asked at `s`: it waits in the phase `phase`, or it has gone on
with the answer, which came in the course of the events `asked`. -/
inductive Answers {α : Type} (service : Service) (c : Connection) (out : Surroundings)
    (go : α → Session → Session) (s : Session) (phase : Phase) (events : List Event) :
    Option (α × List Event) → Session → Prop
  | pending : Answers service c out go s phase events none { s.passed events with phase := phase }
  | answered {asked later : List Event} {a : α} {phase' : Phase} :
      events = asked ++ later →
        Answers service c out go s phase events (some (a, later))
          ((go a { s.passed asked with phase := phase' }).trace service c out later)

/-- A session that goes on with an answer, if there is one. -/
def heed {α : Type} (go : α → Session → Session) (s : Session) : Option α → Session
  | some a => go a s
  | none => s

section waiting

variable {α : Type} {go : α → Session → Session} {phase : Phase} {answer? : Event → Option α}

theorem Answers.cons {e : Event} {events : List Event} {s' : Session}
    {answered? : Option (α × List Event)}
    (h : Answers service c out go (s.passed [e]) phase events answered? s') :
    Answers service c out go s phase (e :: events) answered? s' := by
  cases h with
  | pending =>
      rw [passed_passed]
      exact .pending
  | answered he =>
      rw [passed_passed]
      exact .answered (by rw [he, List.singleton_append, List.cons_append])

/-- A session that goes on with an answer and lets all else pass has come to the first answer. -/
theorem answers_trace
    (hstep : ∀ (s : Session) e, s.phase = phase →
      s.step service c out e = (s.passed [e]).heed go (answer? e))
    (s : Session) (events : List Event) :
    Answers service c out go s phase events (firstAnswer? answer? events)
      ({ s with phase := phase }.trace service c out events) := by
  induction events generalizing s with
  | nil =>
      have h : Answers service c out go s phase [] none { s.passed [] with phase := phase } :=
        .pending
      rwa [passed_nil] at h
  | cons e events ih =>
      rw [trace_cons, hstep _ e rfl]
      cases he : answer? e with
      | some a =>
          rw [firstAnswer?_cons_some he]
          have hnow : e :: events = [e] ++ events := rfl
          exact .answered hnow
      | none =>
          rw [firstAnswer?_cons_none he]
          exact (ih (s.passed [e])).cons

theorem answers_atOnce (a : α) (s : Session) (phase : Phase) (events : List Event) :
    Answers service c out go s phase events (some (a, events))
      ((go a s).trace service c out events) := by
  have h : Answers service c out go s phase events (some (a, events))
      ((go a { s.passed [] with phase := s.phase }).trace service c out events) := .answered rfl
  rwa [passed_nil] at h

/-- An event brings the answer that a session waits for and that brings no far side, or passes. -/
theorem step_of_asked {next : α → Plan} {q : Plan} (hawaits : Awaits q phase)
    (hg : q.Grounded false)
    (hnext : ∀ clock e, continuation? clock phase e = (answer? e).map fun a => (next a, false))
    (s : Session) (e : Event) (hp : s.phase = phase) :
    s.step service c out e =
      (s.passed [e]).heed (fun a => pursue out service.rules (next a)) (answer? e) := by
  rw [← hp] at hawaits
  rw [step_of_awaits hawaits hg (by simp), hp, hnext]
  cases answer? e with
  | none => rfl
  | some a => simp [heed]

end waiting

theorem step_of_resolving {next : Except IoError IpAddress → Plan}
    (hg : ∀ answer, (next answer).Grounded false) (s : Session) (e : Event)
    (hp : s.phase = .resolving next) :
    s.step service c out e =
      (s.passed [e]).heed (fun answer => pursue out service.rules (next answer)) e.resolved? :=
  step_of_asked (.resolve "" next) hg (fun _ e => by cases e <;> rfl) s e hp

theorem step_of_listenerAwaited {next : Except IoError (Except IoError Endpoint) → Plan}
    (hg : ∀ answer, (next answer).Grounded false) (s : Session) (e : Event)
    (hp : s.phase = .listening next) :
    s.step service c out e =
      (s.passed [e]).heed (fun answer => pursue out service.rules (next answer)) e.listened? :=
  step_of_asked (.listen ⟨.anyV4, 0⟩ next) hg (fun _ e => by cases e <;> rfl) s e hp

theorem step_of_socketAwaited {next : Except IoError Endpoint → Plan}
    (hg : ∀ answer, (next answer).Grounded false) (s : Session) (e : Event)
    (hp : s.phase = .opening next) :
    s.step service c out e =
      (s.passed [e]).heed (fun answer => pursue out service.rules (next answer)) e.opened? :=
  step_of_asked (.openSocket ⟨.anyV4, 0⟩ next) hg (fun _ e => by cases e <;> rfl) s e hp

theorem step_of_dialing {next : Except IoError (Except IoError Endpoint) → Plan}
    {destination : Endpoint}
    (hg : (Plan.dial destination next).Grounded false) (s : Session) (e : Event)
    (hp : s.phase = .dialing next) :
    s.step service c out e =
      (s.passed [e]).heed (fun answer s => pursue out service.rules (next answer) (s.reach answer))
        e.dialed? := by
  have hawaits : Awaits (.dial destination next) s.phase := by
    rw [hp]
    exact .dial destination next
  rw [step_of_awaits hawaits hg (by simp), hp]
  cases e with
  | dialed answer =>
      cases answer with
      | ok here => simp [continuation?, answered?, Event.dialed?, heed, went_met, reach]
      | error e => simp [continuation?, answered?, Event.dialed?, heed, reach]
  | _ => rfl

theorem answers_resolve {next : Except IoError IpAddress → Plan} {host : String}
    (hg : ∀ answer, (next answer).Grounded false) (s : Session) (events : List Event) :
    Answers service c out (fun answer => pursue out service.rules (next answer))
      (s.record (.resolve host)) (.resolving next) events
      (answeredIn? Event.resolved? (out.resolve host) events)
      ((pursue out service.rules (.resolve host next) s).trace service c out events) := by
  simp only [pursue]
  cases out.resolve host with
  | some answer => exact answers_atOnce answer _ _ events
  | none => exact answers_trace (step_of_resolving hg) _ events

theorem answers_dial {next : Except IoError (Except IoError Endpoint) → Plan}
    {destination : Endpoint}
    (hg : (Plan.dial destination next).Grounded false) (s : Session) (events : List Event) :
    Answers service c out
      (fun answer s => pursue out service.rules (next answer) (s.reach answer))
      (s.record (.dial destination)) (.dialing next) events
      (answeredIn? Event.dialed? (out.dial destination) events)
      ((pursue out service.rules (.dial destination next) s).trace service c out events) := by
  simp only [pursue]
  cases out.dial destination with
  | some answer => exact answers_atOnce answer _ _ events
  | none => exact answers_trace (step_of_dialing hg) _ events

theorem answers_listen {next : Except IoError (Except IoError Endpoint) → Plan} {place : Endpoint}
    (hg : ∀ answer, (next answer).Grounded false) (s : Session) (events : List Event) :
    Answers service c out (fun answer => pursue out service.rules (next answer))
      (s.record (.listen place)) (.listening next) events
      (answeredIn? Event.listened? (out.listen place) events)
      ((pursue out service.rules (.listen place next) s).trace service c out events) := by
  simp only [pursue]
  cases out.listen place with
  | some answer => exact answers_atOnce answer _ _ events
  | none => exact answers_trace (step_of_listenerAwaited hg) _ events

theorem answers_openSocket {next : Except IoError Endpoint → Plan} {place : Endpoint}
    (hg : ∀ answer, (next answer).Grounded false) (s : Session) (events : List Event) :
    Answers service c out (fun answer => pursue out service.rules (next answer))
      (s.record (.openSocket place)) (.opening next) events
      (answeredIn? Event.opened? (out.openSocket s.socketsOpened place) events)
      ((pursue out service.rules (.openSocket place next) s).trace service c out events) := by
  simp only [pursue]
  cases out.openSocket s.socketsOpened place with
  | some answer => exact answers_atOnce answer _ _ events
  | none => exact answers_trace (step_of_socketAwaited hg) _ events

end Session

end Socks
