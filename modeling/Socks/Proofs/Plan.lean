import Mathlib.Tactic.Common
import Socks.Session

/-!
# The courses a plan can take

A plan is a tree; the answers that it gets lead through it. `Plan.Course` follows a plan from its
root along any answers, with the calls that it makes and the replies that it gives on the way.

Main statements: what the plan of a command calls and how often it replies
(`Plan.Course.within`, `Plan.within_perform`), a relay begins only when a far side is there
(`Plan.grounded_ofRequest`), and the courses of a request begin at the rules
(`Plan.Course.of_ofRequest`).
-/

namespace Socks

namespace Command

/-- What a command may ask others for. -/
def Uses : Command → Call → Prop
  | connect, .resolve _ => True
  | connect, .dial _ => True
  | bind, .listen _ => True
  | associate, .openSocket _ => True
  | associate, .resolve _ => True
  | _, _ => False

/-- How many replies a command gives at most. -/
def replies : Command → Nat
  | bind => 2
  | _ => 1

end Command

theorem Status.ofDialError_ne_success (e : IoError) : ofDialError e ≠ success := by
  unfold ofDialError
  split <;> decide

/-- The host that a destination names by number, if a caller comes from another one. -/
def Address.otherHost? (a : Address) (caller : Endpoint) : Option IpAddress :=
  if a.name = "" then a.ip?.filter fun ip => !ip.isUnspecified && ip != caller.ip else none

theorem Address.otherHost?_eq (a : Address) (caller : Endpoint) :
    a.otherHost? caller = a.literalHost?.filter fun ip => ip != caller.ip := by
  unfold otherHost? literalHost? endpoint?
  by_cases hn : a.name = ""
  · rw [if_pos hn, if_pos hn]
    cases a.ip? with
    | none => rfl
    | some ip => cases hu : ip.isUnspecified <;> simp [Option.filter, hu]
  · rw [if_neg hn, if_neg hn]
    rfl

/-- A caller is no stranger if it comes from the host that is named, or if none is. -/
theorem Address.otherHost?_eq_none_iff {a : Address} {caller : Endpoint} :
    a.otherHost? caller = none ↔
      ∀ ip, a.name = "" → a.ip? = some ip → ip.isUnspecified = false → caller.ip = ip := by
  unfold otherHost?
  by_cases hn : a.name = ""
  · cases hip : a.ip? with
    | none => simp [hn]
    | some ip =>
        by_cases he : caller.ip = ip
        · simp [hn, he, Option.filter]
        · cases hu : ip.isUnspecified <;> simp [hn, he, Ne.symm he, hu, Option.filter]
  · simp [hn]

namespace Plan

/-- What a plan asks first, if it is to be answered by others. -/
def asks : Plan → List Call
  | resolve host _ => [.resolve host]
  | dial destination _ => [.dial destination]
  | listen place _ => [.listen place]
  | openSocket place _ => [.openSocket place]
  | _ => []

/-- One node of a plan: `p.Step rules calls replies met q` if the plan `p` goes on as `q` after an
answer, having made these calls and given these replies; `met` tells whether the answer brought a
far side. -/
inductive Step (rules : Rules) : Plan → List Call → List Reply → Bool → Plan → Prop
  | consult (r : Request) (next : Bool → Plan) :
      Step rules (.consult r next) [.rules r (rules r)] [] false (next (rules r))
  | reply (m : Reply) (next : Plan) : Step rules (.reply m next) [] [m] false next
  | resolve (host : String) (next : Except IoError IpAddress → Plan)
      (answer : Except IoError IpAddress) :
      Step rules (.resolve host next) [.resolve host] [] false (next answer)
  | reached (destination : Endpoint) (next : Except IoError (Except IoError Endpoint) → Plan)
      (here : Except IoError Endpoint) :
      Step rules (.dial destination next) [.dial destination] [] true (next (.ok here))
  | unreached (destination : Endpoint) (next : Except IoError (Except IoError Endpoint) → Plan)
      (e : IoError) :
      Step rules (.dial destination next) [.dial destination] [] false (next (.error e))
  | listen (place : Endpoint) (next : Except IoError (Except IoError Endpoint) → Plan)
      (answer : Except IoError (Except IoError Endpoint)) :
      Step rules (.listen place next) [.listen place] [] false (next answer)
  | openSocket (place : Endpoint) (next : Except IoError Endpoint → Plan)
      (answer : Except IoError Endpoint) :
      Step rules (.openSocket place next) [.openSocket place] [] false (next answer)
  | called (limit : UInt64) (next : Except IoError (Option Endpoint) → Plan) (caller : Endpoint) :
      Step rules (.accept limit next) [] [] true (next (.ok (some caller)))
  | uncalled (limit : UInt64) (next : Except IoError (Option Endpoint) → Plan) :
      Step rules (.accept limit next) [] [] false (next (.ok none))
  | uncallable (limit : UInt64) (next : Except IoError (Option Endpoint) → Plan) (e : IoError) :
      Step rules (.accept limit next) [] [] false (next (.error e))

/-- Any number of nodes of a plan, with all calls and replies on the way. -/
inductive Course (rules : Rules) : Plan → List Call → List Reply → Bool → Plan → Prop
  | here (p : Plan) : Course rules p [] [] false p
  | step {p q q' : Plan} {cs cs' : List Call} {ms ms' : List Reply} {met met' : Bool} :
      p.Step rules cs ms met q → Course rules q cs' ms' met' q' →
        Course rules p (cs ++ cs') (ms ++ ms') (met || met') q'

section courses

variable {rules : Rules} {p q q' : Plan} {cs cs' : List Call} {ms ms' : List Reply}
  {met met' : Bool}

theorem Course.append (h : p.Course rules cs ms met q) (h' : q.Course rules cs' ms' met' q') :
    p.Course rules (cs ++ cs') (ms ++ ms') (met || met') q' := by
  induction h with
  | here p => simpa using h'
  | step hs _ ih =>
      rw [List.append_assoc, List.append_assoc, Bool.or_assoc]
      exact .step hs (ih h')

theorem Step.course (h : p.Step rules cs ms met q) : p.Course rules cs ms met q := by
  simpa using Course.step h (.here q)

/-! ### What a plan may call and reply -/

/-- The plan makes at most so many calls, all as told, and gives at most so many replies, all of
one version. An association that it ends with may look up names. -/
def Within (P : Call → Prop) (v : Version) : Plan → Nat → Nat → Prop
  | finish _, _, _ => True
  | consult r next, c, m => 0 < c ∧ ∀ b, P (.rules r b) ∧ (next b).Within P v (c - 1) m
  | reply message next, c, m => 0 < m ∧ message.version = v ∧ next.Within P v c (m - 1)
  | resolve host next, c, m => 0 < c ∧ P (.resolve host) ∧ ∀ a, (next a).Within P v (c - 1) m
  | dial place next, c, m => 0 < c ∧ P (.dial place) ∧ ∀ a, (next a).Within P v (c - 1) m
  | listen place next, c, m => 0 < c ∧ P (.listen place) ∧ ∀ a, (next a).Within P v (c - 1) m
  | openSocket place next, c, m =>
    0 < c ∧ P (.openSocket place) ∧ ∀ a, (next a).Within P v (c - 1) m
  | accept _ next, c, m => ∀ a, (next a).Within P v c m
  | relay, _, _ => True
  | associate _, _, _ => ∀ host, P (.resolve host)

variable {P : Call → Prop} {v : Version} {c m : Nat}

theorem Step.within (h : p.Step rules cs ms met q) (hp : p.Within P v c m) :
    (∀ x ∈ cs, P x) ∧ cs.length ≤ c ∧ (∀ x ∈ ms, x.version = v) ∧ ms.length ≤ m ∧
      q.Within P v (c - cs.length) (m - ms.length) := by
  cases h with
  | consult r next =>
      obtain ⟨hc, h⟩ := hp
      exact ⟨by simpa using (h _).1, hc, by simp, Nat.zero_le _, (h _).2⟩
  | reply message next =>
      obtain ⟨hm, hv, h⟩ := hp
      exact ⟨by simp, Nat.zero_le _, by simpa using hv, hm, h⟩
  | resolve | reached | unreached | listen | openSocket =>
      obtain ⟨hc, hP, h⟩ := hp
      exact ⟨by simpa using hP, hc, by simp, Nat.zero_le _, h _⟩
  | called | uncalled | uncallable =>
      exact ⟨by simp, Nat.zero_le _, by simp, Nat.zero_le _, hp _⟩

theorem Course.within (h : p.Course rules cs ms met q) (hp : p.Within P v c m) :
    (∀ x ∈ cs, P x) ∧ cs.length ≤ c ∧ (∀ x ∈ ms, x.version = v) ∧ ms.length ≤ m ∧
      q.Within P v (c - cs.length) (m - ms.length) := by
  induction h generalizing c m with
  | here p => exact ⟨by simp, Nat.zero_le _, by simp, Nat.zero_le _, hp⟩
  | step hs _ ih =>
      obtain ⟨hcs, hc, hms, hm, hq⟩ := hs.within hp
      obtain ⟨hcs', hc', hms', hm', hq'⟩ := ih hq
      simp only [List.mem_append, List.length_append]
      refine ⟨fun x hx => hx.elim (hcs x) (hcs' x), by omega, fun x hx => hx.elim (hms x) (hms' x),
        by omega, ?_⟩
      rwa [Nat.sub_sub, Nat.sub_sub] at hq'

/-- What a plan waits for is a call that it may make. -/
theorem Within.asks (h : p.Within P v c m) : (∀ x ∈ p.asks, P x) ∧ p.asks.length ≤ c := by
  cases p with
  | resolve | dial | listen | openSocket => exact ⟨by simpa [Plan.asks] using h.2.1, h.1⟩
  | finish | consult | reply | accept | relay | associate =>
      exact ⟨by simp [Plan.asks], Nat.zero_le _⟩

/-- A relay begins in the plan only after a far side has been dialed or has called; `met` tells
whether there is one already. -/
def Grounded : Plan → Bool → Prop
  | finish _, _ => True
  | consult _ next, met => ∀ b, (next b).Grounded met
  | reply _ next, met => next.Grounded met
  | resolve _ next, met => ∀ a, (next a).Grounded met
  | dial _ next, met => (∀ a, (next (.ok a)).Grounded true) ∧ ∀ e, (next (.error e)).Grounded met
  | listen _ next, met => ∀ a, (next a).Grounded met
  | openSocket _ next, met => ∀ a, (next a).Grounded met
  | accept _ next, met =>
    (∀ a, (next (.ok (some a))).Grounded true) ∧ (next (.ok none)).Grounded met ∧
      ∀ e, (next (.error e)).Grounded met
  | relay, met => met = true
  | associate _, _ => True

theorem Step.grounded {b : Bool} (h : p.Step rules cs ms met q) (hp : p.Grounded b) :
    q.Grounded (b || met) := by
  cases h with
  | reached => simpa using hp.1 _
  | unreached => simpa using hp.2 _
  | called => simpa using hp.1 _
  | uncalled => simpa using hp.2.1
  | uncallable => simpa using hp.2.2 _
  | consult | resolve | listen | openSocket => simpa using hp _
  | reply => simpa [Grounded] using hp

theorem Course.grounded {b : Bool} (h : p.Course rules cs ms met q) (hp : p.Grounded b) :
    q.Grounded (b || met) := by
  induction h generalizing b with
  | here p => simpa using hp
  | step hs _ ih =>
      rw [← Bool.or_assoc]
      exact ih (hs.grounded hp)

/-- The control stream is handed over in the plan only after the command has been granted;
`last?` is the last reply given before. -/
def Announced (v : Version) : Plan → Option Reply → Prop
  | finish _, _ => True
  | consult _ next, last? => ∀ b, (next b).Announced v last?
  | reply message next, _ => next.Announced v (some message)
  | resolve _ next, last? => ∀ a, (next a).Announced v last?
  | dial _ next, last? => ∀ a, (next a).Announced v last?
  | listen _ next, last? => ∀ a, (next a).Announced v last?
  | openSocket _ next, last? => ∀ a, (next a).Announced v last?
  | accept _ next, last? => ∀ a, (next a).Announced v last?
  | relay, last? => ∃ bound, last? = some (.granted v bound)
  | associate _, last? => ∃ bound, last? = some (.granted v bound)

variable {last? : Option Reply}

theorem Step.announced (h : p.Step rules cs ms met q) (hp : p.Announced v last?) :
    q.Announced v (ms.getLast?.or last?) := by
  cases h with
  | reply => exact hp
  | consult | resolve | reached | unreached | listen | openSocket | called | uncalled
  | uncallable => exact hp _

theorem Course.announced (h : p.Course rules cs ms met q) (hp : p.Announced v last?) :
    q.Announced v (ms.getLast?.or last?) := by
  induction h generalizing last? with
  | here p => exact hp
  | step hs _ ih =>
      rw [List.getLast?_append, Option.or_assoc]
      exact ih (hs.announced hp)

end courses

/-! ### The plans of the commands -/

section commands

variable {limit : UInt64} {here? : Option IpAddress} {r : Request} {P : Call → Prop} {c m : Nat}

theorem within_giveUp {v : Version} {status : Status} {f : Failure} (hm : 0 < m) :
    (giveUp v status f).Within P v c m := ⟨hm, rfl, trivial⟩

theorem grounded_giveUp (v : Version) (status : Status) (f : Failure) (met : Bool) :
    (giveUp v status f).Grounded met := trivial

theorem within_dialing {destination : Endpoint} (hP : P (.dial destination)) (hc : 0 < c)
    (hm : 0 < m) : (dialing r destination).Within P r.version c m := by
  refine ⟨hc, hP, fun a => ?_⟩
  match a with
  | .ok (.ok here) => exact ⟨hm, rfl, trivial⟩
  | .ok (.error e) => trivial
  | .error e => exact within_giveUp hm

theorem grounded_dialing (destination : Endpoint) (met : Bool) :
    (dialing r destination).Grounded met := by
  refine ⟨fun here => ?_, fun _ => grounded_giveUp ..⟩
  cases here with
  | ok here => rfl
  | error e => trivial

theorem within_connect : (connect r).Within (Command.Uses .connect) r.version 2 1 := by
  unfold connect
  split
  · exact within_dialing trivial (by decide) (by decide)
  · refine ⟨by decide, trivial, fun a => ?_⟩
    cases a with
    | ok ip => exact within_dialing trivial (by decide) (by decide)
    | error e => exact within_giveUp (by decide)
  · exact within_giveUp (by decide)

theorem grounded_connect : (connect r).Grounded false := by
  unfold connect
  split
  · exact grounded_dialing ..
  · intro a
    cases a with
    | ok ip => exact grounded_dialing ..
    | error e => exact grounded_giveUp ..
  · exact grounded_giveUp ..

theorem welcome_eq (caller : Endpoint) :
    welcome r caller =
      match r.destination.otherHost? caller with
      | some expected => giveUp r.version .ruleFailure (.blocked (.peer caller expected))
      | none => .reply (.granted r.version caller) .relay := by
  rw [Address.otherHost?_eq]
  unfold welcome
  cases r.destination.literalHost? with
  | none => rfl
  | some expected =>
      by_cases he : caller.ip = expected
      · simp [he, Option.filter]
      · simp [he, Ne.symm he, Option.filter]

theorem within_welcome {caller : Endpoint} (hm : 0 < m) :
    (welcome r caller).Within P r.version c m := by
  unfold welcome
  split
  · split_ifs
    · exact ⟨hm, rfl, trivial⟩
    · exact within_giveUp hm
  · exact ⟨hm, rfl, trivial⟩

theorem grounded_welcome (caller : Endpoint) : (welcome r caller).Grounded true := by
  unfold welcome
  split
  · split_ifs
    · exact rfl
    · exact grounded_giveUp ..
  · exact rfl

theorem within_bind : (bind limit here? r).Within (Command.Uses .bind) r.version 1 2 := by
  refine ⟨by decide, trivial, fun a => ?_⟩
  match a with
  | .ok (.ok bound) =>
      refine ⟨by decide, rfl, fun answer => ?_⟩
      match answer with
      | .ok (some caller) => exact within_welcome (by decide)
      | .ok none => exact within_giveUp (by decide)
      | .error e => exact within_giveUp (by decide)
  | .ok (.error e) => trivial
  | .error e => exact within_giveUp (by decide)

theorem grounded_bind : (bind limit here? r).Grounded false := by
  intro a
  match a with
  | .ok (.ok bound) => exact ⟨grounded_welcome, grounded_giveUp .., fun e => grounded_giveUp ..⟩
  | .ok (.error e) => trivial
  | .error e => exact grounded_giveUp ..

theorem within_datagrams :
    (datagrams here? r).Within (Command.Uses .associate) r.version 2 1 := by
  refine ⟨by decide, trivial, fun a => ?_⟩
  cases a with
  | ok inner =>
      refine ⟨by decide, trivial, fun a => ?_⟩
      cases a with
      | ok outer => exact ⟨by decide, rfl, fun _ => trivial⟩
      | error e => exact within_giveUp (by decide)
  | error e => exact within_giveUp (by decide)

theorem grounded_datagrams : (datagrams here? r).Grounded false := by
  intro a
  cases a with
  | ok inner =>
      intro a
      cases a with
      | ok outer => trivial
      | error e => exact grounded_giveUp ..
  | error e => exact grounded_giveUp ..

theorem Within.mono {v : Version} {p : Plan} {c' m' : Nat} (h : p.Within P v c m) (hc : c ≤ c')
    (hm : m ≤ m') : p.Within P v c' m' := by
  induction p generalizing c c' m m' with
  | finish | relay => trivial
  | associate => exact h
  | consult r next ih =>
      obtain ⟨hpos, hnext⟩ := h
      refine ⟨by omega, fun b => ?_⟩
      obtain ⟨hP, hq⟩ := hnext b
      exact ⟨hP, ih b hq (by omega) hm⟩
  | reply message next ih =>
      obtain ⟨hpos, hversion, hnext⟩ := h
      exact ⟨by omega, hversion, ih hnext hc (by omega)⟩
  | resolve _ _ ih | dial _ _ ih | listen _ _ ih | openSocket _ _ ih =>
      obtain ⟨hpos, hP, hnext⟩ := h
      exact ⟨by omega, hP, fun a => ih a (hnext a) (by omega) hm⟩
  | accept limit next ih => exact fun a => ih a (h a) hc hm

/-- A command asks only for what it uses, and gives no more replies than it may. -/
theorem within_perform :
    (perform limit here? r).Within r.command.Uses r.version 2 r.command.replies := by
  unfold perform
  cases r.command with
  | connect => exact within_connect
  | bind => exact within_bind.mono (by decide) (by decide)
  | associate => exact within_datagrams

/-- A relay begins only when a far side is there. -/
theorem grounded_ofRequest : (ofRequest limit here? r).Grounded false := by
  intro allowed
  cases allowed with
  | false => exact grounded_giveUp ..
  | true =>
      show (perform limit here? r).Grounded false
      unfold perform
      cases r.command with
      | connect => exact grounded_connect
      | bind => exact grounded_bind
      | associate => exact grounded_datagrams

theorem announced_giveUp (v : Version) (status : Status) (f : Failure) (last? : Option Reply) :
    (giveUp v status f).Announced v last? := trivial

theorem announced_dialing (destination : Endpoint) (last? : Option Reply) :
    (dialing r destination).Announced r.version last? := by
  intro a
  match a with
  | .ok (.ok here) => exact ⟨here, rfl⟩
  | .ok (.error e) => trivial
  | .error e => exact announced_giveUp ..

theorem announced_connect (last? : Option Reply) :
    (connect r).Announced r.version last? := by
  unfold connect
  split
  · exact announced_dialing _ _
  · intro a
    cases a with
    | ok ip => exact announced_dialing _ _
    | error e => exact announced_giveUp ..
  · exact announced_giveUp ..

theorem announced_welcome (caller : Endpoint) (last? : Option Reply) :
    (welcome r caller).Announced r.version last? := by
  unfold welcome
  split
  · split_ifs
    · exact ⟨caller, rfl⟩
    · exact announced_giveUp ..
  · exact ⟨caller, rfl⟩

theorem announced_bind (last? : Option Reply) :
    (bind limit here? r).Announced r.version last? := by
  intro a
  match a with
  | .ok (.ok bound) =>
      intro answer
      match answer with
      | .ok (some caller) => exact announced_welcome ..
      | .ok none => exact announced_giveUp ..
      | .error e => exact announced_giveUp ..
  | .ok (.error e) => trivial
  | .error e => exact announced_giveUp ..

theorem announced_datagrams (last? : Option Reply) :
    (datagrams here? r).Announced r.version last? := by
  intro a
  cases a with
  | ok inner =>
      intro a
      cases a with
      | ok outer => exact ⟨inner, rfl⟩
      | error e => exact announced_giveUp ..
  | error e => exact announced_giveUp ..

theorem announced_ofRequest : (ofRequest limit here? r).Announced r.version none := by
  intro allowed
  cases allowed with
  | false => exact announced_giveUp ..
  | true =>
      show (perform limit here? r).Announced r.version none
      unfold perform
      cases r.command with
      | connect => exact announced_connect _
      | bind => exact announced_bind _
      | associate => exact announced_datagrams _

variable {rules : Rules} {cs : List Call} {ms : List Reply} {met : Bool} {q : Plan}

theorem Course.of_finish {result : Except Failure Unit}
    (h : (finish result).Course rules cs ms met q) :
    cs = [] ∧ ms = [] ∧ met = false ∧ q = finish result := by
  cases h with
  | here => exact ⟨rfl, rfl, rfl, rfl⟩
  | step hs => cases hs

theorem Course.of_relay (h : relay.Course rules cs ms met q) :
    cs = [] ∧ ms = [] ∧ met = false ∧ q = relay := by
  cases h with
  | here => exact ⟨rfl, rfl, rfl, rfl⟩
  | step hs => cases hs

/-- To give up takes one reply and no call. -/
theorem Course.of_giveUp {v : Version} {status : Status} {f : Failure}
    (h : (giveUp v status f).Course rules cs ms met q) :
    cs = [] ∧ met = false ∧
      (ms = [] ∧ q = giveUp v status f ∨
        ms = [.bare v status] ∧ q = finish (.error f)) := by
  unfold giveUp at h
  cases h with
  | here => exact ⟨rfl, rfl, .inl ⟨rfl, rfl⟩⟩
  | step hs h' =>
      cases hs with
      | reply =>
          obtain ⟨rfl, rfl, rfl, rfl⟩ := h'.of_finish
          exact ⟨rfl, rfl, .inr ⟨rfl, rfl⟩⟩

/-- Who gives up asks nobody any more, and looks up no names. -/
theorem Course.quiet_giveUp {v : Version} {status : Status} {f : Failure} {hosts : List String}
    (h : (giveUp v status f).Course rules cs ms met q)
    (hhosts : hosts ≠ [] → ∃ sockets, q = .associate sockets) : cs ++ q.asks = [] ∧ hosts = [] := by
  have hlookups : (∀ sockets, q ≠ .associate sockets) → hosts = [] := by
    intro hq
    by_contra hne
    obtain ⟨sockets, h⟩ := hhosts hne
    exact hq sockets h
  obtain ⟨rfl, -, ⟨-, rfl⟩ | ⟨-, rfl⟩⟩ := h.of_giveUp
  · exact ⟨rfl, hlookups fun sockets hq => by cases hq⟩
  · exact ⟨rfl, hlookups fun sockets hq => by cases hq⟩

/-- What a command has asked for, what it waits for and the names that its association looks up are
what it uses, and before the association it asks twice at most. -/
theorem Course.uses_perform {hosts : List String}
    (h : (perform limit here? r).Course rules cs ms met q)
    (hhosts : hosts ≠ [] → ∃ sockets, q = .associate sockets) :
    (∀ call ∈ cs ++ q.asks ++ hosts.map Call.resolve, r.command.Uses call) ∧
      (cs ++ q.asks).length ≤ 2 := by
  obtain ⟨hcs, hlen, -, -, hq⟩ := h.within within_perform
  obtain ⟨hasks, hasked⟩ := hq.asks
  have hlookups : ∀ call ∈ hosts.map Call.resolve, r.command.Uses call := by
    intro call hcall
    obtain ⟨host, hhost, rfl⟩ := List.mem_map.mp hcall
    obtain ⟨sockets, rfl⟩ := hhosts (List.ne_nil_of_mem hhost)
    exact hq host
  constructor
  · intro call hcall
    rw [List.mem_append, List.mem_append] at hcall
    rcases hcall with (hcall | hcall) | hcall
    · exact hcs call hcall
    · exact hasks call hcall
    · exact hlookups call hcall
  · rw [List.length_append]
    omega

/-- A request asks the rules first, and goes on as they say. -/
theorem Course.of_ofRequest (h : (ofRequest limit here? r).Course rules cs ms met q) :
    (cs = [] ∧ ms = [] ∧ met = false ∧ q = ofRequest limit here? r) ∨
      ∃ cs', cs = .rules r (rules r) :: cs' ∧
        if rules r then (perform limit here? r).Course rules cs' ms met q
        else (giveUp r.version .ruleFailure (.blocked (.request r))).Course rules cs' ms met q := by
  unfold ofRequest at h
  cases h with
  | here => exact .inl ⟨rfl, rfl, rfl, rfl⟩
  | @step _ q₁ _ _ cs' _ ms' _ met' hs h' =>
      cases hs with
      | consult =>
          refine .inr ⟨cs', rfl, ?_⟩
          simp only [List.nil_append, Bool.false_or] at h' ⊢
          split_ifs at h' ⊢ <;> exact h'

/-- The replies that decide about a relay: none, one that gives up, or one that grants it. -/
def Decided (r : Request) (ms : List Reply) (q : Plan) : Prop :=
  ms = [] ∨ (∃ status f, status ≠ .success ∧ ms = [.bare r.version status] ∧
      q = finish (.error f)) ∨
    ∃ here, ms = [.granted r.version here] ∧ q = relay

theorem Course.decided_giveUp {status : Status} {f : Failure}
    (h : (giveUp r.version status f).Course rules cs ms met q) (hs : status ≠ .success) :
    Decided r ms q := by
  obtain ⟨-, -, ⟨rfl, -⟩ | ⟨rfl, rfl⟩⟩ := h.of_giveUp
  · exact .inl rfl
  · exact .inr (.inl ⟨status, f, hs, rfl, rfl⟩)

theorem Course.decided_dialing {destination : Endpoint}
    (h : (dialing r destination).Course rules cs ms met q) : Decided r ms q := by
  unfold dialing at h
  cases h with
  | here => exact .inl rfl
  | step hs h =>
      cases hs with
      | unreached _ _ e => exact h.decided_giveUp (Status.ofDialError_ne_success e)
      | reached _ _ here =>
          cases here with
          | error e => exact .inl h.of_finish.2.1
          | ok here =>
              cases h with
              | here => exact .inl rfl
              | step hs h =>
                  cases hs with
                  | reply =>
                      obtain ⟨-, rfl, -, rfl⟩ := h.of_relay
                      exact .inr (.inr ⟨here, rfl, rfl⟩)

/-- CONNECT gives one reply at most: one that grants it, before the relay, or one that does not, at
the end. -/
theorem Course.decided_connect (h : (connect r).Course rules cs ms met q) : Decided r ms q := by
  unfold connect at h
  split at h
  · exact h.decided_dialing
  · cases h with
    | here => exact .inl rfl
    | step hs h =>
        cases hs with
        | resolve _ _ answer =>
            cases answer with
            | ok ip => exact h.decided_dialing
            | error e => exact h.decided_giveUp (by decide)
  · exact h.decided_giveUp (by decide)

theorem Course.decided_ofRequest (h : (ofRequest limit here? r).Course rules cs ms met q)
    (hr : r.command = .connect) : Decided r ms q := by
  rcases h.of_ofRequest with ⟨-, rfl, -⟩ | ⟨cs', -, h'⟩
  · exact .inl rfl
  split_ifs at h'
  · unfold perform at h'
    rw [hr] at h'
    exact h'.decided_connect
  · exact h'.decided_giveUp (by decide)

/-- Of two replies of BIND the first grants it. -/
theorem Course.replies_bind (h : (bind limit here? r).Course rules cs ms met q) :
    ms.length ≤ 1 ∨ ∃ bound m, ms = [.granted r.version bound, m] := by
  unfold bind at h
  cases h with
  | here => exact .inl (Nat.zero_le _)
  | step hs h =>
      cases hs with
      | listen _ _ answer =>
          match answer with
          | .error e =>
              obtain ⟨-, -, ⟨rfl, -⟩ | ⟨rfl, -⟩⟩ := h.of_giveUp
              · exact .inl (Nat.zero_le _)
              · exact .inl (Nat.le_refl _)
          | .ok (.error e) =>
              obtain ⟨-, rfl, -, -⟩ := h.of_finish
              exact .inl (Nat.zero_le _)
          | .ok (.ok bound) =>
              cases h with
              | here => exact .inl (Nat.zero_le _)
              | @step _ _ _ _ _ _ ms _ _ hs h =>
                  cases hs with
                  | reply =>
                      have hw : ms.length ≤ 1 := by
                        refine (h.within (P := fun _ => True) (v := r.version) (c := 0) ?_).2.2.2.1
                        intro answer
                        match answer with
                        | .ok (some caller) => exact within_welcome (by decide)
                        | .ok none => exact within_giveUp (by decide)
                        | .error e => exact within_giveUp (by decide)
                      match ms, hw with
                      | [], _ => exact .inl (Nat.le_refl _)
                      | [m], _ => exact .inr ⟨bound, m, rfl⟩

/-- A request gets at most two replies, of its version, and two only if it is a BIND that the first
of them grants. -/
theorem Course.replies_of_ofRequest (h : (ofRequest limit here? r).Course rules cs ms met q) :
    (∀ m ∈ ms, m.version = r.version) ∧ ms.length ≤ 2 ∧
      (ms.length = 2 → rules r = true ∧ r.command = .bind ∧
        ∃ bound, ms.head? = some (.granted r.version bound)) := by
  rcases h.of_ofRequest with ⟨-, rfl, -⟩ | ⟨cs', -, h'⟩
  · exact ⟨by simp, by simp, by simp⟩
  by_cases hr : rules r = true
  · rw [if_pos hr] at h'
    obtain ⟨-, -, hversion, hlen, -⟩ := h'.within within_perform
    unfold perform at h'
    cases hc : r.command with
    | connect | associate =>
        rw [hc] at hlen
        have hfew : ms.length ≤ 1 := hlen
        exact ⟨hversion, by omega, fun htwo => by omega⟩
    | bind =>
        rw [hc] at h' hlen
        refine ⟨hversion, hlen, fun htwo => ⟨hr, rfl, ?_⟩⟩
        rcases h'.replies_bind with hfew | ⟨bound, m, rfl⟩
        · omega
        · exact ⟨bound, rfl⟩
  · rw [if_neg hr] at h'
    obtain ⟨-, -, ⟨rfl, -⟩ | ⟨rfl, -⟩⟩ := h'.of_giveUp
    · exact ⟨by simp, by simp, by simp⟩
    · exact ⟨by simp [Reply.bare], by simp, by simp⟩

end commands

end Plan

end Socks
