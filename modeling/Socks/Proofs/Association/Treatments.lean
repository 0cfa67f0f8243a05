import Mathlib.Data.List.TakeWhile
import Socks.Proofs.Association.Directions
import Socks.Proofs.DatagramCodec
import Socks.Proofs.Session.Asking

/-!
# How an association treats the datagrams of its client

An association takes up the datagrams of its client one after the other: the next one as soon as it
is there and the one before it is done with, which may take a look-up. `Association.treatments`
tells from what has happened which datagrams have been taken up, and with which answers, without a
look at what the association keeps meanwhile.

Main statement: what an association does for the far side is what these treatments come to
(`Association.forth_start`).
-/

namespace Socks

namespace Association

/-! ### From what has happened -/

/-- The host that a datagram wants to be looked up. Fragments and malformed datagrams want nothing,
nor do literal destinations. -/
def wanted? (bytes : Bytes) : Option String :=
  match Datagram.parse bytes with
  | .ok d => if d.fragment = 0 ∧ d.address.name ≠ "" then some d.address.name else none
  | .error _ => none

/-- A datagram of the client that has been taken up, with the answer about the host that it wants to
be looked up, if it wants one and there is an answer. -/
structure Treatment where
  packet : Packet
  answer? : Option (Except IoError IpAddress)

namespace Treatment

/-- Where a datagram for the destination `a` goes: to the literal address, or to the one that was
found. -/
def destination? (t : Treatment) (a : Address) : Option Endpoint :=
  if a.name = "" then a.ip?.map fun ip => ⟨ip, a.port⟩
  else
    match t.answer? with
    | some (.ok ip) => some ⟨ip, a.port⟩
    | _ => none

/-- What is sent for a datagram: its payload, unless it is malformed or a fragment, goes nowhere, or
is refused. -/
def sending? (outer : Endpoint) (t : Treatment) : Option Sending :=
  match Datagram.parse t.packet.bytes with
  | .error _ => none
  | .ok d =>
    if d.fragment ≠ 0 then none
    else
      match t.destination? d.address with
      | none => none
      | some there =>
        if t.packet.carried then some ⟨outer, there, d.payload⟩ else none

/-- What is done about a datagram. -/
def actions (outer : Endpoint) (t : Treatment) : List Action :=
  (wanted? t.packet.bytes).toList.map Action.lookup ++ (t.sending? outer).toList.map Action.send

end Treatment

/-- The datagrams of a client among some events, each with the events after it. -/
def arrivals (client : Endpoint) : List Event → List (Packet × List Event)
  | [] => []
  | .innerReceives source packet :: later =>
    if source = client then (packet, later) :: arrivals client later else arrivals client later
  | _ :: later => arrivals client later

/-- The treatments of datagrams that come with the events after them. A moment is told by the events
after it, so of two moments the one with fewer events left is the later one: a datagram is taken up
at the later one of its arrival and of `free`, when the one before it is done with. A look-up that
has no answer yet when the inner socket fails may get one in `since`; nothing is taken up then. -/
def treat (resolve : Answers) (since : List Event) :
    List Event → List (Packet × List Event) → List Treatment
  | _, [] => []
  | free, (packet, later) :: more =>
    let begun := if later.length ≤ free.length then later else free
    match wanted? packet.bytes with
    | none => ⟨packet, none⟩ :: treat resolve since begun more
    | some host =>
      match answeredIn? Event.resolved? (resolve host) begun with
      | some (answer, done) => ⟨packet, some answer⟩ :: treat resolve since done more
      | none => [⟨packet, (firstAnswer? Event.resolved? since).map Prod.fst⟩]

/-- The inner socket goes on. -/
def sound : Event → Bool
  | .innerFails _ => false
  | _ => true

/-- The treatments of an association that was asked for with the destination `there`. -/
def treatments (resolve : Answers) (there : Address) (events : List Event) : List Treatment :=
  match owner? there events with
  | none => []
  | some client =>
    let before := events.takeWhile sound
    treat resolve (events.dropWhile sound) before (arrivals client before)

/-! ### One datagram -/

variable {resolve : Answers} {a : Association} {sockets : Sockets} {source client outer : Endpoint}
  {packet : Packet} {before since later later' free events : List Event} {e : Event}

/-- What a datagram is of which this becomes. -/
inductive Fares (packet : Packet) : Fate → Prop
  | dropped : (∀ d, Datagram.parse packet.bytes = .ok d → d.fragment ≠ 0) → Fares packet .dropped
  | literal {d : Datagram} {ip : IpAddress} :
      Datagram.parse packet.bytes = .ok d → d.fragment = 0 → d.address.name = "" →
      d.address.ip? = some ip → Fares packet (.forwarded ⟨ip, d.address.port⟩ d.payload)
  | named {d : Datagram} :
      Datagram.parse packet.bytes = .ok d → d.fragment = 0 → d.address.name ≠ "" →
        Fares packet (.lookup ⟨d.address.name, d.address.port, d.payload, packet.carried⟩)

theorem fares_route (packet : Packet) : Fares packet (route packet) := by
  unfold route
  cases hparse : Datagram.parse packet.bytes with
  | error f =>
      refine .dropped fun d hd => ?_
      rw [hparse] at hd
      cases hd
  | ok d =>
      dsimp only
      split_ifs with hpart
      · refine .dropped fun d' hd' => ?_
        rw [hparse] at hd'
        cases hd'
        simpa [Datagram.isFragment] using hpart
      · have hwhole : d.fragment = 0 := by simpa [Datagram.isFragment] using hpart
        have hdefinite := (Datagram.parse_eq_ok_iff.mp hparse).1
        unfold Address.endpoint?
        by_cases hname : d.address.name = ""
        · rw [if_pos hname]
          cases hip : d.address.ip? with
          | none => exact absurd hname (hdefinite.mpr hip)
          | some ip => exact .literal hparse hwhole hname hip
        · rw [if_neg hname]
          exact .named hparse hwhole hname

/-- What is done about a parcel when there is an answer about its host. -/
def released (outer : Endpoint) (p : Parcel) : Except IoError IpAddress → List Action
  | .ok ip => send p.carried outer ⟨ip, p.port⟩ p.payload
  | .error _ => []

theorem release_eq (a : Association) (p : Parcel) (answer : Except IoError IpAddress) :
    a.release p answer = released a.sockets.outer p answer := by
  cases answer <;> rfl

/-- What is done about a datagram of which this becomes. -/
def enact (carried : Bool) (outer : Endpoint) (answer? : Option (Except IoError IpAddress)) :
    Fate → List Action
  | .dropped => []
  | .forwarded there payload => send carried outer there payload
  | .lookup p => .lookup p.host :: (answer?.map (released outer p)).getD []

theorem wanted?_eq (packet : Packet) :
    wanted? packet.bytes =
      match route packet with
      | .lookup p => some p.host
      | _ => none := by
  have hfares := fares_route packet
  generalize route packet = fate at hfares ⊢
  unfold wanted?
  cases hfares with
  | dropped hnot =>
      cases hparse : Datagram.parse packet.bytes with
      | error f => rfl
      | ok d => exact if_neg fun h => hnot d hparse h.1
  | literal hparse hwhole hname hip =>
      rw [hparse]
      exact if_neg fun h => h.2 hname
  | named hparse hwhole hname =>
      rw [hparse]
      exact if_pos ⟨hwhole, hname⟩

theorem toList_sending (carried : Bool) (outer there : Endpoint) (payload : Bytes) :
    (if carried then some (⟨outer, there, payload⟩ : Sending) else none).toList.map Action.send =
      send carried outer there payload := by
  unfold send
  split_ifs <;> rfl

theorem actions_eq (outer : Endpoint) (t : Treatment) :
    t.actions outer = enact t.packet.carried outer t.answer? (route t.packet) := by
  have hfares := fares_route t.packet
  unfold Treatment.actions Treatment.sending?
  rw [wanted?_eq]
  generalize route t.packet = fate at hfares ⊢
  cases hfares with
  | dropped hnot =>
      cases hparse : Datagram.parse t.packet.bytes with
      | error f => rfl
      | ok d => simp [enact, hnot d hparse]
  | @literal d ip hparse hwhole hname hip =>
      have hthere : t.destination? d.address = some ⟨ip, d.address.port⟩ := by
        rw [Treatment.destination?, if_pos hname, hip]
        rfl
      rw [hparse]
      simp only [hwhole, hthere, ne_eq, not_true_eq_false, if_false, toList_sending]
      rfl
  | @named d hparse hwhole hname =>
      rw [hparse]
      simp only [hwhole, Treatment.destination?, if_neg hname, ne_eq, not_true_eq_false, if_false]
      cases t.answer? with
      | none => rfl
      | some answer =>
          cases answer with
          | error e => rfl
          | ok ip =>
              simp only [toList_sending]
              rfl

/-! ### One datagram after the other -/

theorem treat_of_le {more : List (Packet × List Event)} (h : later.length ≤ free.length) :
    treat resolve since free ((packet, later) :: more) =
      treat resolve since later ((packet, later) :: more) := by
  simp only [treat, if_pos h, if_pos (Nat.le_refl _)]

theorem treat_of_lt {more : List (Packet × List Event)} (h : free.length < later.length) :
    treat resolve since free ((packet, later) :: more) =
      treat resolve since free ((packet, free) :: more) := by
  simp only [treat, if_neg (Nat.not_le.mpr h), if_pos (Nat.le_refl _)]

/-- Two moments are the same for datagrams that arrive after both. -/
theorem treat_of_later {begun : List Event} {as : List (Packet × List Event)}
    (hbegun : begun.length ≤ free.length) (has : ∀ x ∈ as, x.2.length ≤ begun.length) :
    treat resolve since begun as = treat resolve since free as := by
  cases as with
  | nil => rfl
  | cons x as =>
      obtain ⟨packet, later⟩ := x
      have hlater : later.length ≤ begun.length := has _ List.mem_cons_self
      rw [treat_of_le hlater]
      exact (treat_of_le (Nat.le_trans hlater hbegun)).symm

theorem suffix_of_mem_arrivals {x : Packet × List Event} (h : x ∈ arrivals client events) :
    .innerReceives client x.1 :: x.2 <:+ events := by
  induction events with
  | nil => cases h
  | cons e events ih =>
      have hmore : x ∈ arrivals client events → .innerReceives client x.1 :: x.2 <:+ e :: events :=
        fun hx => (ih hx).trans (List.suffix_cons _ _)
      cases e with
      | innerReceives source packet =>
          rw [arrivals] at h
          split_ifs at h with hsource
          · rcases List.mem_cons.mp h with rfl | hx
            · subst hsource
              exact List.suffix_refl _
            · exact hmore hx
          · exact hmore h
      | _ => exact hmore h

theorem length_of_mem_arrivals {x : Packet × List Event} (h : x ∈ arrivals client events) :
    x.2.length < events.length := (suffix_of_mem_arrivals h).length_le

theorem treat_arrivals (h : events.length ≤ free.length) :
    treat resolve since free (arrivals client events) =
      treat resolve since events (arrivals client events) :=
  (treat_of_later h fun _ hx => Nat.le_of_lt (length_of_mem_arrivals hx)).symm

/-- The client's datagrams among those that wait. -/
def queued (client : Endpoint) (later : List Event) (waiting : List (Endpoint × Packet)) :
    List (Packet × List Event) :=
  waiting.filterMap fun d => if d.1 = client then some (d.2, later) else none

theorem queued_cons_client (client : Endpoint) (later : List Event) (packet : Packet)
    (waiting : List (Endpoint × Packet)) :
    queued client later ((client, packet) :: waiting) =
      (packet, later) :: queued client later waiting := by
  simp [queued]

theorem queued_cons_other (h : source ≠ client) (later : List Event) (packet : Packet)
    (waiting : List (Endpoint × Packet)) :
    queued client later ((source, packet) :: waiting) = queued client later waiting := by
  simp [queued, h]

/-- When a datagram arrived does not matter that has to wait anyway. -/
theorem treat_queued (waiting : List (Endpoint × Packet)) (more : List (Packet × List Event))
    (h : free.length < later.length) (h' : free.length < later'.length) :
    treat resolve since free (queued client later waiting ++ more) =
      treat resolve since free (queued client later' waiting ++ more) := by
  induction waiting generalizing free with
  | nil => rfl
  | cons x waiting ih =>
      obtain ⟨source, packet⟩ := x
      by_cases hsource : source = client
      · subst hsource
        rw [queued_cons_client, queued_cons_client, List.cons_append, List.cons_append]
        simp only [treat, if_neg (Nat.not_le.mpr h), if_neg (Nat.not_le.mpr h')]
        cases wanted? packet.bytes with
        | none => rw [ih h h']
        | some host =>
            dsimp only
            cases hanswer : answeredIn? Event.resolved? (resolve host) free with
            | none => rfl
            | some answered =>
                have hdone := length_of_answeredIn? hanswer
                dsimp only
                rw [ih (Nat.lt_of_le_of_lt hdone h) (Nat.lt_of_le_of_lt hdone h')]
      · rw [queued_cons_other hsource, queued_cons_other hsource]
        exact ih h h'

/-! ### What an association has still to do -/

/-- An association that serves a client and listens to it. Nothing waits in it but for a look-up. -/
structure Serves (outer client : Endpoint) (a : Association) : Prop where
  sends : a.sockets.outer = outer
  knows : a.client? = some client
  welcomes : a.expects client = true
  listens : a.innerError? = none
  idle : a.parcel? = none → a.waiting = []

/-- What an association that serves a client has still to do for the far side, when `before` happens
before its inner socket fails and `since` from then on. -/
def due (resolve : Answers) (outer client : Endpoint) (before since : List Event)
    (a : Association) : List Action :=
  match a.parcel? with
  | none =>
    (treat resolve since before (arrivals client before)).flatMap
      (Treatment.actions outer)
  | some p =>
    match firstAnswer? Event.resolved? before with
    | some (answer, done) =>
      released outer p answer ++
        (treat resolve since done
          (queued client before a.waiting ++ arrivals client before)).flatMap
            (Treatment.actions outer)
    | none =>
      match firstAnswer? Event.resolved? since with
      | some (answer, _) => released outer p answer
      | none => []

theorem due_of_idle (h : a.parcel? = none) :
    a.due resolve outer client before since =
      (treat resolve since before (arrivals client before)).flatMap
        (Treatment.actions outer) := by
  rw [due, h]

theorem due_of_answered {p : Parcel} {answer : Except IoError IpAddress} {done : List Event}
    (h : a.parcel? = some p)
    (ha : firstAnswer? Event.resolved? before = some (answer, done)) :
    a.due resolve outer client before since =
      released outer p answer ++
        (treat resolve since done
          (queued client before a.waiting ++ arrivals client before)).flatMap
            (Treatment.actions outer) := by
  rw [due, h]
  dsimp only
  rw [ha]

theorem due_of_unanswered {p : Parcel} (h : a.parcel? = some p)
    (ha : firstAnswer? Event.resolved? before = none) :
    a.due resolve outer client before since =
      ((firstAnswer? Event.resolved? since).map fun answered =>
        released outer p answered.1).getD [] := by
  rw [due, h]
  dsimp only
  rw [ha]
  cases firstAnswer? Event.resolved? since <;> rfl

/-- The answer that a datagram does not have to wait for: none if it wants none, or one that is
there at once. -/
inductive Prompt (resolve : Answers) (packet : Packet) :
    Option (Except IoError IpAddress) → Prop
  | unasked : wanted? packet.bytes = none → Prompt resolve packet none
  | answered {host : String} {answer : Except IoError IpAddress} :
      wanted? packet.bytes = some host → resolve host = some answer →
        Prompt resolve packet (some answer)

theorem Prompt.treat {answer? : Option (Except IoError IpAddress)}
    (h : Prompt resolve packet answer?) (hlater : free.length < later.length)
    (more : List (Packet × List Event)) :
    treat resolve since free ((packet, later) :: more) =
      ⟨packet, answer?⟩ :: treat resolve since free more := by
  cases h with
  | unasked hwanted => simp only [Association.treat, if_neg (Nat.not_le.mpr hlater), hwanted]
  | answered hwanted hresolve =>
      simp only [Association.treat, if_neg (Nat.not_le.mpr hlater), hwanted, answeredIn?, hresolve]

theorem due_of_lookup {p : Parcel} (hroute : route packet = .lookup p)
    (hresolve : resolve p.host = none) (waiting : List (Endpoint × Packet))
    (hlater : before.length < later.length) :
    .lookup p.host :: ({ a with parcel? := some p, waiting := waiting } : Association).due resolve
        outer client before since =
      (treat resolve since before
        ((packet, later) :: (queued client later waiting ++ arrivals client before))).flatMap
          (Treatment.actions outer) := by
  have hwanted : wanted? packet.bytes = some p.host := by rw [wanted?_eq, hroute]
  have henact : ∀ answer?, (Treatment.mk packet answer?).actions outer =
      .lookup p.host :: (answer?.map (released outer p)).getD [] := by
    intro answer?
    rw [actions_eq, hroute]
    rfl
  simp only [treat, if_neg (Nat.not_le.mpr hlater), hwanted, answeredIn?, hresolve]
  cases hanswer : firstAnswer? Event.resolved? before with
  | none =>
      rw [due_of_unanswered rfl hanswer]
      dsimp only
      rw [List.flatMap_singleton, henact, Option.map_map]
      rfl
  | some answered =>
      obtain ⟨answer, done⟩ := answered
      have hdone := length_of_firstAnswer? hanswer
      rw [due_of_answered rfl hanswer]
      dsimp only
      rw [List.flatMap_cons, henact,
        treat_queued waiting _ hdone (Nat.lt_trans hdone hlater)]
      rfl

section serving

variable (h : Serves outer client a)

include h

theorem Serves.handle_other (hne : source ≠ client) (packet : Packet) :
    a.handle resolve source packet = (a, []) := by
  have hfate : a.fate source packet = .dropped := by
    rw [fate, learn_of_client h.knows, if_neg]
    simp [owns, h.knows, Ne.symm hne]
  simp [handle, hfate, learn_of_client h.knows]

/-- What an association does about a datagram of its client: a look-up that has no answer yet leaves
a parcel behind, and anything else leaves nothing. -/
theorem Serves.handle_client (resolve : Answers) (packet : Packet) :
    (∃ p, route packet = .lookup p ∧ resolve p.host = none ∧
      a.handle resolve client packet = ({ a with parcel? := some p }, [.lookup p.host])) ∨
    ∃ answer?, Prompt resolve packet answer? ∧
      a.handle resolve client packet = (a, (Treatment.mk packet answer?).actions outer) := by
  have hfate : a.fate client packet = route packet := by
    rw [fate, learn_of_client h.knows, if_pos]
    simp [owns, h.knows, h.welcomes]
  have hwanted := wanted?_eq packet
  simp only [actions_eq]
  unfold handle
  rw [hfate, learn_of_client h.knows]
  cases hroute : route packet with
  | dropped =>
      rw [hroute] at hwanted
      exact .inr ⟨none, .unasked hwanted, rfl⟩
  | forwarded there payload =>
      rw [hroute] at hwanted
      refine .inr ⟨none, .unasked hwanted, ?_⟩
      rw [← h.sends]
      rfl
  | lookup p =>
      rw [hroute] at hwanted
      cases hresolve : resolve p.host with
      | none => exact .inl ⟨p, rfl, hresolve, by simp [hresolve]⟩
      | some answer =>
          refine .inr ⟨some answer, .answered hwanted hresolve, ?_⟩
          simp [enact, release_eq, h.sends, hresolve]

theorem Serves.keeps (parcel? : Option Parcel) (waiting : List (Endpoint × Packet))
    (hidle : parcel? = none → waiting = []) :
    Serves outer client { a with parcel? := parcel?, waiting := waiting } :=
  ⟨h.sends, h.knows, h.welcomes, h.listens, hidle⟩

theorem Serves.handleAll (hparcel : a.parcel? = none) (waiting : List (Endpoint × Packet))
    (hlater : before.length < later.length) :
    Serves outer client (a.handleAll resolve waiting).1 ∧
      (a.handleAll resolve waiting).2 ++
          (a.handleAll resolve waiting).1.due resolve outer client before since =
        (treat resolve since before
          (queued client later waiting ++ arrivals client before)).flatMap
            (Treatment.actions outer) := by
  induction waiting with
  | nil => exact ⟨h, due_of_idle hparcel⟩
  | cons x waiting ih =>
      obtain ⟨source, packet⟩ := x
      have hall : a.handleAll resolve ((source, packet) :: waiting) =
          (((a.handle resolve source packet).1.handleAll resolve waiting).1,
            (a.handle resolve source packet).2 ++
              ((a.handle resolve source packet).1.handleAll resolve waiting).2) := by
        simp [Association.handleAll, hparcel]
      rw [hall]
      by_cases hsource : source = client
      · subst hsource
        rw [queued_cons_client, List.cons_append]
        rcases h.handle_client resolve packet with
          ⟨p, hroute, hresolve, hhandle⟩ | ⟨answer?, hprompt, hhandle⟩
        · rw [hhandle,
            @handleAll_of_parcel resolve { a with parcel? := some p } p rfl (h.idle hparcel)]
          refine ⟨h.keeps _ _ fun hnone => (by cases hnone), ?_⟩
          exact due_of_lookup hroute hresolve waiting hlater
        · rw [hhandle, hprompt.treat hlater, List.flatMap_cons, List.append_assoc, ih.2]
          exact ⟨ih.1, rfl⟩
      · rw [h.handle_other hsource, queued_cons_other hsource]
        exact ih

end serving

/-! ### What an association does -/

/-- Once its inner socket has failed an association does nothing for the far side but to bring the
look-up under way to its end. -/
theorem forthAll_of_failed (events : List Event) (hfailed : a.innerError?.isSome = true)
    (hidle : a.waiting = []) :
    a.forthAll resolve events =
      (a.parcel?.bind fun p => (firstAnswer? Event.resolved? events).map fun answered =>
        released a.sockets.outer p answered.1).getD [] := by
  induction events generalizing a with
  | nil => cases a.parcel? <;> rfl
  | cons e events ih =>
      rw [forthAll_cons]
      cases e with
      | resolved ip =>
          show (a.answer resolve ip).2 ++ (a.answer resolve ip).1.forthAll resolve events = _
          cases hparcel : a.parcel? with
          | none =>
              have hanswer : a.answer resolve ip = (a, []) := by simp [answer, hparcel]
              rw [hanswer, ih hfailed hidle, hparcel]
              rfl
          | some p =>
              have hlast := @ih { a with parcel? := none, waiting := [] } hfailed rfl
              have hnone : { a with parcel? := none, waiting := [] }.handleAll resolve a.waiting =
                  ({ a with parcel? := none, waiting := [] }, []) := by
                rw [hidle]
                rfl
              rw [answer_of_busy hparcel, hnone, hlast, release_eq]
              simp [firstAnswer?, Event.resolved?]
      | innerReceives source packet =>
          obtain ⟨error, herror⟩ := Option.isSome_iff_exists.mp hfailed
          show (a.receive resolve source packet).2 ++
            (a.receive resolve source packet).1.forthAll resolve events = _
          rw [receive_of_failed herror]
          exact ih hfailed hidle
      | innerFails error =>
          have hstill : (a.failInner error).innerError?.isSome = true := by
            rw [failInner, orElse_some]
            simp
          exact ih hstill rfl
      | _ => exact ih hfailed hidle

/-- An event that brings neither an answer nor a datagram of the client makes no difference to what
an association has still to do. -/
theorem due_cons (hanswer : e.resolved? = none ∨ a.parcel? = none)
    (harrivals : arrivals client (e :: before) = arrivals client before) :
    a.due resolve outer client (e :: before) since = a.due resolve outer client before since := by
  have hlength : before.length ≤ (e :: before).length := Nat.le_succ _
  cases hparcel : a.parcel? with
  | none => rw [due_of_idle hparcel, due_of_idle hparcel, harrivals, treat_arrivals hlength]
  | some p =>
      have hquiet : e.resolved? = none := by
        rcases hanswer with hquiet | hnone
        · exact hquiet
        · rw [hparcel] at hnone
          cases hnone
      have hfirst : firstAnswer? Event.resolved? (e :: before) =
          firstAnswer? Event.resolved? before := firstAnswer?_cons_none hquiet
      cases hlater : firstAnswer? Event.resolved? before with
      | none =>
          rw [due_of_unanswered hparcel hlater, due_of_unanswered hparcel (hfirst.trans hlater)]
      | some answered =>
          obtain ⟨answer, done⟩ := answered
          have hdone := length_of_firstAnswer? hlater
          rw [due_of_answered hparcel hlater, due_of_answered hparcel (hfirst.trans hlater),
            harrivals, treat_queued a.waiting _ (Nat.lt_succ_of_lt hdone) hdone]

theorem due_wait {p : Parcel} (hparcel : a.parcel? = some p) (source : Endpoint)
    (packet : Packet) :
    ({ a with waiting := a.waiting ++ [(source, packet)] } : Association).due resolve outer client
        before since =
      a.due resolve outer client (.innerReceives source packet :: before) since := by
  have hfirst : firstAnswer? Event.resolved? (.innerReceives source packet :: before) =
      firstAnswer? Event.resolved? before := rfl
  cases hanswer : firstAnswer? Event.resolved? before with
  | none =>
      rw [due_of_unanswered hparcel (hfirst.trans hanswer)]
      exact due_of_unanswered hparcel hanswer
  | some answered =>
      obtain ⟨answer, done⟩ := answered
      have hdone := length_of_firstAnswer? hanswer
      rw [due_of_answered hparcel (hfirst.trans hanswer),
        due_of_answered (a := { a with waiting := a.waiting ++ [(source, packet)] }) hparcel
          hanswer,
        treat_queued a.waiting _ (Nat.lt_succ_of_lt hdone) hdone]
      have hwaits : queued client before (a.waiting ++ [(source, packet)]) ++
          arrivals client before =
            queued client before a.waiting ++
              arrivals client (.innerReceives source packet :: before) := by
        rw [queued, List.filterMap_append, List.append_assoc]
        by_cases hsource : source = client
        · simp [queued, arrivals, hsource]
        · simp [queued, arrivals, hsource]
      rw [← hwaits]

section serving

variable (h : Serves outer client a)

include h

theorem Serves.receive_idle (hparcel : a.parcel? = none) (source : Endpoint) (packet : Packet) :
    Serves outer client (a.receive resolve source packet).1 ∧
      (a.receive resolve source packet).2 ++
          (a.receive resolve source packet).1.due resolve outer client before since =
        a.due resolve outer client (.innerReceives source packet :: before) since := by
  have hlater : before.length < (Event.innerReceives source packet :: before).length :=
    Nat.lt_succ_self _
  have hall : a.handleAll resolve [(source, packet)] = a.receive resolve source packet := by
    rw [receive_of_idle h.listens hparcel (h.idle hparcel)]
    simp [Association.handleAll, hparcel]
  have htaken := @Serves.handleAll resolve a client outer before since _ h hparcel
    [(source, packet)] hlater
  rw [hall] at htaken
  refine ⟨htaken.1, htaken.2.trans ?_⟩
  by_cases hsource : source = client
  · subst hsource
    rw [due_of_idle hparcel, queued_cons_client, List.cons_append, treat_of_lt hlater, arrivals,
      if_pos rfl, treat_of_le (Nat.le_of_lt hlater)]
    rfl
  · have harrivals : arrivals client (.innerReceives source packet :: before) =
        arrivals client before := if_neg hsource
    rw [queued_cons_other hsource, due_cons (.inr hparcel) harrivals, due_of_idle hparcel]
    rfl

theorem Serves.answer_busy {p : Parcel} (hparcel : a.parcel? = some p)
    (ip : Except IoError IpAddress) :
    Serves outer client (a.answer resolve ip).1 ∧
      (a.answer resolve ip).2 ++ (a.answer resolve ip).1.due resolve outer client before since =
        a.due resolve outer client (.resolved ip :: before) since := by
  have hfree := h.keeps none [] fun _ => rfl
  have htaken := @Serves.handleAll resolve _ client outer before since (.resolved ip :: before)
    hfree rfl a.waiting (Nat.lt_succ_self _)
  rw [answer_of_busy hparcel]
  refine ⟨htaken.1, ?_⟩
  rw [due_of_answered hparcel (firstAnswer?_cons_some rfl), List.append_assoc, htaken.2, release_eq,
    h.sends]
  rfl

theorem Serves.receive (source : Endpoint) (packet : Packet) :
    Serves outer client (a.receive resolve source packet).1 ∧
      (a.receive resolve source packet).2 ++
          (a.receive resolve source packet).1.due resolve outer client before since =
        a.due resolve outer client (.innerReceives source packet :: before) since := by
  cases hparcel : a.parcel? with
  | none => exact h.receive_idle hparcel source packet
  | some p =>
      rw [receive_of_busy h.listens hparcel]
      refine ⟨h.keeps a.parcel? (a.waiting ++ [(source, packet)]) (by simp [hparcel]), ?_⟩
      exact due_wait hparcel source packet

theorem Serves.answer (ip : Except IoError IpAddress) :
    Serves outer client (a.answer resolve ip).1 ∧
      (a.answer resolve ip).2 ++ (a.answer resolve ip).1.due resolve outer client before since =
        a.due resolve outer client (.resolved ip :: before) since := by
  cases hparcel : a.parcel? with
  | none =>
      have hanswer : a.answer resolve ip = (a, []) := by simp [Association.answer, hparcel]
      rw [hanswer]
      exact ⟨h, (due_cons (.inr hparcel) rfl).symm⟩
  | some p => exact h.answer_busy hparcel ip

/-- Every event but a failure of the inner socket leaves an association that serves its client, with
the same to do. -/
theorem Serves.after (hsound : sound e = true) :
    Serves outer client (a.after resolve e).1 ∧
      a.forth resolve e ++ (a.after resolve e).1.due resolve outer client before since =
        a.due resolve outer client (e :: before) since := by
  cases e with
  | innerFails error => cases hsound
  | innerReceives source packet => exact h.receive source packet
  | resolved ip => exact h.answer ip
  | outerFails error =>
      have hnext : Serves outer client (a.failOuter error) :=
        ⟨h.sends, h.knows, h.welcomes, h.listens, h.idle⟩
      refine ⟨hnext, ?_⟩
      rw [due_cons (.inl rfl) rfl]
      rfl
  | _ =>
      refine ⟨h, ?_⟩
      rw [due_cons (.inl rfl) rfl]
      rfl

/-- From the failure of its inner socket on an association has only to await an answer. -/
theorem Serves.forthAll_since
    (hsince : since = [] ∨ ∃ error later, since = .innerFails error :: later) :
    a.forthAll resolve since = a.due resolve outer client [] since := by
  have hnow : a.due resolve outer client [] since =
      (a.parcel?.bind fun p => (firstAnswer? Event.resolved? since).map fun answered =>
        released outer p answered.1).getD [] := by
    cases hparcel : a.parcel? with
    | none =>
        rw [due_of_idle hparcel]
        rfl
    | some p => exact due_of_unanswered hparcel rfl
  rw [hnow]
  rcases hsince with rfl | ⟨error, later, rfl⟩
  · cases a.parcel? <;> rfl
  · have hfailed : (a.failInner error).innerError?.isSome = true := by
      rw [failInner, orElse_some]
      simp
    have hlast := @forthAll_of_failed resolve (a.failInner error) later hfailed rfl
    rw [← h.sends]
    exact hlast

/-- What an association does for the far side is what it has still to do. -/
theorem Serves.forthAll (hsound : ∀ e ∈ before, sound e = true)
    (hsince : since = [] ∨ ∃ error later, since = .innerFails error :: later) :
    a.forthAll resolve (before ++ since) = a.due resolve outer client before since := by
  induction before generalizing a with
  | nil => exact h.forthAll_since hsince
  | cons e before ih =>
      obtain ⟨hnext, hdue⟩ := @Serves.after resolve a client outer before since e h
        (hsound e List.mem_cons_self)
      rw [List.cons_append, forthAll_cons,
        ih hnext fun e he => hsound e (List.mem_cons_of_mem _ he), hdue]

end serving

/-! ### From the beginning -/

variable {there : Address}

theorem treatments_cons (hsound : sound e = true)
    (howner : owner? there (e :: events) = owner? there events)
    (harrivals : ∀ client, owner? there events = some client → ∀ before,
      arrivals client (e :: before) = arrivals client before) :
    treatments resolve there (e :: events) = treatments resolve there events := by
  unfold treatments
  rw [howner]
  cases hclient : owner? there events with
  | none => rfl
  | some client =>
      dsimp only
      rw [List.takeWhile_cons_of_pos hsound, List.dropWhile_cons_of_pos hsound,
        harrivals client hclient, treat_arrivals (Nat.le_succ _)]

theorem dropWhile_sound (events : List Event) :
    events.dropWhile sound = [] ∨
      ∃ error later, events.dropWhile sound = .innerFails error :: later := by
  cases hsince : events.dropWhile sound with
  | nil => exact .inl rfl
  | cons e later =>
      have hne : events.dropWhile sound ≠ [] := by simp [hsince]
      have hfails := List.head_dropWhile_not sound hne
      simp only [hsince, List.head_cons] at hfails
      cases e with
      | innerFails error => exact .inr ⟨error, later, rfl⟩
      | _ => cases hfails

theorem Serves.forthAll_idle (h : Serves outer client a) (hparcel : a.parcel? = none)
    (events : List Event) :
    a.forthAll resolve events =
      (treat resolve (events.dropWhile sound) (events.takeWhile sound)
        (arrivals client (events.takeWhile sound))).flatMap (Treatment.actions outer) := by
  have hsound : ∀ e ∈ events.takeWhile sound, sound e = true := fun e he =>
    List.mem_takeWhile_imp he
  have hall := @Serves.forthAll resolve a client outer _ _ h hsound (dropWhile_sound events)
  rw [List.takeWhile_append_dropWhile, due_of_idle hparcel] at hall
  exact hall

/-- A datagram that makes its source the client is treated as the client's. -/
theorem receive_of_unowned (hclient : a.client? = none) (hwelcome : a.expects source = true)
    (hlistens : a.innerError? = none) (hparcel : a.parcel? = none) (hidle : a.waiting = [])
    (packet : Packet) :
    a.receive resolve source packet =
      ({ a with client? := some source } : Association).receive resolve source packet := by
  have hlearn : a.learn source = { a with client? := some source } := if_pos ⟨hwelcome, hclient⟩
  have hknown : ({ a with client? := some source } : Association).learn source =
      { a with client? := some source } := learn_of_client rfl source
  rw [receive_of_idle hlistens hparcel hidle,
    receive_of_idle (a := { a with client? := some source }) hlistens hparcel hidle, handle, handle,
    fate, fate, hlearn, hknown]
  rfl

theorem receive_of_stranger (hclient : a.client? = none) (hstranger : ¬a.expects source = true)
    (hlistens : a.innerError? = none) (hparcel : a.parcel? = none) (hidle : a.waiting = [])
    (packet : Packet) : a.receive resolve source packet = (a, []) := by
  have hlearn : a.learn source = a := if_neg fun h => hstranger h.1
  have howns : ¬a.owns source = true := by simp [owns, hclient]
  rw [receive_of_idle hlistens hparcel hidle, handle, fate, hlearn, if_neg howns]

theorem treatments_of_stranger (hknown : ¬there.otherHost? source = none) (packet : Packet) :
    treatments resolve there (.innerReceives source packet :: events) =
      treatments resolve there events := by
  refine treatments_cons rfl (if_neg hknown) fun client hclient before => if_neg ?_
  rintro rfl
  exact hknown (owner?_received hclient).2

/-- What an association does for the far side that belongs to nobody yet, and has met nothing but
perhaps an error of its outer socket. -/
theorem forthAll_unowned (hexpected : sockets.expected? = there.literalHost?)
    (outerError? : Option IoError) (events : List Event) :
    ({ start sockets with outerError? := outerError? } : Association).forthAll resolve events =
      (treatments resolve there events).flatMap (Treatment.actions sockets.outer) := by
  induction events generalizing outerError? with
  | nil => rfl
  | cons e events ih =>
      cases e with
      | innerReceives source packet =>
          let a : Association := { start sockets with outerError? := outerError? }
          have hexpects : a.expects source = true ↔ there.otherHost? source = none :=
            expects_iff hexpected source
          show (a.receive resolve source packet).2 ++
            (a.receive resolve source packet).1.forthAll resolve events = _
          by_cases hknown : there.otherHost? source = none
          · have howner : owner? there (.innerReceives source packet :: events) = some source :=
              if_pos hknown
            have hserves : Serves sockets.outer source { a with client? := some source } :=
              ⟨rfl, rfl, hexpects.mpr hknown, rfl, fun _ => rfl⟩
            rw [receive_of_unowned rfl (hexpects.mpr hknown) rfl rfl rfl, treatments, howner]
            exact hserves.forthAll_idle rfl (.innerReceives source packet :: events)
          · rw [receive_of_stranger rfl (hexpects.not.mpr hknown) rfl rfl rfl,
              treatments_of_stranger hknown]
            exact ih outerError?
      | innerFails error =>
          have hlast := @forthAll_of_failed resolve
            (({ start sockets with outerError? := outerError? } : Association).failInner error)
            events rfl rfl
          exact hlast
      | outerFails error =>
          rw [treatments_cons rfl rfl fun _ _ _ => rfl]
          exact ih _
      | _ =>
          rw [treatments_cons rfl rfl fun _ _ _ => rfl]
          exact ih _

theorem sendings_actions (ts : List Treatment) :
    sendings (ts.flatMap (Treatment.actions outer)) =
      ts.filterMap (Treatment.sending? outer) := by
  induction ts with
  | nil => rfl
  | cons t ts ih =>
      rw [List.flatMap_cons, sendings_append, ih, Treatment.actions, sendings_append]
      have hnone : sendings ((wanted? t.packet.bytes).toList.map Action.lookup) = [] := by
        cases wanted? t.packet.bytes <;> rfl
      rw [hnone, List.nil_append]
      cases hsending : t.sending? outer with
      | none => rw [List.filterMap_cons_none hsending]; rfl
      | some d => rw [List.filterMap_cons_some hsending]; rfl

theorem lookups_actions (ts : List Treatment) :
    lookups (ts.flatMap (Treatment.actions outer)) =
      ts.filterMap fun t => wanted? t.packet.bytes := by
  induction ts with
  | nil => rfl
  | cons t ts ih =>
      rw [List.flatMap_cons, lookups_append, ih, Treatment.actions, lookups_append]
      have hnone : lookups ((t.sending? outer).toList.map Action.send) = [] := by
        cases t.sending? outer <;> rfl
      rw [hnone, List.append_nil, List.filterMap_cons]
      cases wanted? t.packet.bytes <;> rfl

/-- What an association sends to the far side, and what it looks up, is told by the treatments. -/
theorem forth_start (hexpected : sockets.expected? = there.literalHost?) (resolve : Answers)
    (events : List Event) :
    sendings ((start sockets).forthAll resolve events) =
        (treatments resolve there events).filterMap (Treatment.sending? sockets.outer) ∧
      lookups ((start sockets).forthAll resolve events) =
        (treatments resolve there events).filterMap fun t => wanted? t.packet.bytes := by
  have hall := @forthAll_unowned resolve sockets there hexpected none events
  rw [← sendings_actions, ← lookups_actions, ← hall]
  exact ⟨rfl, rfl⟩

end Association

end Socks
