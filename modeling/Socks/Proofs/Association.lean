import Socks.Proofs.Plan

/-!
# Associations in the course of events

What an association does about one event and about any number of them, without the session around
it. Whom it belongs to can be told from the datagrams that have reached it: `Association.owner?` is
the first source that is no stranger.

Main statement: an association follows what has happened and sends nothing that is not its owner's
(`Association.Follows.after` for one event, `Association.Follows.afterAll` for any number).
-/

namespace Socks

namespace Association

variable {resolve : Answers} {a : Association} {sockets : Sockets} {source client : Endpoint}
  {packet : Packet} {events : List Event} {e : Event} {d : Sending}

/-- What an association does about an event; most are none of its business. -/
def after (resolve : Answers) (a : Association) : Event → Association × List Action
  | .resolved ip => a.answer resolve ip
  | .innerReceives source packet => a.receive resolve source packet
  | .outerReceives source packet => (a, a.deliver source packet)
  | .innerFails e => (a.failInner e, [])
  | .outerFails e => (a.failOuter e, [])
  | _ => (a, [])

/-- What an association does about any number of events. -/
def afterAll (resolve : Answers) (a : Association) : List Event → Association × List Action
  | [] => (a, [])
  | e :: events =>
    let (next, actions) := a.after resolve e
    let (last, more) := next.afterAll resolve events
    (last, actions ++ more)

theorem afterAll_cons (resolve : Answers) (a : Association) (e : Event) (events : List Event) :
    a.afterAll resolve (e :: events) =
      (((a.after resolve e).1.afterAll resolve events).1,
        (a.after resolve e).2 ++ ((a.after resolve e).1.afterAll resolve events).2) := rfl

/-- The datagrams that are sent among some actions. -/
def sendings (actions : List Action) : List Sending :=
  actions.filterMap fun
    | .send d => some d
    | .lookup _ => none

/-- The names that are looked up among some actions. -/
def lookups (actions : List Action) : List String :=
  actions.filterMap fun
    | .send _ => none
    | .lookup host => some host

section actions

variable (x y : List Action)

@[simp] theorem sendings_append : sendings (x ++ y) = sendings x ++ sendings y :=
  List.filterMap_append

@[simp] theorem lookups_append : lookups (x ++ y) = lookups x ++ lookups y :=
  List.filterMap_append

@[simp] theorem sendings_nil : sendings [] = [] := rfl

@[simp] theorem lookups_nil : lookups [] = [] := rfl

@[simp] theorem sendings_lookup (host : String) : sendings (.lookup host :: x) = sendings x := rfl

end actions

/-! ### What may be sent -/

/-- A sending that passes on what a datagram holds, to where the datagram says. -/
structure Passes (sockets : Sockets) (bytes : Bytes) (d : Sending) : Prop where
  via : d.via = sockets.outer
  holds : ∃ q, Datagram.parse bytes = .ok q ∧ q.isFragment = false ∧ d.payload = q.payload ∧
    (q.address.endpoint? = some d.destination ∨
      q.address.endpoint? = none ∧ d.destination.port = q.address.port)

/-- What an association of `client` may send when these events have happened: what a datagram of
the client holds, from the outer socket, and to the client, from the inner socket, what has reached
the outer one. -/
inductive Permits (sockets : Sockets) (client : Endpoint) (events : List Event) (d : Sending) : Prop
  | forward {packet : Packet} :
      .innerReceives client packet ∈ events → Passes sockets packet.bytes d →
        Permits sockets client events d
  | deliver {source : Endpoint} {packet : Packet} :
      .outerReceives source packet ∈ events → d.via = sockets.inner → d.destination = client →
      Datagram.encode (.whole (.ofEndpoint source) packet.bytes) = .ok d.payload →
        Permits sockets client events d

theorem Permits.mono {more : List Event} (h : Permits sockets client events d)
    (hsub : events ⊆ more) : Permits sockets client more d := by
  cases h with
  | forward hmem hp => exact .forward (hsub hmem) hp
  | deliver hmem hvia hdestination hencode => exact .deliver (hsub hmem) hvia hdestination hencode

theorem eq_of_mem_sendings_send {carried : Bool} {via destination : Endpoint} {payload : Bytes}
    (h : d ∈ sendings (send carried via destination payload)) :
    d = ⟨via, destination, payload⟩ := by
  unfold send at h
  split_ifs at h
  · simpa [sendings] using h
  · cases h

/-! ### What becomes of one datagram -/

/-- What a datagram holds, where it goes on at once. -/
theorem passes_of_forwarded {destination : Endpoint} {payload : Bytes}
    (h : route packet = .forwarded destination payload) :
    Passes sockets packet.bytes ⟨sockets.outer, destination, payload⟩ := by
  unfold route at h
  split at h
  · cases h
  · rename_i q hq
    split_ifs at h with hfragment
    split at h
    · rename_i there hthere
      cases h
      exact ⟨rfl, q, hq, by simpa using hfragment, rfl, .inl hthere⟩
    · cases h

/-- What a datagram holds, where its destination is looked up. -/
theorem passes_of_release {p : Parcel} {ip : Except IoError IpAddress}
    (h : route packet = .lookup p) (hd : d ∈ sendings (a.release p ip)) :
    Passes a.sockets packet.bytes d := by
  unfold route at h
  split at h
  · cases h
  · rename_i q hq
    split_ifs at h with hfragment
    split at h
    · cases h
    · rename_i hnowhere
      cases h
      cases ip with
      | error e => cases hd
      | ok ip =>
          obtain rfl := eq_of_mem_sendings_send hd
          exact ⟨rfl, q, hq, by simpa using hfragment, rfl, .inr ⟨hnowhere, rfl⟩⟩

/-- A source that an association has learned is its client. -/
theorem client?_of_owns (h : a.owns source = true) : a.client? = some source := by
  unfold owns at h
  rw [Bool.and_eq_true] at h
  simpa using h.2

/-- To learn a source changes nothing but the client. -/
theorem learn_eq (a : Association) (source : Endpoint) :
    a.learn source = { a with client? := (a.learn source).client? } := by
  unfold learn
  split_ifs <;> rfl

/-- What becomes of a datagram: it makes its source the client if there is none, it may leave a
parcel behind, and what is sent is what it holds, if its source is the client. -/
theorem handle_cases (resolve : Answers) (a : Association) (source : Endpoint) (packet : Packet) :
    ∃ parcel?, (a.handle resolve source packet).1 = { a.learn source with parcel? := parcel? } ∧
      (parcel? = a.parcel? ∨
        (a.learn source).client? = some source ∧ ∃ p, parcel? = some p ∧ route packet = .lookup p) ∧
      ∀ d ∈ sendings (a.handle resolve source packet).2,
        (a.learn source).client? = some source ∧ Passes a.sockets packet.bytes d := by
  have hparcel : a.learn source = { a.learn source with parcel? := a.parcel? } := by
    rw [learn_eq]
  have howner : a.fate source packet ≠ .dropped →
      (a.learn source).client? = some source ∧ a.fate source packet = route packet := by
    unfold fate
    split_ifs with howns
    · exact fun _ => ⟨client?_of_owns howns, rfl⟩
    · exact fun hne => absurd rfl hne
  unfold handle
  cases hfate : a.fate source packet with
  | dropped => exact ⟨a.parcel?, hparcel, .inl rfl, by simp⟩
  | forwarded destination payload =>
      obtain ⟨hclient, hroute⟩ := howner (by simp [hfate])
      refine ⟨a.parcel?, hparcel, .inl rfl, fun d hd => ⟨hclient, ?_⟩⟩
      rw [eq_of_mem_sendings_send hd]
      exact passes_of_forwarded (hroute.symm.trans hfate)
  | lookup p =>
      obtain ⟨hclient, hroute⟩ := howner (by simp [hfate])
      have hlookup : route packet = .lookup p := hroute.symm.trans hfate
      dsimp only
      cases resolve p.host with
      | none => exact ⟨some p, rfl, .inr ⟨hclient, p, rfl, hlookup⟩, by simp⟩
      | some ip =>
          refine ⟨a.parcel?, hparcel, .inl rfl, fun d hd => ⟨hclient, ?_⟩⟩
          rw [sendings_lookup] at hd
          exact passes_of_release hlookup hd

/-- Datagrams that come while a name is looked up are kept. -/
theorem handleAll_of_parcel {p : Parcel} (h : a.parcel? = some p) (hidle : a.waiting = [])
    (ds : List (Endpoint × Packet)) : a.handleAll resolve ds = ({ a with waiting := ds }, []) := by
  cases ds with
  | nil => rw [handleAll, ← hidle]
  | cons x ds => simp [handleAll, h]

/-- An association that has learned its client learns no other. -/
theorem learn_of_client (h : a.client? = some client) (source : Endpoint) : a.learn source = a := by
  simp [learn, h]

/-- What becomes of datagrams that come in a row once the client is known. -/
theorem handleAll_cases (resolve : Answers) (h : a.client? = some client) (hidle : a.waiting = [])
    (ds : List (Endpoint × Packet)) :
    ∃ parcel? waiting, (a.handleAll resolve ds).1 =
        { a with parcel? := parcel?, waiting := waiting } ∧
      (parcel? = a.parcel? ∨
        ∃ packet p, (client, packet) ∈ ds ∧ parcel? = some p ∧ route packet = .lookup p) ∧
      (parcel? = none → waiting = []) ∧ waiting ⊆ ds ∧
      ∀ d ∈ sendings (a.handleAll resolve ds).2,
        ∃ packet, (client, packet) ∈ ds ∧ Passes a.sockets packet.bytes d := by
  induction ds generalizing a with
  | nil =>
      exact ⟨a.parcel?, a.waiting, rfl, .inl rfl, fun _ => hidle, by simp [hidle],
        by simp [handleAll]⟩
  | cons x ds ih =>
      cases hparcel : a.parcel? with
      | some p =>
          rw [handleAll_of_parcel hparcel hidle]
          exact ⟨some p, x :: ds, by rw [← hparcel], .inl rfl, fun hnone => (by cases hnone),
            List.Subset.refl _, by simp⟩
      | none =>
          have hall : a.handleAll resolve (x :: ds) =
              (((a.handle resolve x.1 x.2).1.handleAll resolve ds).1,
                (a.handle resolve x.1 x.2).2 ++
                  ((a.handle resolve x.1 x.2).1.handleAll resolve ds).2) := by
            simp [handleAll, hparcel]
          obtain ⟨first?, hfirst, horigin, hsent⟩ := handle_cases resolve a x.1 x.2
          rw [learn_of_client h] at hfirst horigin hsent
          obtain ⟨parcel?, waiting, hlast, hparcels, hwait, hsub, hmore⟩ :=
            @ih { a with parcel? := first? } h hidle
          rw [hall, hfirst]
          -- A datagram that is treated as the client's has come from the client.
          have hfrom : a.client? = some x.1 → (client, x.2) ∈ x :: ds := by
            intro hx
            rw [h] at hx
            cases hx
            exact List.mem_cons_self
          refine ⟨parcel?, waiting, hlast, ?_, hwait, List.subset_cons_of_subset x hsub, ?_⟩
          · rcases hparcels with rfl | ⟨packet, p, hmem, hp, hroute⟩
            · rcases horigin with rfl | ⟨hx, p, hp, hroute⟩
              · exact .inl hparcel
              · exact .inr ⟨x.2, p, hfrom hx, hp, hroute⟩
            · exact .inr ⟨packet, p, List.mem_cons_of_mem x hmem, hp, hroute⟩
          · intro d hd
            rw [sendings_append, List.mem_append] at hd
            rcases hd with hd | hd
            · obtain ⟨hx, hp⟩ := hsent d hd
              exact ⟨x.2, hfrom hx, hp⟩
            · obtain ⟨packet, hmem, hp⟩ := hmore d hd
              exact ⟨packet, List.mem_cons_of_mem x hmem, hp⟩

section receiving

variable {p : Parcel} {error : IoError}

theorem receive_of_failed (h : a.innerError? = some error) :
    a.receive resolve source packet = (a, []) := by
  simp [receive, h]

theorem receive_of_busy (h : a.innerError? = none) (hp : a.parcel? = some p) :
    a.receive resolve source packet =
      ({ a with waiting := a.waiting ++ [(source, packet)] }, []) := by
  have hopen : ¬a.innerError?.isSome = true := by simp [h]
  rw [receive, if_neg hopen, @handleAll_of_parcel resolve { a with waiting := [] } p hp rfl]

theorem receive_of_idle (h : a.innerError? = none) (hp : a.parcel? = none)
    (hidle : a.waiting = []) :
    a.receive resolve source packet = a.handle resolve source packet := by
  have hopen : ¬a.innerError?.isSome = true := by simp [h]
  have hself : { a with waiting := [] } = a := by rw [← hidle]
  have hone : a.handleAll resolve [(source, packet)] = a.handle resolve source packet := by
    simp [handleAll, hp]
  rw [receive, if_neg hopen, hself, hidle, List.nil_append, hone]

theorem answer_of_busy (hp : a.parcel? = some p) (ip : Except IoError IpAddress) :
    a.answer resolve ip =
      (({ a with parcel? := none, waiting := [] }.handleAll resolve a.waiting).1,
        a.release p ip ++ ({ a with parcel? := none, waiting := [] }.handleAll resolve a.waiting).2)
      := by
  simp [answer, hp]

end receiving

/-! ### Whom an association belongs to -/

/-- The first error of the inner socket. -/
def innerFailure? (events : List Event) : Option IoError :=
  events.findSome? fun
    | .innerFails e => some e
    | _ => none

/-- The first error of the outer socket. -/
def outerFailure? (events : List Event) : Option IoError :=
  events.findSome? fun
    | .outerFails e => some e
    | _ => none

/-- The owner of an association that was asked for with the destination `there`: the first source
of a datagram at the inner socket, before that fails, unless the destination names another host. -/
def owner? (there : Address) : List Event → Option Endpoint
  | [] => none
  | .innerReceives source _ :: later =>
    if there.otherHost? source = none then some source else owner? there later
  | .innerFails _ :: _ => none
  | _ :: later => owner? there later

variable {there : Address}

theorem innerFailure?_append (a b : List Event) :
    innerFailure? (a ++ b) = (innerFailure? a).or (innerFailure? b) := List.findSome?_append

theorem outerFailure?_append (a b : List Event) :
    outerFailure? (a ++ b) = (outerFailure? a).or (outerFailure? b) := List.findSome?_append

theorem owner?_append (there : Address) (events more : List Event) :
    owner? there (events ++ more) =
      (owner? there events).or
        (if innerFailure? events = none then owner? there more else none) := by
  induction events with
  | nil => rfl
  | cons e events ih =>
      cases e with
      | innerReceives source packet =>
          rw [List.cons_append, owner?, owner?]
          by_cases hknown : there.otherHost? source = none
          · rw [if_pos hknown, if_pos hknown, Option.some_or]
          · rw [if_neg hknown, if_neg hknown]
            exact ih
      | innerFails error => rfl
      | _ => exact ih

/-- An association does not change its owner. -/
theorem owner?_stays (h : owner? there events = some client) (more : List Event) :
    owner? there (events ++ more) = some client := by
  rw [owner?_append, h, Option.some_or]

/-- An owner has sent a datagram, and is no stranger. -/
theorem owner?_received (h : owner? there events = some client) :
    (∃ packet, .innerReceives client packet ∈ events) ∧ there.otherHost? client = none := by
  have hlater : ∀ {e : Event} {events : List Event},
      (∃ packet, .innerReceives client packet ∈ events) →
        ∃ packet, .innerReceives client packet ∈ e :: events :=
    fun ⟨packet, hmem⟩ => ⟨packet, List.mem_cons_of_mem _ hmem⟩
  induction events with
  | nil => cases h
  | cons e events ih =>
      cases e with
      | innerReceives source packet =>
          rw [owner?] at h
          split_ifs at h with hknown
          · cases h
            exact ⟨⟨packet, List.mem_cons_self⟩, hknown⟩
          · exact ⟨hlater (ih h).1, (ih h).2⟩
      | innerFails error => cases h
      | _ => exact ⟨hlater (ih h).1, (ih h).2⟩

theorem expects_iff (h : a.sockets.expected? = there.literalHost?) (source : Endpoint) :
    a.expects source = true ↔ there.otherHost? source = none := by
  rw [Address.otherHost?_eq, ← h]
  unfold expects
  cases a.sockets.expected? with
  | none => simp
  | some ip =>
      by_cases he : source.ip = ip
      · simp [he, Option.filter]
      · simp [he, Ne.symm he, Option.filter]

/-! ### What an association has come to -/

/-- What an association has come to that was asked for with the destination `there`, when these
events have happened: it belongs to the owner, knows the errors of its sockets, looks up the
destination of a datagram of the owner, and has kept nothing but datagrams that have come. -/
structure Follows (there : Address) (sockets : Sockets) (events : List Event) (a : Association) :
    Prop where
  sockets : a.sockets = sockets
  client : a.client? = owner? there events
  innerError : a.innerError? = innerFailure? events
  outerError : a.outerError? = outerFailure? events
  parcel : ∀ p, a.parcel? = some p → ∃ client packet, owner? there events = some client ∧
    .innerReceives client packet ∈ events ∧ route packet = .lookup p
  waiting : ∀ d ∈ a.waiting, .innerReceives d.1 d.2 ∈ events
  idle : a.parcel? = none → a.waiting = []

theorem follows_start (there : Address) (sockets : Sockets) :
    Follows there sockets [] (start sockets) :=
  ⟨rfl, rfl, rfl, rfl, fun p hp => (by cases hp), fun d hd => (by cases hd), fun _ => rfl⟩

/-- A parcel stays the owner's. -/
theorem Follows.parcel_stays (h : Follows there sockets events a)
    (howner : owner? there (events ++ [e]) = owner? there events) (p : Parcel)
    (hp : a.parcel? = some p) :
    ∃ client packet, owner? there (events ++ [e]) = some client ∧
      .innerReceives client packet ∈ events ++ [e] ∧ route packet = .lookup p := by
  obtain ⟨client, packet, hclient, hmem, hroute⟩ := h.parcel p hp
  exact ⟨client, packet, howner.trans hclient, List.mem_append_left _ hmem, hroute⟩

/-- What is known of an association that an event does not change. -/
theorem Follows.pass (h : Follows there sockets events a)
    (howner : owner? there (events ++ [e]) = owner? there events)
    (hinner : innerFailure? [e] = none) (houter : outerFailure? [e] = none) :
    Follows there sockets (events ++ [e]) a := by
  refine ⟨h.sockets, h.client.trans howner.symm, ?_, ?_, h.parcel_stays howner, fun d hd => ?_,
    h.idle⟩
  · rw [innerFailure?_append, hinner, Option.or_none, h.innerError]
  · rw [outerFailure?_append, houter, Option.or_none, h.outerError]
  · exact List.mem_append_left _ (h.waiting d hd)

theorem owner?_snoc (there : Address) (events : List Event) {e : Event}
    (h : owner? there [e] = none) : owner? there (events ++ [e]) = owner? there events := by
  rw [owner?_append, h]
  simp

/-- To let a datagram's source become the client is to look for the owner. -/
theorem Follows.learn (h : Follows there sockets events a)
    (hexpected : sockets.expected? = there.literalHost?) (hinner : innerFailure? events = none)
    (source : Endpoint) (packet : Packet) :
    (a.learn source).client? = owner? there (events ++ [.innerReceives source packet]) := by
  have hexpects := expects_iff (a := a) (by rw [h.sockets, hexpected]) source
  rw [owner?_append, if_pos hinner, ← h.client]
  cases hclient : a.client? with
  | some client => rw [learn_of_client hclient, hclient, Option.some_or]
  | none =>
      rw [Option.none_or, owner?]
      by_cases hknown : there.otherHost? source = none
      · rw [if_pos hknown, Association.learn, if_pos ⟨hexpects.mpr hknown, hclient⟩]
      · have hstranger : ¬(a.expects source = true ∧ a.client? = none) := by
          rintro ⟨hexp, -⟩
          exact hknown (hexpects.mp hexp)
        rw [if_neg hknown, Association.learn, if_neg hstranger, hclient]
        rfl

/-- A datagram that comes while a name is looked up waits. -/
theorem Follows.wait {p : Parcel} (h : Follows there sockets events a) (hp : a.parcel? = some p)
    (source : Endpoint) (packet : Packet) :
    Follows there sockets (events ++ [.innerReceives source packet])
      { a with waiting := a.waiting ++ [(source, packet)] } := by
  obtain ⟨client, packet', hclient, -, -⟩ := h.parcel p hp
  have howner := (owner?_stays hclient [.innerReceives source packet]).trans hclient.symm
  have hpass := h.pass howner rfl rfl
  refine ⟨hpass.sockets, hpass.client, hpass.innerError, hpass.outerError, hpass.parcel,
    fun d hd => ?_, fun hnone => ?_⟩
  · rcases List.mem_append.mp hd with hd | hd
    · exact hpass.waiting d hd
    · rw [List.mem_singleton.mp hd]
      simp
  · have hsome : a.parcel? = none := hnone
    rw [hp] at hsome
    cases hsome

/-- A datagram that comes while no name is looked up is treated at once. -/
theorem Follows.handle (h : Follows there sockets events a)
    (hexpected : sockets.expected? = there.literalHost?) (hinner : innerFailure? events = none)
    (hp : a.parcel? = none) (resolve : Answers) (source : Endpoint) (packet : Packet) :
    Follows there sockets (events ++ [.innerReceives source packet])
        (a.handle resolve source packet).1 ∧
      ∀ d ∈ sendings (a.handle resolve source packet).2, ∃ client,
        owner? there (events ++ [.innerReceives source packet]) = some client ∧
          Permits sockets client (events ++ [.innerReceives source packet]) d := by
  have hlast : Event.innerReceives source packet ∈ events ++ [.innerReceives source packet] := by
    simp
  have hlearn := h.learn hexpected hinner source packet
  obtain ⟨parcel?, hnext, horigin, hsent⟩ := handle_cases resolve a source packet
  constructor
  · rw [hnext, learn_eq]
    refine ⟨h.sockets, hlearn, ?_, ?_, fun p hparcel => ?_, fun d hd => ?_, fun _ => h.idle hp⟩
    · rw [innerFailure?_append]
      exact h.innerError.trans Option.or_none.symm
    · rw [outerFailure?_append]
      exact h.outerError.trans Option.or_none.symm
    · have hparcel' : parcel? = some p := hparcel
      rcases horigin with hsame | ⟨hclient, p', hp', hroute⟩
      · rw [hsame, hp] at hparcel'
        cases hparcel'
      · rw [hp'] at hparcel'
        cases hparcel'
        exact ⟨source, packet, hlearn.symm.trans hclient, hlast, hroute⟩
    · exact List.mem_append_left _ (h.waiting d hd)
  · intro d hd
    obtain ⟨hclient, hpasses⟩ := hsent d hd
    rw [h.sockets] at hpasses
    exact ⟨source, hlearn.symm.trans hclient, .forward hlast hpasses⟩

theorem Follows.receive (h : Follows there sockets events a)
    (hexpected : sockets.expected? = there.literalHost?) (resolve : Answers) (source : Endpoint)
    (packet : Packet) :
    Follows there sockets (events ++ [.innerReceives source packet])
        (a.receive resolve source packet).1 ∧
      ∀ d ∈ sendings (a.receive resolve source packet).2, ∃ client,
        owner? there (events ++ [.innerReceives source packet]) = some client ∧
          Permits sockets client (events ++ [.innerReceives source packet]) d := by
  cases herror : a.innerError? with
  | some error =>
      have hfailed : innerFailure? events = some error := h.innerError.symm.trans herror
      have howner : owner? there (events ++ [.innerReceives source packet]) =
          owner? there events := by
        rw [owner?_append, hfailed, if_neg (by simp), Option.or_none]
      rw [receive_of_failed herror]
      exact ⟨h.pass howner rfl rfl, by simp⟩
  | none =>
      have hinner : innerFailure? events = none := h.innerError.symm.trans herror
      cases hp : a.parcel? with
      | some p =>
          rw [receive_of_busy herror hp]
          exact ⟨h.wait hp source packet, by simp⟩
      | none =>
          rw [receive_of_idle herror hp (h.idle hp)]
          exact h.handle hexpected hinner hp resolve source packet

/-- The look-up under way is answered, and what has waited for it is treated. -/
theorem Follows.answer (h : Follows there sockets events a) (resolve : Answers)
    (ip : Except IoError IpAddress) :
    Follows there sockets (events ++ [.resolved ip]) (a.answer resolve ip).1 ∧
      ∀ d ∈ sendings (a.answer resolve ip).2, ∃ client,
        owner? there (events ++ [.resolved ip]) = some client ∧
          Permits sockets client (events ++ [.resolved ip]) d := by
  have howner : owner? there (events ++ [.resolved ip]) = owner? there events :=
    owner?_snoc there events rfl
  have hpass := h.pass howner rfl rfl
  cases hp : a.parcel? with
  | none =>
      have hanswer : a.answer resolve ip = (a, []) := by simp [Association.answer, hp]
      rw [hanswer]
      exact ⟨hpass, by simp⟩
  | some p =>
      obtain ⟨client, packet, hclient, hmem, hroute⟩ := hpass.parcel p hp
      have hknown : a.client? = some client := hpass.client.trans hclient
      -- What has waited and is the client's has come from the client.
      have hwaited : ∀ packet, (client, packet) ∈ a.waiting →
          .innerReceives client packet ∈ events ++ [.resolved ip] := fun packet hd =>
        hpass.waiting (client, packet) hd
      obtain ⟨parcel?, waiting, hlast, horigin, hidle, hsub, hsent⟩ :=
        @handleAll_cases { a with parcel? := none, waiting := [] } client resolve hknown rfl
          a.waiting
      rw [answer_of_busy hp]
      constructor
      · rw [hlast]
        refine ⟨hpass.sockets, hpass.client, hpass.innerError, hpass.outerError, fun p' hp' => ?_,
          fun d hd => hpass.waiting d (hsub hd), hidle⟩
        have hparcel : parcel? = some p' := hp'
        rcases horigin with hnone | ⟨packet', p'', hd, hp'', hroute'⟩
        · rw [hnone] at hparcel
          cases hparcel
        · rw [hp''] at hparcel
          cases hparcel
          exact ⟨client, packet', hclient, hwaited packet' hd, hroute'⟩
      · intro d hd
        rw [sendings_append, List.mem_append] at hd
        refine ⟨client, hclient, ?_⟩
        rcases hd with hd | hd
        · have hpasses := passes_of_release hroute hd
          rw [h.sockets] at hpasses
          exact .forward hmem hpasses
        · obtain ⟨packet', hmem', hpasses⟩ := hsent d hd
          have hsockets : sockets = a.sockets := h.sockets.symm
          rw [hsockets]
          exact .forward (hwaited packet' hmem') hpasses

/-- What reaches the outer socket goes to the owner. -/
theorem Follows.deliver (h : Follows there sockets events a) (source : Endpoint)
    (packet : Packet) :
    ∀ d ∈ sendings (a.deliver source packet), ∃ client, owner? there events = some client ∧
      Permits sockets client (events ++ [.outerReceives source packet]) d := by
  intro d hd
  unfold Association.deliver at hd
  split at hd
  · rename_i client packet herror hclient hencode
    obtain rfl := eq_of_mem_sendings_send hd
    refine ⟨client, h.client.symm.trans hclient, .deliver (by simp) ?_ rfl hencode⟩
    rw [h.sockets]
  · cases hd

/-- The first error of a socket is the one that counts. -/
theorem orElse_some (error? : Option IoError) (error : IoError) :
    (error? <|> some error) = error?.or (some error) := by
  cases error? <;> rfl

theorem Follows.failInner (h : Follows there sockets events a) (error : IoError) :
    Follows there sockets (events ++ [.innerFails error]) (a.failInner error) := by
  have howner : owner? there (events ++ [.innerFails error]) = owner? there events :=
    owner?_snoc there events rfl
  refine ⟨h.sockets, h.client.trans howner.symm, ?_, ?_, h.parcel_stays howner,
    fun d hd => (by cases hd), fun _ => rfl⟩
  · rw [innerFailure?_append, ← h.innerError]
    exact orElse_some a.innerError? error
  · rw [outerFailure?_append]
    exact h.outerError.trans Option.or_none.symm

theorem Follows.failOuter (h : Follows there sockets events a) (error : IoError) :
    Follows there sockets (events ++ [.outerFails error]) (a.failOuter error) := by
  have howner : owner? there (events ++ [.outerFails error]) = owner? there events :=
    owner?_snoc there events rfl
  refine ⟨h.sockets, h.client.trans howner.symm, ?_, ?_, h.parcel_stays howner, fun d hd => ?_,
    h.idle⟩
  · rw [innerFailure?_append]
    exact h.innerError.trans Option.or_none.symm
  · rw [outerFailure?_append, ← h.outerError]
    exact orElse_some a.outerError? error
  · exact List.mem_append_left _ (h.waiting d hd)

/-- An event leaves an association what it should be, and nothing is sent but what it may send. -/
theorem Follows.after (h : Follows there sockets events a)
    (hexpected : sockets.expected? = there.literalHost?) (resolve : Answers) (e : Event) :
    Follows there sockets (events ++ [e]) (a.after resolve e).1 ∧
      ∀ d ∈ sendings (a.after resolve e).2, ∃ client,
        owner? there (events ++ [e]) = some client ∧ Permits sockets client (events ++ [e]) d := by
  cases e with
  | resolved ip => exact h.answer resolve ip
  | innerReceives source packet => exact h.receive hexpected resolve source packet
  | outerReceives source packet =>
      have howner := owner?_snoc there events (e := .outerReceives source packet) rfl
      refine ⟨h.pass howner rfl rfl, ?_⟩
      rw [howner]
      exact h.deliver source packet
  | innerFails error => exact ⟨h.failInner error, by simp [Association.after]⟩
  | outerFails error => exact ⟨h.failOuter error, by simp [Association.after]⟩
  | _ => exact ⟨h.pass (owner?_snoc there events rfl) rfl rfl, by simp [Association.after]⟩

/-- Whatever happens, an association is what it should be, and nothing has been sent but what it may
send. -/
theorem Follows.afterAll (h : Follows there sockets events a)
    (hexpected : sockets.expected? = there.literalHost?) (resolve : Answers) (more : List Event) :
    Follows there sockets (events ++ more) (a.afterAll resolve more).1 ∧
      ∀ d ∈ sendings (a.afterAll resolve more).2, ∃ client,
        owner? there (events ++ more) = some client ∧
          Permits sockets client (events ++ more) d := by
  induction more generalizing events a with
  | nil => exact ⟨by rwa [List.append_nil], by simp [Association.afterAll]⟩
  | cons e more ih =>
      obtain ⟨hnext, hsent⟩ := h.after hexpected resolve e
      obtain ⟨hlast, hmore⟩ := ih hnext
      rw [afterAll_cons, List.append_cons]
      refine ⟨hlast, fun d hd => ?_⟩
      rw [sendings_append, List.mem_append] at hd
      rcases hd with hd | hd
      · obtain ⟨client, hclient, hpermits⟩ := hsent d hd
        exact ⟨client, owner?_stays hclient more,
          hpermits.mono (List.subset_append_left _ _)⟩
      · exact hmore d hd

end Association

end Socks
