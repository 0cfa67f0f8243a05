import Socks.Proofs.Association.Drops
import Socks.Proofs.AssociationOwner

/-!
# Dropped datagrams and what follows them

A datagram of the client side that an association drops leaves everything as it was, and what
follows comes out as if it had never come. There is one exception, which the order of the checks
brings about: the first datagram from a host that is expected makes its source the client before it
is looked into, so that it does so even if it is dropped for what it holds.

Main statement: `Session.dropped_datagrams`.
-/

namespace Socks

open Association

namespace Session

variable {service : Service} {c : Connection} {out : Surroundings} {rules : Rules}
  {control : Stream} {s s' : Session} {events : List Event} {e : Event} {a b : Association}
  {source : Endpoint} {packet : Packet}

/-- A session whose association, if it attends to one, is steady. -/
def Tends (s : Session) : Prop := ∀ a, s.phase = .associated a → a.Steady

/-- A session whose association, if it attends to one, is steady, and whose client has not ended and
has written nothing that the session has not read. -/
def Watches (s : Session) : Prop :=
  ∀ a, s.phase = .associated a →
    a.Steady ∧ s.control.incoming = [] ∧ s.control.ending = .awaited

theorem Watches.tends (h : Watches s) : Tends s := fun a ha => (h a ha).1

theorem watches_of_none (h : s.association? = none) : Watches s := by
  intro a ha
  rw [association?, ha] at h
  cases h

theorem watches_finish (s : Session) (r : Except Failure Unit) : Watches (s.finish r) :=
  watches_of_none rfl

theorem watches_watch (h : a.Steady) (s : Session) : Watches (s.watch a) := by
  rw [watch_eq]
  by_cases hending : s.control.ending = .awaited
  · rw [if_pos hending]
    intro a' ha'
    cases ha'
    exact ⟨h, rfl, hending⟩
  · rw [if_neg hending]
    exact watches_of_none rfl

theorem watches_relayOn (s : Session) : Watches s.relayOn := by
  unfold relayOn
  split
  · exact watches_of_none rfl
  · dsimp only
    split
    · exact watches_finish _ _
    · exact watches_of_none rfl

/-- A plan leads to no association but one to which nothing has come yet. -/
theorem watches_pursue (p : Plan) (s : Session) : Watches (pursue out rules p s) := by
  induction p generalizing s with
  | finish result => exact watches_finish s result
  | consult request next ih => exact ih _ _
  | reply m next ih =>
      simp only [pursue]
      split
      · exact ih _
      · exact watches_finish _ _
  | resolve host next ih | dial destination next ih | listen place next ih
  | openSocket place next ih =>
      simp only [pursue]
      split
      · exact ih _ _
      · exact watches_of_none rfl
  | accept limit next ih =>
      simp only [pursue]
      split_ifs
      · exact ih _ _
      · exact watches_of_none rfl
  | relay => exact watches_relayOn s
  | associate sockets => exact watches_watch (steady_start sockets) s

/-- To go on with what a session is busy with leads to a session that watches its client. -/
theorem Tends.settle (h : Tends s) : Watches (s.settle service c out) := by
  unfold Session.settle
  split
  · split
    · exact watches_pursue _ _
    · exact watches_finish _ _
    · dsimp only
      split_ifs
      · exact watches_finish _ _
      · exact watches_of_none rfl
  · rename_i hp
    split_ifs
    · exact watches_pursue _ _
    · exact watches_of_none (by rw [association?, hp])
  · exact watches_relayOn s
  · rename_i a hp
    exact watches_watch (h a hp) s
  · rename_i hother
    intro a ha
    exact absurd ha (hother a)

/-- The association of a session takes a step that leaves it steady. -/
theorem tends_associate {went : Association × List Action} (h : went.1.Steady) (s : Session) :
    Tends (s.associate went) := by
  intro a ha
  rw [associate, act_eq] at ha
  cases ha
  exact h

theorem Tends.take (h : Tends s) (e : Event) : Tends (s.take service out e) := by
  have after : ∀ a, s.phase = .associated a → ∀ e, (a.after out.resolve e).1.Steady :=
    fun a ha e => (h a ha).after out.resolve e
  unfold Session.take
  split
  all_goals first
    | exact (watches_pursue _ _).tends
    | exact h
    | skip
  -- What remains is what an association does something about, and the reset of the far side.
  case h_6 a hp => exact tends_associate (after a hp (.resolved _)) s
  case h_14 => exact (watches_relayOn _).tends
  case h_15 a hp => exact tends_associate (after a hp (.innerReceives _ _)) s
  case h_16 =>
    rw [act_eq]
    exact h
  case h_17 a hp => exact fun a' ha' => by cases ha'; exact after a hp (.innerFails _)
  case h_18 a hp => exact fun a' ha' => by cases ha'; exact after a hp (.outerFails _)

/-- Sessions watch their clients for as long as they attend to associations. -/
theorem Watches.trace (h : Watches s) (events : List Event) :
    Watches (s.trace service c out events) := by
  induction events generalizing s with
  | nil => exact h
  | cons e events ih => exact ih (h.tends.take e).settle

theorem watches_start (service : Service) (c : Connection) (out : Surroundings)
    (control : Stream) : Watches (start service c out control) :=
  (watches_of_none rfl).tends.settle

/-! ### Sessions that differ in a datagram to be dropped -/

/-- Two sessions that are the same, but for a datagram which waits in the association of the first
one and will be dropped. -/
inductive Alike (source : Endpoint) (packet : Packet) : Session → Session → Prop
  | same (s : Session) : Alike source packet s s
  | attends {a b : Association} (s : Session) : Agree source packet a b →
      Alike source packet { s with phase := .associated a } { s with phase := .associated b }

theorem alike_watch (h : Agree source packet a b) (s : Session) :
    Alike source packet (s.watch a) (s.watch b) := by
  rw [watch_eq, watch_eq]
  by_cases hending : s.control.ending = .awaited
  · rw [if_pos hending, if_pos hending]
    exact .attends { s with control := s.control.drained } h
  · rw [if_neg hending, if_neg hending, h.result_eq]
    exact .same _

/-- One event: the association does the same in both sessions. -/
theorem Alike.step (h : Alike source packet s s') (e : Event) :
    Alike source packet (s.step service c out e) (s'.step service c out e) := by
  cases h with
  | same => exact .same _
  | @attends a b s hagree =>
      obtain ⟨hactions, hnext⟩ := hagree.after out.resolve e
      have hsame := alike_watch hnext ((s.passed [e]).acted (b.after out.resolve e).2)
      rw [step_of_associated (s := { s with phase := .associated a }) rfl,
        step_of_associated (s := { s with phase := .associated b }) rfl, hactions]
      rw [watch_eq, watch_eq] at hsame ⊢
      exact hsame

theorem Alike.trace (h : Alike source packet s s') (events : List Event) :
    Alike source packet (s.trace service c out events) (s'.trace service c out events) := by
  induction events generalizing s s' with
  | nil => exact h
  | cons e events ih => exact ih (h.step e)

/-- The client of the association that a session attends to, once it is known. -/
def learned? (s : Session) : Option Endpoint := s.association?.bind Association.client?

/-- What others see of sessions that differ in a datagram to be dropped is the same. -/
theorem Alike.seen (h : Alike source packet s s') :
    s.shown = s'.shown ∧ s.calls = s'.calls ∧ s.learned? = s'.learned? := by
  cases h with
  | same => exact ⟨rfl, rfl, rfl⟩
  | attends s hagree => exact ⟨rfl, rfl, hagree.client?_eq⟩

/-! ### What a dropped datagram does -/

/-- A session that watches its client takes a datagram to its association. -/
theorem Watches.receive (h : Watches s) (ha : s.association? = some a)
    (hnone : (a.receive out.resolve source packet).2 = []) :
    s.step service c out (.innerReceives source packet) =
      { s with phase := .associated (a.receive out.resolve source packet).1 } := by
  have hp := phase_of_association? ha
  obtain ⟨-, hincoming, hending⟩ := h a hp
  have hafter : a.after out.resolve (.innerReceives source packet) =
      a.receive out.resolve source packet := rfl
  have hdrained : s.control.drained = s.control := by
    rw [Stream.drained, ← hincoming]
  rw [step_of_associated hp, hafter, hnone, acted_nil, passed_of_not_common id,
    watch_of_awaited hending, hdrained]

/-- A session that ignores a datagram of the client side: its association `a` does nothing about it
and stays as it is, and so does the session, unless the datagram has to wait until it is looked
into; whatever comes later, what is sent and written, whom is asked, what the session comes to and
who its client is are as they would be without the datagram. -/
structure Ignores (service : Service) (c : Connection) (out : Surroundings) (s : Session)
    (a : Association) (source : Endpoint) (packet : Packet) : Prop where
  handled : a.handle out.resolve source packet = (a, [])
  stays : a.parcel? = none → s.step service c out (.innerReceives source packet) = s
  later : ∀ later,
    let came := (s.step service c out (.innerReceives source packet)).trace service c out later
    let stayed := s.trace service c out later
    came.shown = stayed.shown ∧ came.calls = stayed.calls ∧ came.learned? = stayed.learned?

/-- What a session does about the datagrams of the client side that its association drops: it
ignores them, but for one that brings the client. Of that one it keeps the source as the client, and
nothing else. -/
structure Discards (service : Service) (c : Connection) (out : Surroundings) (s : Session) :
    Prop where
  ignored : ∀ a source packet, s.association? = some a → a.Unfit source packet →
    ¬a.Pins source → Ignores service c out s a source packet
  pinned : ∀ a source packet, s.association? = some a → a.Unfit source packet →
    a.Pins source → a.innerError? = none →
      route packet = .dropped ∧
      s.step service c out (.innerReceives source packet) =
        { s with phase := .associated { a with client? := some source } }

theorem Watches.ignores (h : Watches s) (ha : s.association? = some a)
    (hunfit : a.Unfit source packet) (hpins : ¬a.Pins source) :
    Ignores service c out s a source packet := by
  have hp := phase_of_association? ha
  have hself : { s with phase := .associated a } = s := by rw [← hp]
  obtain ⟨hnothing, hagree, hsame⟩ := hunfit.agree (h a hp).1 hpins out.resolve
  have hstep := @Watches.receive service c out s a source packet h ha hnothing
  have hhandled := hunfit.handle_eq out.resolve
  rw [learn_of_not_pins hpins] at hhandled
  have halike : Alike source packet (s.step service c out (.innerReceives source packet)) s := by
    have hattends := Alike.attends s hagree
    rwa [← hstep, hself] at hattends
  refine ⟨hhandled, fun hidle => ?_, fun later => (halike.trace later).seen⟩
  rw [hstep, hsame hidle, hself]

theorem Watches.discards (h : Watches s) : Discards service c out s := by
  refine ⟨fun a source packet ha => h.ignores ha, fun a source packet ha hunfit hpins herror => ?_⟩
  have hreceive :=
    hunfit.receive_of_pins (h a (phase_of_association? ha)).1 hpins herror out.resolve
  refine ⟨hunfit.of_pins hpins, ?_⟩
  rw [h.receive ha (congrArg Prod.snd hreceive), hreceive]

/-- A datagram is dropped if it comes from another host than the one that is expected, or from
another source than the client, if it cannot be taken apart, or if it is a fragment. It leaves its
association as it was, and what follows as it would have been, exactly if its source does not
become the client by it. -/
theorem dropped_datagrams (service : Service) (c : Connection) (out : Surroundings)
    (control : Stream) (events : List Event) :
    (∀ r, Discards service c out
      ((ofRequest service c out control r).trace service c out events)) ∧
    Discards service c out ((start service c out control).trace service c out events) ∧
    ∀ (a : Association) source packet,
      (a.fate source packet = .dropped ↔ a.Unfit source packet) ∧
      (a.Unfit source packet →
        ((a.handle out.resolve source packet).1 = a ↔ ¬a.Pins source)) := by
  refine ⟨fun r => ((watches_pursue _ _).trace events).discards,
    ((watches_start service c out control).trace events).discards,
    fun a source packet => ⟨fate_eq_dropped_iff, fun hunfit => ?_⟩⟩
  rw [hunfit.handle_eq]
  constructor
  · intro hsame hpins
    have hclient := congrArg Association.client? hsame
    rw [learn_of_pins hpins, hpins.2] at hclient
    cases hclient
  · exact learn_of_not_pins

/-- An association whose client is known drops a fragment of the client, and then sends what the
client sends as if there had been no fragment. -/
theorem dropped_datagrams_of_client :
    let service : Service := ⟨.anyone, fun _ => true, 10, 60⟩
    let out : Surroundings := .silent
    let r : Request := ⟨.v5, .associate, .literal .anyV4 0, .anonymous, none⟩
    let outer : Endpoint := ⟨.anyV4, 5353⟩
    let client : Endpoint := ⟨.ofOctets 10 0 0 1, 9⟩
    let far : Endpoint := ⟨.ofOctets 10 0 0 7, 53⟩
    let a : Association := { Association.start ⟨⟨.ofOctets 127 0 0 1, 1080⟩, outer, none⟩ with
      client? := some client }
    let s := (ofRequest service ⟨none, none⟩ out .idle r).trace service ⟨none, none⟩ out
      [.opened (.ok a.sockets.inner), .opened (.ok outer),
        .innerReceives client ⟨[0, 0, 0, 1, 10, 0, 0, 7, 0, 53, 97], true⟩]
    let fragment : Packet := ⟨[0, 0, 1, 1, 10, 0, 0, 7, 0, 53, 98], true⟩
    let later : List Event := [.innerReceives client ⟨[0, 0, 0, 1, 10, 0, 0, 7, 0, 53, 99], true⟩]
    s.association? = some a ∧ Ignores service ⟨none, none⟩ out s a client fragment ∧
      (s.trace service ⟨none, none⟩ out (.innerReceives client fragment :: later)).sent =
        [⟨outer, far, [97]⟩, ⟨outer, far, [99]⟩] := by
  intro service out r outer client far a s fragment later
  have hdiscards := (dropped_datagrams service ⟨none, none⟩ out .idle
    [.opened (.ok a.sockets.inner), .opened (.ok outer),
      .innerReceives client ⟨[0, 0, 0, 1, 10, 0, 0, 7, 0, 53, 97], true⟩]).1 r
  exact ⟨rfl, hdiscards.ignored a client fragment rfl (.fragment rfl rfl)
    (not_pins_of_client rfl client), by decide +kernel⟩

/-- A fragment is dropped and yet makes its source the client of an association that has none: what
another source sends then stays where it is, and would have been sent on without the fragment. -/
theorem dropped_fragment_locks_out :
    let service : Service := ⟨.anyone, fun _ => true, 10, 60⟩
    let out : Surroundings := .silent
    let r : Request := ⟨.v5, .associate, .literal .anyV4 0, .anonymous, none⟩
    let outer : Endpoint := ⟨.anyV4, 5353⟩
    let stranger : Endpoint := ⟨.ofOctets 10 0 0 1, 9⟩
    let far : Endpoint := ⟨.ofOctets 10 0 0 7, 53⟩
    let a := Association.start ⟨⟨.ofOctets 127 0 0 1, 1080⟩, outer, none⟩
    let s := (ofRequest service ⟨none, none⟩ out .idle r).trace service ⟨none, none⟩ out
      [.opened (.ok a.sockets.inner), .opened (.ok outer)]
    let fragment : Packet := ⟨[0, 0, 1, 1, 10, 0, 0, 7, 0, 53, 97], true⟩
    let later : List Event :=
      [.innerReceives ⟨stranger.ip, 8⟩ ⟨[0, 0, 0, 1, 10, 0, 0, 7, 0, 53, 98], true⟩]
    let came := s.step service ⟨none, none⟩ out (.innerReceives stranger fragment)
    s.association? = some a ∧ a.fate stranger fragment = .dropped ∧
      s.learned? = none ∧ came.learned? = some stranger ∧
      (came.trace service ⟨none, none⟩ out later).sent = [] ∧
      (s.trace service ⟨none, none⟩ out later).sent = [⟨outer, far, [98]⟩] := by
  intro service out r outer stranger far a s fragment later came
  exact ⟨rfl, by decide +kernel, by decide +kernel, by decide +kernel, by decide +kernel,
    by decide +kernel⟩

end Session

end Socks
