import Socks.Proofs.Session.Equipped

/-!
# What is sent back to the client of an association

Whatever reaches the outer socket of an association while it has a client goes to the client, with
its source in the header: one datagram for each that has come, in the order in which they came.
Before there is a client it is dropped.

Main statement: `Session.datagrams_wrapped`.
-/

namespace Socks

namespace Association

variable {there : Address} {inner client : Endpoint} {early later : List Event}

theorem sinceOwner_append (howner : owner? there early = some client) (later : List Event) :
    sinceOwner there (early ++ later) = sinceOwner there early ++ later := by
  induction early with
  | nil => cases howner
  | cons e early ih =>
      cases e with
      | innerReceives source packet =>
          rw [owner?] at howner
          rw [List.cons_append, sinceOwner, sinceOwner]
          split_ifs at howner ⊢ with hknown
          · rfl
          · exact ih howner
      | innerFails error => cases howner
      | _ => exact ih howner

/-- Before there is a client nothing is sent back. -/
theorem returned_of_nobody (hnone : owner? there early = none) :
    returned inner there early = [] := by
  rw [returned, hnone]

/-- Since there is a client everything is sent back that reaches the outer socket. -/
theorem returned_append (howner : owner? there early = some client)
    (haudible : ∀ e ∈ early ++ later, audible e = true) :
    returned inner there (early ++ later) =
      returned inner there early ++
        (arrivedOutside later).filterMap (returned? inner client) := by
  have hearly : early.takeWhile audible = early :=
    List.takeWhile_eq_self_iff.mpr fun e he => haudible e (List.mem_append_left _ he)
  have hall : (early ++ later).takeWhile audible = early ++ later :=
    List.takeWhile_eq_self_iff.mpr haudible
  rw [returned, returned, owner?_stays howner later, howner]
  dsimp only
  rw [hall, hearly, sinceOwner_append howner, ← List.filterMap_append]
  congr 1
  exact List.filterMap_append

theorem via_sending? {outer : Endpoint} {t : Treatment} {d : Sending}
    (h : t.sending? outer = some d) : d.via = outer := by
  unfold Treatment.sending? at h
  split at h
  · cases h
  · split at h
    · cases h
    · split at h
      · cases h
      · split_ifs at h
        cases h
        rfl

end Association

namespace Session

open Association Handshake

variable {service : Service} {c : Connection} {out : Surroundings} {control : Stream} {s : Session}
  {calls : List Call} {events : List Event} {r : Request} {o : Outfit}

/-- What a session has sent back to its client that has told it about both sockets: what has reached
the outer socket since there was somebody to send it to, as long as the client went on. Beside it
the session sends from the outer socket. -/
def Returns (r : Request) (control : Stream) (events : List Event) (o : Outfit) (s : Session) :
    Prop :=
  ∀ inner outer later, o = .ready inner outer later →
    control.Takes (Reply.granted r.version inner).bytes.length →
      ∃ before forth, events = before ++ later ∧ (∀ d ∈ forth, d.via = outer) ∧
        let lived := attended (endingAfter control.ending before) later
        Merges forth (returned inner r.destination lived) s.sent

theorem Attends.returns (h : Attends out r calls control events o s) :
    Returns r control events o s := by
  intro inner outer later ho ht
  obtain ⟨before, he, hdoes⟩ := h inner outer later ho ht
  refine ⟨before, _, he, fun d hd => ?_, hdoes.merges⟩
  obtain ⟨t, -, hsent⟩ := List.mem_filterMap.mp hd
  exact via_sending? hsent

/-- What reaches the outer socket of an association is sent back: for a request that is known from
the start, for one that comes in a handshake, and for whatever happens while the control stream is
open, what goes out from the inner socket is what `returned` tells. That is nothing before there is
a client, and one datagram for each arrival since, unless the inner socket refuses it or the outer
one has failed. Every source and every payload can be put into a datagram, and this datagram is read
as theirs. -/
theorem datagrams_wrapped (service : Service) (c : Connection) (out : Surroundings)
    (control : Stream) (events : List Event) :
    (∀ r, r.command = .associate → service.rules r = true →
      Returns r control events (.ofConnection c out events)
        ((ofRequest service c out control r).trace service c out events)) ∧
    (let s := (start service c out control).trace service c out events
     Outside s ∨
      ∃ before after r hello rest said, events = before ++ after ∧
        Accepts service.authenticator r hello said ∧ sentBy control before = hello ++ rest ∧
        let stream : Stream :=
          { control with
            incoming := rest
            ending := endingAfter control.ending before
            written := control.written ++ said }
        let asked : Request := { r with client? := c.client? }
        r.command = .associate → service.rules asked = true →
          Returns asked stream after (.ofConnection c out after) s) ∧
    (∀ inner there early,
      (owner? there early = none → returned inner there early = []) ∧
      ∀ client later, owner? there early = some client →
        (∀ e ∈ early ++ later, audible e = true) →
          returned inner there (early ++ later) =
            returned inner there early ++
              (arrivedOutside later).filterMap (returned? inner client)) ∧
    ∀ source payload,
      Datagram.encode (.whole (.ofEndpoint source) payload) =
          .ok (Datagram.wrapped source payload) ∧
        Datagram.parse (Datagram.wrapped source payload) =
          .ok ⟨0, ⟨"", some source.ip, source.port⟩, payload⟩ := by
  refine ⟨fun r hcommand hr => (attends_ofRequest hcommand hr events).returns, ?_,
    fun inner there early => ⟨returned_of_nobody, fun client later => returned_append⟩,
    fun source payload => ⟨Datagram.encode_wrapped source payload,
      Datagram.parse_wrapped source payload⟩⟩
  intro s
  cases enters_trace service c out control events with
  | outside ho => exact .inl ho
  | @inside before after r hello rest said phase he ha hsent hs =>
      refine .inr ⟨before, after, r, hello, rest, said, he, ha, hsent, ?_⟩
      intro stream asked hcommand hr
      have hattends := attends_start hcommand hr hs after
      rw [← he] at hattends
      exact hattends.returns

/-- Something comes before there is a client, and is dropped; then it comes from an IPv4 and an IPv6
source, and is sent back but for a datagram that the inner socket refuses. -/
theorem datagrams_wrapped_both_families :
    let service : Service := ⟨.anyone, fun _ => true, 10, 60⟩
    let out : Surroundings := .silent
    let r : Request := ⟨.v5, .associate, .literal .anyV4 0, .anonymous, none⟩
    let inner : Endpoint := ⟨.ofOctets 127 0 0 1, 1080⟩
    let outer : Endpoint := ⟨.anyV4, 5353⟩
    let client : Endpoint := ⟨.ofOctets 10 0 0 1, 9⟩
    let far : Endpoint := ⟨.ofOctets 10 0 0 7, 53⟩
    let far6 : Endpoint := ⟨.anyV6, 53⟩
    let early : List Event := [.outerReceives far ⟨[97], true⟩, .innerReceives client ⟨[0], true⟩]
    let later : List Event :=
      [.outerReceives far ⟨[98], true⟩, .outerReceives far6 ⟨[100], false⟩,
        .outerReceives far6 ⟨[100], true⟩]
    let s := (ofRequest service ⟨none, none⟩ out .idle r).trace service ⟨none, none⟩ out
      ([.opened (.ok inner), .opened (.ok outer)] ++ (early ++ later))
    r.command = .associate ∧ service.rules r = true ∧
      Stream.Takes .idle (Reply.granted .v5 inner).bytes.length ∧
      owner? r.destination early = some client ∧ (∀ e ∈ early ++ later, audible e = true) ∧
      (arrivedOutside later).filterMap (returned? inner client) =
        [⟨inner, client, [0, 0, 0, 1, 10, 0, 0, 7, 0, 53, 98]⟩,
          ⟨inner, client, [0, 0, 0, 4] ++ List.replicate 16 0 ++ [0, 53, 100]⟩] ∧
      ∃ forth, (∀ d ∈ forth, d.via = outer) ∧
        Merges forth ((arrivedOutside later).filterMap (returned? inner client))
          s.sent := by
  intro service out r inner outer client far far6 early later s
  have ht : Stream.Takes .idle (Reply.granted .v5 inner).bytes.length :=
    Stream.takes_of_faultless rfl _
  have howner : owner? r.destination early = some client := by decide +kernel
  have haudible : ∀ e ∈ early ++ later, audible e = true := by simp [early, later, audible]
  obtain ⟨hrequest, -, hreturned, -⟩ := datagrams_wrapped service ⟨none, none⟩ out .idle
    ([.opened (.ok inner), .opened (.ok outer)] ++ (early ++ later))
  obtain ⟨before, forth, he, hforth, hmerges⟩ :=
    hrequest r rfl rfl inner outer (early ++ later) rfl ht
  obtain rfl := List.append_cancel_right he
  have hlived : attended (endingAfter Stream.idle.ending [.opened (.ok inner), .opened (.ok outer)])
      (early ++ later) = early ++ later := attended_of_awaited rfl
  have hearly : returned inner r.destination early = [] := by decide +kernel
  dsimp only at hmerges
  rw [hlived, (hreturned inner r.destination early).2 client later howner haudible, hearly,
    List.nil_append] at hmerges
  exact ⟨rfl, rfl, ht, howner, haudible, by decide +kernel, forth, hforth, hmerges⟩

end Session

end Socks
