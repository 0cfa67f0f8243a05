import Socks.Proofs.Session.Associated

/-!
# Whom an association belongs to

Anybody can send datagrams to the sockets of an association. It belongs to the first source that its
request does not exclude, from then on: only what this source sends goes out, and only to this
source goes what comes back.

Main statement: `Session.association_has_owner`.
-/

namespace Socks

open Association Handshake

namespace Session

variable {service : Service} {c : Connection} {out : Surroundings} {control : Stream} {s : Session}
  {events later : List Event} {r : Request} {inner outer : Endpoint} {o : Outfit}

/-- What a session shows of whom its association belongs to, which was asked for with the
destination `there`: it has both sockets, its client is the owner, and every datagram that was sent
is the owner's or goes to the owner. -/
structure Belongs (there : Address) (o : Outfit) (s : Session) : Prop where
  association : ∀ a, s.association? = some a → ∃ inner outer later, o = .ready inner outer later ∧
    a.sockets = ⟨inner, outer, there.literalHost?⟩ ∧ a.client? = owner? there later
  sent : ∀ d ∈ s.sent, ∃ inner outer later client, o = .ready inner outer later ∧
    owner? there later = some client ∧
      Permits ⟨inner, outer, there.literalHost?⟩ client later d

theorem belongs_of_none (there : Address) (hs : s.sent = []) (ha : s.association? = none) :
    Belongs there o s := by
  refine ⟨fun a hassociation => ?_, fun d hd => ?_⟩
  · rw [ha] at hassociation
    cases hassociation
  · rw [hs] at hd
    cases hd

theorem belongs_of_over {written : Bytes} {result : Except Failure Unit} (there : Address)
    (h : s.shown = ⟨[], written, some result⟩) : Belongs there o s := by
  have hresult : s.result? = some result := congrArg Shown.result? h
  have hnone : s.association? = none := by
    unfold result? at hresult
    unfold association?
    split at hresult
    · rename_i hp
      rw [hp]
    · cases hresult
  exact belongs_of_none there (congrArg Shown.sent h) hnone

theorem phase_of_association? {a : Association} (h : s.association? = some a) :
    s.phase = .associated a := by
  unfold association? at h
  split at h
  · rename_i a' hp
    cases h
    exact hp
  · cases h

theorem belongs_watch (there : Address) (hs : s.sent = []) (later : List Event) :
    Belongs there (.ready inner outer later)
      ((s.watch (.start ⟨inner, outer, there.literalHost?⟩)).trace service c out later) := by
  have hshape := @drained_trace_watch service c out s
    (.start ⟨inner, outer, there.literalHost?⟩) later
  obtain ⟨hlast, hsent⟩ := (follows_start there ⟨inner, outer, there.literalHost?⟩).afterAll rfl
    out.resolve (attended s.control.ending later)
  rw [List.nil_append] at hlast hsent
  refine ⟨fun a ha => ⟨inner, outer, later, rfl, ?_⟩, fun d hd => ?_⟩
  · have hphase := (congrArg Session.phase hshape).symm.trans (phase_of_association? ha)
    dsimp only at hphase
    split_ifs at hphase with hawaited
    rw [attended_of_awaited hawaited] at hphase hlast
    cases hphase
    exact ⟨hlast.sockets, hlast.client⟩
  · have hall := congrArg Session.sent hshape
    have hmem : d ∈ s.sent ++ sendings _ := hall ▸ hd
    rw [hs, List.nil_append] at hmem
    obtain ⟨client, hclient, hpermits⟩ := hsent d hmem
    have hevents := attended_append_unattended s.control.ending later
    refine ⟨inner, outer, later, client, rfl, ?_, ?_⟩
    · rw [← hevents]
      exact owner?_stays hclient _
    · rw [← hevents]
      exact hpermits.mono (List.subset_append_left _ _)

/-- However a session came by its sockets, its association belongs to its owner. -/
theorem Fits.belongs (h : Fits service c out r control [] events o s) :
    Belongs r.destination o s := by
  cases h with
  | opening hr hs hp => exact belongs_of_none r.destination hs (by rw [association?, hp])
  | @unopened before later e s he hr hs =>
      by_cases ht : control.Takes (Reply.bare r.version .serverFailure).bytes.length
      · exact belongs_of_over r.destination (shown_giveUp hr hs ht later)
      · obtain ⟨fault, -, -, hcut⟩ := shown_reply_cut hr hs ht _ later
        exact belongs_of_over r.destination hcut
  | @ready before later inner outer s he hr hs =>
      by_cases ht : control.Takes (Reply.granted r.version inner).bytes.length
      · rw [pursue_fitted hr ht]
        exact @belongs_watch service c out (s.replied (.granted r.version inner)) inner outer
          r.destination hs later
      · obtain ⟨fault, -, -, hcut⟩ := shown_reply_cut hr hs ht _ later
        exact belongs_of_over r.destination hcut

/-- An association belongs to the first source that its request does not exclude, for a request that
is known from the start and for one that comes in a handshake. Its owner has sent a datagram, comes
from the host that the request names, if it names one, and stays the owner; what is sent out has
come from the owner, and what is sent back goes to the owner. -/
theorem association_has_owner (service : Service) (c : Connection) (out : Surroundings)
    (control : Stream) (events : List Event) :
    (∀ r, r.command = .associate → service.rules r = true →
      Belongs r.destination (.ofConnection c out events)
        ((ofRequest service c out control r).trace service c out events)) ∧
    (let s := (start service c out control).trace service c out events
     Outside s ∨
      ∃ before after r hello rest said, events = before ++ after ∧
        Accepts service.authenticator r hello said ∧ sentBy control before = hello ++ rest ∧
        (r.command = .associate → service.rules { r with client? := c.client? } = true →
          Belongs r.destination (.ofConnection c out after) s)) ∧
    ∀ there late client, owner? there late = some client →
      (∃ packet, .innerReceives client packet ∈ late) ∧
      (∀ ip, there.name = "" → there.ip? = some ip → ip.isUnspecified = false →
        client.ip = ip) ∧
      ∀ more, owner? there (late ++ more) = some client := by
  refine ⟨fun r hcommand hr => (fits_ofRequest hcommand hr events).belongs, ?_,
    fun there late client h => ?_⟩
  · intro s
    cases enters_trace service c out control events with
    | outside ho => exact .inl ho
    | @inside before after r hello rest said phase he ha hsent hs =>
        refine .inr ⟨before, after, r, hello, rest, said, he, ha, hsent, fun hcommand hr => ?_⟩
        have hfits := fits_start hcommand hr hs after
        rw [← he] at hfits
        exact hfits.belongs
  · obtain ⟨hreceived, hknown⟩ := owner?_received h
    exact ⟨hreceived, Address.otherHost?_eq_none_iff.mp hknown, owner?_stays h⟩

/-- Two strangers send to an association: one from another host before the client does, and one from
another port of the client's host. Neither is heard. -/
theorem association_has_owner_strangers :
    let service : Service := ⟨.anyone, fun _ => true, 10, 60⟩
    let out : Surroundings := .silent
    let r : Request := ⟨.v5, .associate, .literal (.ofOctets 10 0 0 1) 0, .anonymous, none⟩
    let inner : Endpoint := ⟨.ofOctets 127 0 0 1, 1080⟩
    let outer : Endpoint := ⟨.anyV4, 5353⟩
    let client : Endpoint := ⟨.ofOctets 10 0 0 1, 9⟩
    let far : Endpoint := ⟨.ofOctets 10 0 0 7, 53⟩
    let late : List Event :=
      [.innerReceives ⟨.ofOctets 10 0 0 2, 9⟩ ⟨[0, 0, 0, 1, 10, 0, 0, 7, 0, 53, 97], true⟩,
        .clientSends [0], .innerReceives client ⟨[0, 0, 0, 1, 10, 0, 0, 7, 0, 53, 98], true⟩,
        .innerReceives ⟨client.ip, 8⟩ ⟨[0, 0, 0, 1, 10, 0, 0, 7, 0, 53, 99], true⟩,
        .outerReceives far ⟨[100], true⟩]
    let s := (ofRequest service ⟨none, none⟩ out .idle r).trace service ⟨none, none⟩ out
      ([.opened (.ok inner), .opened (.ok outer)] ++ late)
    r.command = .associate ∧ service.rules r = true ∧
      owner? r.destination late = some client ∧ Belongs r.destination (.ready inner outer late) s ∧
      s.sent = [⟨outer, far, [98]⟩,
        ⟨inner, client, [0, 0, 0, 1, 10, 0, 0, 7, 0, 53, 100]⟩] := by
  intro service out r inner outer client far late s
  refine ⟨rfl, rfl, rfl, ?_, by decide +kernel⟩
  have h := (association_has_owner service ⟨none, none⟩ out .idle
    ([.opened (.ok inner), .opened (.ok outer)] ++ late)).1 r rfl rfl
  exact h

end Session

end Socks
