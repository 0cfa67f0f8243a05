import Mathlib.Data.List.TakeWhile
import Socks.Proofs.Association.Directions
import Socks.Proofs.DatagramCodec

/-!
# What an association sends back

What reaches the outer socket of an association is put into a datagram that names its source and
goes to the client, from the moment on at which there is a client.

Main statements: putting it into a datagram never fails, and the client can take it out again
(`Datagram.encode_wrapped`, `Datagram.parse_wrapped`); `Association.back_start` tells from what has
happened what is sent back.
-/

namespace Socks

/-! ### One datagram -/

namespace Datagram

/-- The octets of a datagram with what has come from a source: two zeros, no fragment number, the
source and the payload. -/
def wrapped (source : Endpoint) (payload : Bytes) : Bytes :=
  0 :: 0 :: 0 :: (Address.encodeLiteral (some source.ip) source.port ++ payload)

/-- Whatever the source and the payload, there is a datagram with them. -/
theorem encode_wrapped (source : Endpoint) (payload : Bytes) :
    (whole (.ofEndpoint source) payload).encode = .ok (wrapped source payload) :=
  encode_eq_ok_iff.mpr ⟨_, Address.encodeV5_of_no_name rfl, rfl⟩

theorem parse_wrapped (source : Endpoint) (payload : Bytes) :
    parse (wrapped source payload) = .ok ⟨0, ⟨"", some source.ip, source.port⟩, payload⟩ :=
  parse_eq_ok_iff.mpr
    ⟨Address.definite_literal source.ip source.port, encode_wrapped source payload⟩

end Datagram

namespace Association

open Datagram

variable {resolve : Answers} {a : Association} {sockets : Sockets} {there : Address}
  {client : Endpoint} {past events : List Event} {e : Event}

/-! ### From what has happened -/

/-- What has come from a source is sent to the client, unless the inner socket refuses. -/
def returned? (inner client : Endpoint) (arrived : Endpoint × Packet) : Option Sending :=
  if arrived.2.carried then some ⟨inner, client, wrapped arrived.1 arrived.2.bytes⟩ else none

/-- What reaches the outer socket, each with its source. -/
def arrivedOutside (events : List Event) : List (Endpoint × Packet) :=
  events.filterMap fun
    | .outerReceives source packet => some (source, packet)
    | _ => none

/-- The events after the datagram that makes its source the owner. -/
def sinceOwner (there : Address) : List Event → List Event
  | [] => []
  | .innerReceives source _ :: later =>
    if there.otherHost? source = none then later else sinceOwner there later
  | .innerFails _ :: _ => []
  | _ :: later => sinceOwner there later

/-- The outer socket can still be heard. -/
def audible : Event → Bool
  | .outerFails _ => false
  | _ => true

/-- What is sent back by an association that was asked for with the destination `there`: what has
reached the outer socket since there is a client, in order. -/
def returned (inner : Endpoint) (there : Address) (events : List Event) : List Sending :=
  match owner? there events with
  | none => []
  | some client =>
    (arrivedOutside (sinceOwner there (events.takeWhile audible))).filterMap
      (returned? inner client)

theorem via_returned {inner : Endpoint} :
    ∀ d ∈ returned inner there events, d.via = inner := by
  intro d hd
  unfold returned at hd
  split at hd
  · cases hd
  · obtain ⟨arrived, -, hsent⟩ := List.mem_filterMap.mp hd
    unfold returned? at hsent
    split_ifs at hsent
    cases hsent
    rfl

section first

variable {inner : Endpoint}

theorem returned_of_quiet (howner : owner? there [e] = none) (hinner : innerFailure? [e] = none)
    (houter : outerFailure? [e] = none) (events : List Event) :
    returned inner there (e :: events) = returned inner there events := by
  cases e with
  | innerReceives source packet =>
      have hknown : ¬there.otherHost? source = none := by
        intro hknown
        rw [owner?, if_pos hknown] at howner
        cases howner
      have hsame : ∀ later, sinceOwner there (.innerReceives source packet :: later) =
          sinceOwner there later := fun later => if_neg hknown
      have hclient : owner? there (.innerReceives source packet :: events) = owner? there events :=
        if_neg hknown
      rw [returned, returned, hclient, List.takeWhile_cons_of_pos rfl, hsame]
  | innerFails error => cases hinner
  | outerFails error => cases houter
  | _ => rfl

theorem returned_of_first (howner : owner? there [e] = some client) (events : List Event) :
    returned inner there (e :: events) =
      (arrivedOutside (events.takeWhile audible)).filterMap (returned? inner client) := by
  cases e with
  | innerReceives source packet =>
      rw [owner?] at howner
      split_ifs at howner with hknown
      · cases howner
        have hclient : owner? there (.innerReceives client packet :: events) = some client :=
          if_pos hknown
        have hsince : sinceOwner there (.innerReceives client packet :: events.takeWhile audible) =
            events.takeWhile audible := if_pos hknown
        rw [returned, hclient, List.takeWhile_cons_of_pos rfl, hsince]
      · cases howner
  | _ => cases howner

theorem owner?_of_innerFailure (hinner : ¬innerFailure? [e] = none) : owner? there [e] = none := by
  cases e with
  | innerFails error => rfl
  | _ => exact absurd rfl hinner

theorem returned_of_innerFailure (hinner : ¬innerFailure? [e] = none) (events : List Event) :
    returned inner there (e :: events) = [] := by
  cases e with
  | innerFails error => rfl
  | _ => exact absurd rfl hinner

theorem returned_of_outerFailure (houter : ¬outerFailure? [e] = none) (events : List Event) :
    returned inner there (e :: events) = [] := by
  cases e with
  | outerFails error =>
      unfold returned
      split
      · rfl
      · rfl
  | _ => exact absurd rfl houter

end first

/-! ### What an association does -/

/-- What is sent back about a datagram that reaches the outer socket. -/
theorem Follows.sendings_deliver (h : Follows there sockets past a) (source : Endpoint)
    (packet : Packet) :
    sendings (a.deliver source packet) =
      if outerFailure? past = none then
        ((owner? there past).bind fun client =>
          returned? sockets.inner client (source, packet)).toList
      else [] := by
  rw [← h.outerError, ← h.client, ← h.sockets]
  unfold Association.deliver returned?
  rw [encode_wrapped]
  cases a.outerError? with
  | some error => rfl
  | none =>
      cases a.client? with
      | none => rfl
      | some client =>
          rw [if_pos rfl]
          unfold send
          dsimp only [Option.bind_some]
          split_ifs <;> rfl

/-- Nothing is ever sent back any more: the outer socket has failed, or the inner one has before
there was a client. -/
def Mute (there : Address) (past : List Event) : Prop :=
  outerFailure? past ≠ none ∨ owner? there past = none ∧ innerFailure? past ≠ none

theorem Mute.append (h : Mute there past) (more : List Event) : Mute there (past ++ more) := by
  rcases h with houter | ⟨howner, hinner⟩
  · refine .inl ?_
    rw [outerFailure?_append]
    cases hfailed : outerFailure? past with
    | none => exact absurd hfailed houter
    | some error => simp
  · refine .inr ⟨?_, ?_⟩
    · rw [owner?_append, howner, if_neg hinner]
      rfl
    · rw [innerFailure?_append]
      cases hfailed : innerFailure? past with
      | none => exact absurd hfailed hinner
      | some error => simp

section following

variable (hexpected : sockets.expected? = there.literalHost?)

include hexpected

theorem Follows.back_of_mute (h : Follows there sockets past a) (hmute : Mute there past)
    (events : List Event) : sendings (a.backAll resolve events) = [] := by
  induction events generalizing past a with
  | nil => rfl
  | cons e events ih =>
      have hlater := ih (h.after hexpected resolve e).1 (hmute.append [e])
      rw [backAll_cons, sendings_append, hlater, List.append_nil]
      cases e with
      | outerReceives source packet =>
          refine (h.sendings_deliver source packet).trans ?_
          rcases hmute with houter | ⟨howner, -⟩
          · rw [if_neg houter]
          · rw [howner]
            split_ifs <;> rfl
      | _ => rfl

theorem Follows.back_of_owner (h : Follows there sockets past a)
    (howner : owner? there past = some client) (houter : outerFailure? past = none)
    (events : List Event) :
    sendings (a.backAll resolve events) =
      (arrivedOutside (events.takeWhile audible)).filterMap
        (returned? sockets.inner client) := by
  induction events generalizing past a with
  | nil => rfl
  | cons e events ih =>
      have hnext := (h.after hexpected resolve e).1
      have hstays := owner?_stays howner [e]
      have hgoes : outerFailure? [e] = none → outerFailure? (past ++ [e]) = none := by
        intro hnone
        rw [outerFailure?_append, houter, hnone]
        rfl
      rw [backAll_cons, sendings_append]
      cases e with
      | outerReceives source packet =>
          have hback : sendings (a.back (.outerReceives source packet)) =
              (returned? sockets.inner client (source, packet)).toList := by
            refine (h.sendings_deliver source packet).trans ?_
            rw [if_pos houter, howner]
            rfl
          rw [hback, ih hnext hstays (hgoes rfl)]
          show _ = List.filterMap _ ((source, packet) :: arrivedOutside (events.takeWhile audible))
          cases hsent : returned? sockets.inner client (source, packet) with
          | none => rw [List.filterMap_cons_none hsent]; rfl
          | some d => rw [List.filterMap_cons_some hsent]; rfl
      | outerFails error =>
          have hmute : Mute there (past ++ [.outerFails error]) := by
            refine .inl ?_
            rw [outerFailure?_append, houter]
            simp [outerFailure?]
          rw [hnext.back_of_mute hexpected hmute]
          rfl
      | _ =>
          rw [ih hnext hstays (hgoes rfl)]
          rfl

theorem Follows.back_of_nobody (h : Follows there sockets past a) (hnone : owner? there past = none)
    (hinner : innerFailure? past = none) (houter : outerFailure? past = none)
    (events : List Event) :
    sendings (a.backAll resolve events) = returned sockets.inner there events := by
  induction events generalizing past a with
  | nil => rfl
  | cons e events ih =>
      have hnext := (h.after hexpected resolve e).1
      have howner : owner? there (past ++ [e]) = owner? there [e] := by
        rw [owner?_append, hnone, if_pos hinner]
        rfl
      have hinner' : innerFailure? (past ++ [e]) = innerFailure? [e] := by
        rw [innerFailure?_append, hinner, Option.none_or]
      have houter' : outerFailure? (past ++ [e]) = outerFailure? [e] := by
        rw [outerFailure?_append, houter, Option.none_or]
      have hback : sendings (a.back e) = [] := by
        cases e with
        | outerReceives source packet =>
            refine (h.sendings_deliver source packet).trans ?_
            rw [hnone, if_pos houter]
            rfl
        | _ => rfl
      rw [backAll_cons, sendings_append, hback, List.nil_append]
      by_cases hfails : outerFailure? [e] = none
      · by_cases hlost : innerFailure? [e] = none
        · cases hfirst : owner? there [e] with
          | none =>
              rw [returned_of_quiet hfirst hlost hfails]
              exact ih hnext (howner.trans hfirst) (hinner'.trans hlost) (houter'.trans hfails)
          | some client =>
              rw [returned_of_first hfirst]
              have houters := houter'.trans hfails
              exact hnext.back_of_owner hexpected (howner.trans hfirst) houters events
        · have hmute : Mute there (past ++ [e]) := by
            refine .inr ⟨howner.trans (owner?_of_innerFailure hlost), ?_⟩
            rwa [hinner']
          rw [hnext.back_of_mute hexpected hmute, returned_of_innerFailure hlost]
      · have hmute : Mute there (past ++ [e]) := by
          refine .inl ?_
          rwa [houter']
        rw [hnext.back_of_mute hexpected hmute, returned_of_outerFailure hfails]

end following

/-- What an association sends back is told by what has happened. -/
theorem back_start (hexpected : sockets.expected? = there.literalHost?) (resolve : Answers)
    (events : List Event) :
    sendings ((start sockets).backAll resolve events) = returned sockets.inner there events :=
  (follows_start there sockets).back_of_nobody hexpected rfl rfl rfl events

end Association

end Socks
