import Socks.Proofs.Association

/-!
# Datagrams that are dropped

Why an association drops a datagram of the client side, and what is left of it. A datagram whose
source the association does not expect, or that comes when it has a client, is as if it had never
come, whatever follows; while a name is looked up it waits like any other, and is dropped later.

Main statements: the reasons for which datagrams are dropped (`Association.fate_eq_dropped_iff`);
two associations of which one still has to drop a datagram do the same about an event, and differ
in no more after it (`Association.Agree.after`).
-/

namespace Socks

namespace Association

variable {resolve : Answers} {a b : Association} {source client : Endpoint} {packet : Packet}
  {events : List Event} {e : Event}

/-! ### Why datagrams are dropped -/

/-- Why a datagram of the client side is dropped: it comes from another host than the one that is
expected, or from another source than the client; it cannot be taken apart, or it is a fragment. -/
inductive Unfit (a : Association) (source : Endpoint) (packet : Packet) : Prop
  | otherHost : a.expects source = false → Unfit a source packet
  | otherSource {client : Endpoint} :
      a.client? = some client → client ≠ source → Unfit a source packet
  | malformed {f : Failure} : Datagram.parse packet.bytes = .error f → Unfit a source packet
  | fragment {d : Datagram} :
      Datagram.parse packet.bytes = .ok d → d.isFragment = true → Unfit a source packet

/-- Whether a datagram of a source would make it the client. -/
def Pins (a : Association) (source : Endpoint) : Prop :=
  a.expects source = true ∧ a.client? = none

theorem learn_of_pins (h : a.Pins source) : a.learn source = { a with client? := some source } :=
  if_pos h

theorem learn_of_not_pins (h : ¬a.Pins source) : a.learn source = a := if_neg h

theorem not_pins_of_client (h : a.client? = some client) (source : Endpoint) :
    ¬a.Pins source := by
  rintro ⟨-, hnone⟩
  rw [h] at hnone
  cases hnone

theorem route_eq_dropped_iff :
    route packet = .dropped ↔
      (∃ f, Datagram.parse packet.bytes = .error f) ∨
        ∃ d, Datagram.parse packet.bytes = .ok d ∧ d.isFragment = true := by
  unfold route
  cases hparse : Datagram.parse packet.bytes with
  | error f => simp
  | ok d =>
      simp only [reduceCtorEq, exists_false, Except.ok.injEq, exists_eq_left', false_or]
      split_ifs with hfragment
      · simp [hfragment]
      · cases d.address.endpoint? <;> simp [hfragment]

/-- What an association owns after a datagram had its chance to bring a client: what the client
sends. -/
theorem owns_learn_iff :
    (a.learn source).owns source = true ↔
      a.expects source = true ∧ ∀ client, a.client? = some client → client = source := by
  by_cases hpins : a.Pins source
  · rw [learn_of_pins hpins, owns, Bool.and_eq_true]
    have hexpects : ({ a with client? := some source } : Association).expects source =
        a.expects source := rfl
    simp [hexpects, hpins.1, hpins.2]
  · rw [learn_of_not_pins hpins, owns, Bool.and_eq_true, beq_iff_eq]
    refine and_congr_right fun hexpects => ?_
    cases hclient : a.client? with
    | none => exact absurd ⟨hexpects, hclient⟩ hpins
    | some client => simp

/-- A datagram is dropped for one of these reasons, and for no other. -/
theorem fate_eq_dropped_iff : a.fate source packet = .dropped ↔ a.Unfit source packet := by
  unfold fate
  constructor
  · intro h
    split_ifs at h with howns
    · rcases route_eq_dropped_iff.mp h with ⟨f, hf⟩ | ⟨d, hd, hfragment⟩
      · exact .malformed hf
      · exact .fragment hd hfragment
    · rw [owns_learn_iff, not_and_or, not_forall] at howns
      rcases howns with hexpects | ⟨client, hclient⟩
      · exact .otherHost (Bool.not_eq_true _ ▸ hexpects)
      · obtain ⟨hclient, hne⟩ := Classical.not_imp.mp hclient
        exact .otherSource hclient hne
  · intro h
    split_ifs with howns
    · obtain ⟨hexpects, hclient⟩ := owns_learn_iff.mp howns
      cases h with
      | otherHost hno =>
          rw [hexpects] at hno
          cases hno
      | otherSource hsome hne => exact absurd (hclient _ hsome) hne
      | malformed hf => exact route_eq_dropped_iff.mpr (.inl ⟨_, hf⟩)
      | fragment hd hfragment => exact route_eq_dropped_iff.mpr (.inr ⟨_, hd, hfragment⟩)
    · rfl

/-- A datagram that brings a client and is dropped cannot be taken apart, or is a fragment. -/
theorem Unfit.of_pins (h : a.Unfit source packet) (hpins : a.Pins source) :
    route packet = .dropped := by
  cases h with
  | otherHost hno =>
      rw [hpins.1] at hno
      cases hno
  | otherSource hsome _ =>
      rw [hpins.2] at hsome
      cases hsome
  | malformed hf => exact route_eq_dropped_iff.mpr (.inl ⟨_, hf⟩)
  | fragment hd hfragment => exact route_eq_dropped_iff.mpr (.inr ⟨_, hd, hfragment⟩)

/-- To drop a datagram is to do nothing, once its source had its chance to become the client. -/
theorem Unfit.handle_eq (h : a.Unfit source packet) (resolve : Answers) :
    a.handle resolve source packet = (a.learn source, []) := by
  simp only [handle, fate_eq_dropped_iff.mpr h]

/-- Whether a datagram is dropped depends on the sockets of an association and on its client. -/
theorem Unfit.congr (h : a.Unfit source packet) (hsockets : b.sockets = a.sockets)
    (hclient : b.client? = a.client?) : b.Unfit source packet := by
  cases h with
  | otherHost hno =>
      refine .otherHost ?_
      rw [← hno, expects, expects, hsockets]
  | otherSource hsome hne => exact .otherSource (hclient.trans hsome) hne
  | malformed hf => exact .malformed hf
  | fragment hd hfragment => exact .fragment hd hfragment

/-! ### Associations between events -/

/-- What holds of an association between events: nothing waits but for a look-up, and none is under
way before there is a client. -/
structure Steady (a : Association) : Prop where
  known : ∀ p, a.parcel? = some p → ∃ client, a.client? = some client
  idle : a.parcel? = none → a.waiting = []

theorem steady_start (sockets : Sockets) : (start sockets).Steady :=
  ⟨nofun, fun _ => rfl⟩

theorem Steady.handle (h : a.Steady) (hp : a.parcel? = none) (resolve : Answers) (source : Endpoint)
    (packet : Packet) : (a.handle resolve source packet).1.Steady := by
  obtain ⟨parcel?, hnext, horigin, -⟩ := handle_cases resolve a source packet
  rw [hnext]
  refine ⟨fun p hparcel => ?_, fun _ => ?_⟩
  · rcases horigin with hsame | ⟨hclient, -⟩
    · have hsome : parcel? = some p := hparcel
      rw [hsame, hp] at hsome
      cases hsome
    · exact ⟨source, hclient⟩
  · rw [learn_eq]
    exact h.idle hp

theorem Steady.answer (h : a.Steady) (resolve : Answers) (ip : Except IoError IpAddress) :
    (a.answer resolve ip).1.Steady := by
  cases hp : a.parcel? with
  | none =>
      have hsame : a.answer resolve ip = (a, []) := by simp [Association.answer, hp]
      rwa [hsame]
  | some p =>
      obtain ⟨client, hclient⟩ := h.known p hp
      obtain ⟨parcel?, waiting, hlast, -, hidle, -⟩ :=
        @handleAll_cases { a with parcel? := none, waiting := [] } client resolve hclient rfl
          a.waiting
      rw [answer_of_busy hp, hlast]
      exact ⟨fun _ _ => ⟨client, hclient⟩, hidle⟩

theorem Steady.receive (h : a.Steady) (resolve : Answers) (source : Endpoint) (packet : Packet) :
    (a.receive resolve source packet).1.Steady := by
  cases herror : a.innerError? with
  | some error => rwa [receive_of_failed herror]
  | none =>
      cases hp : a.parcel? with
      | some p =>
          rw [receive_of_busy herror hp]
          refine ⟨h.known, fun hnone => ?_⟩
          have hnone' : a.parcel? = none := hnone
          rw [hp] at hnone'
          cases hnone'
      | none =>
          rw [receive_of_idle herror hp (h.idle hp)]
          exact h.handle hp resolve source packet

/-- Every event leaves an association steady. -/
theorem Steady.after (h : a.Steady) (resolve : Answers) (e : Event) :
    (a.after resolve e).1.Steady := by
  cases e with
  | resolved ip => exact h.answer resolve ip
  | innerReceives source packet => exact h.receive resolve source packet
  | innerFails error => exact ⟨h.known, fun _ => rfl⟩
  | outerFails error => exact ⟨h.known, h.idle⟩
  | _ => exact h

/-! ### Associations that differ in a datagram to be dropped -/

/-- Two associations that are the same, but for a datagram which waits in the first one and will be
dropped. -/
inductive Agree (source : Endpoint) (packet : Packet) : Association → Association → Prop
  | same (a : Association) : Agree source packet a a
  | waits {a : Association} {p : Parcel} {client : Endpoint}
      (before after : List (Endpoint × Packet)) :
      a.parcel? = some p → a.client? = some client → a.Unfit source packet →
      a.waiting = before ++ (source, packet) :: after →
        Agree source packet a { a with waiting := before ++ after }

theorem Agree.client?_eq (h : Agree source packet a b) : a.client? = b.client? := by
  cases h <;> rfl

theorem Agree.result_eq (h : Agree source packet a b) : a.result = b.result := by
  cases h <;> rfl

theorem handleAll_cons_of_idle (h : a.parcel? = none) (d : Endpoint × Packet)
    (ds : List (Endpoint × Packet)) :
    a.handleAll resolve (d :: ds) =
      (((a.handle resolve d.1 d.2).1.handleAll resolve ds).1,
        (a.handle resolve d.1 d.2).2 ++ ((a.handle resolve d.1 d.2).1.handleAll resolve ds).2) := by
  simp [handleAll, h]

/-- Datagrams that wait in a row, one of which will be dropped. -/
theorem Agree.of_parcel {p : Parcel} (hp : a.parcel? = some p) (hclient : a.client? = some client)
    (hunfit : a.Unfit source packet) (before after : List (Endpoint × Packet)) :
    Agree source packet { a with waiting := before ++ (source, packet) :: after }
      { a with waiting := before ++ after } := by
  have hwaits := @Agree.waits source packet
    { a with waiting := before ++ (source, packet) :: after } p client before after hp hclient
    (hunfit.congr rfl rfl) rfl
  exact hwaits

/-- Of datagrams that are treated in a row, one that is dropped makes no difference: it is dropped
where its turn comes, or it waits with those after it. -/
theorem agree_handleAll (hclient : a.client? = some client) (hidle : a.waiting = [])
    (hunfit : a.Unfit source packet) (before after : List (Endpoint × Packet)) :
    (a.handleAll resolve (before ++ (source, packet) :: after)).2 =
        (a.handleAll resolve (before ++ after)).2 ∧
      Agree source packet (a.handleAll resolve (before ++ (source, packet) :: after)).1
        (a.handleAll resolve (before ++ after)).1 := by
  induction before generalizing a with
  | nil =>
      rw [List.nil_append, List.nil_append]
      cases hp : a.parcel? with
      | some p =>
          rw [handleAll_of_parcel hp hidle, handleAll_of_parcel hp hidle]
          exact ⟨rfl, .of_parcel hp hclient hunfit [] after⟩
      | none =>
          rw [handleAll_cons_of_idle hp, hunfit.handle_eq, learn_of_client hclient]
          exact ⟨rfl, .same _⟩
  | cons x before ih =>
      rw [List.cons_append, List.cons_append]
      cases hp : a.parcel? with
      | some p =>
          rw [handleAll_of_parcel hp hidle, handleAll_of_parcel hp hidle]
          exact ⟨rfl, .of_parcel hp hclient hunfit (x :: before) after⟩
      | none =>
          obtain ⟨parcel?, hnext, -⟩ := handle_cases resolve a x.1 x.2
          rw [learn_of_client hclient] at hnext
          rw [handleAll_cons_of_idle hp, handleAll_cons_of_idle hp, hnext]
          obtain ⟨hactions, hagree⟩ :=
            @ih { a with parcel? := parcel? } hclient hidle (hunfit.congr rfl rfl)
          refine ⟨?_, hagree⟩
          dsimp only
          rw [hactions]

/-- The answer to a look-up lets a datagram be dropped, or leaves it waiting. -/
theorem Agree.answer (h : Agree source packet a b) (resolve : Answers)
    (ip : Except IoError IpAddress) :
    (a.answer resolve ip).2 = (b.answer resolve ip).2 ∧
      Agree source packet (a.answer resolve ip).1 (b.answer resolve ip).1 := by
  cases h with
  | same => exact ⟨rfl, .same _⟩
  | @waits p client before later hp hclient hunfit hwaiting =>
      obtain ⟨hactions, hagree⟩ :=
        @agree_handleAll resolve { a with parcel? := none, waiting := [] } source client packet
          hclient rfl (hunfit.congr rfl rfl) before later
      have hp' : { a with waiting := before ++ later }.parcel? = some p := hp
      rw [answer_of_busy hp, answer_of_busy hp', hwaiting]
      refine ⟨?_, hagree⟩
      dsimp only
      rw [hactions]
      rfl

/-- Another datagram waits behind the one that will be dropped. -/
theorem Agree.receive (h : Agree source packet a b) (resolve : Answers) (source' : Endpoint)
    (packet' : Packet) :
    (a.receive resolve source' packet').2 = (b.receive resolve source' packet').2 ∧
      Agree source packet (a.receive resolve source' packet').1
        (b.receive resolve source' packet').1 := by
  cases h with
  | same => exact ⟨rfl, .same _⟩
  | @waits p client before later hp hclient hunfit hwaiting =>
      have hp' : { a with waiting := before ++ later }.parcel? = some p := hp
      rcases Option.eq_none_or_eq_some a.innerError? with herror | ⟨error, herror⟩
      · have herror' : { a with waiting := before ++ later }.innerError? = none := herror
        rw [receive_of_busy herror hp, receive_of_busy herror' hp', hwaiting, List.append_assoc,
          List.append_assoc, List.cons_append]
        exact ⟨rfl, .of_parcel hp hclient hunfit before (later ++ [(source', packet')])⟩
      · have herror' : { a with waiting := before ++ later }.innerError? = some error := herror
        rw [receive_of_failed herror, receive_of_failed herror']
        exact ⟨rfl, .waits before later hp hclient hunfit hwaiting⟩

/-- Associations that differ in a datagram to be dropped do the same about an event. -/
theorem Agree.after (h : Agree source packet a b) (resolve : Answers) (e : Event) :
    (a.after resolve e).2 = (b.after resolve e).2 ∧
      Agree source packet (a.after resolve e).1 (b.after resolve e).1 := by
  cases e with
  | resolved ip => exact h.answer resolve ip
  | innerReceives source' packet' => exact h.receive resolve source' packet'
  | outerReceives source' packet' =>
      refine ⟨?_, h⟩
      cases h <;> rfl
  | innerFails error =>
      refine ⟨rfl, ?_⟩
      cases h <;> exact .same _
  | outerFails error =>
      refine ⟨rfl, ?_⟩
      cases h with
      | same => exact .same _
      | waits before later hp hclient hunfit hwaiting =>
          exact @Agree.waits source packet (a.failOuter error) _ _ before later hp hclient
            (hunfit.congr rfl rfl) hwaiting
  | _ => exact ⟨rfl, h⟩

/-! ### What a dropped datagram leaves behind -/

/-- A dropped datagram that does not bring a client leaves an association as if it had not come. -/
theorem Unfit.agree (h : a.Unfit source packet) (hs : a.Steady) (hpins : ¬a.Pins source)
    (resolve : Answers) :
    (a.receive resolve source packet).2 = [] ∧
      Agree source packet (a.receive resolve source packet).1 a ∧
      (a.parcel? = none → (a.receive resolve source packet).1 = a) := by
  cases herror : a.innerError? with
  | some error =>
      rw [receive_of_failed herror]
      exact ⟨rfl, .same a, fun _ => rfl⟩
  | none =>
      cases hp : a.parcel? with
      | some p =>
          obtain ⟨client, hclient⟩ := hs.known p hp
          have hwaits := Agree.of_parcel hp hclient h a.waiting []
          rw [List.append_nil] at hwaits
          rw [receive_of_busy herror hp]
          exact ⟨rfl, hwaits, nofun⟩
      | none =>
          rw [receive_of_idle herror hp (hs.idle hp), h.handle_eq, learn_of_not_pins hpins]
          exact ⟨rfl, .same a, fun _ => rfl⟩

/-- A dropped datagram that brings a client leaves it to an association, and nothing else. -/
theorem Unfit.receive_of_pins (h : a.Unfit source packet) (hs : a.Steady) (hpins : a.Pins source)
    (herror : a.innerError? = none) (resolve : Answers) :
    a.receive resolve source packet = ({ a with client? := some source }, []) := by
  have hp : a.parcel? = none := by
    cases hparcel : a.parcel? with
    | none => rfl
    | some p =>
        obtain ⟨client, hclient⟩ := hs.known p hparcel
        exact absurd hpins (not_pins_of_client hclient source)
  rw [receive_of_idle herror hp (hs.idle hp), h.handle_eq, learn_of_pins hpins]

end Association

end Socks
