import Socks.Datagram
import Socks.Proofs.AddressCodec

/-!
# Datagrams and their octets determine each other

A datagram is read from its octets, and from no others: what looks like a header inside a payload
remains payload.

Main statements: `Datagram.parse_eq_ok_iff` tells what is read by what is put together;
`Datagram.round_trip` states both directions.
-/

namespace Socks

namespace Datagram

variable {d : Datagram} {bytes : Bytes}

theorem encode_eq_ok_iff :
    d.encode = .ok bytes ↔
      ∃ form, d.address.encode .v5 = .ok form ∧
        bytes = 0 :: 0 :: d.fragment :: (form ++ d.payload) := by
  show (d.address.encode .v5 >>= fun form =>
    (.ok (0 :: 0 :: d.fragment :: form ++ d.payload) : Except Failure Bytes)) = .ok bytes ↔ _
  cases d.address.encode .v5 with
  | error f => simp [bind, Except.bind]
  | ok form =>
      simp only [bind, Except.bind, Except.ok.injEq, exists_eq_left']
      exact eq_comm

theorem reserved_eq_zero_iff {high low : UInt8} :
    (Block.mk [high, low] rfl : Block 2).word = 0 ↔ high = 0 ∧ low = 0 := by
  constructor
  · intro h
    have hb := Block.ofWord_word ⟨[high, low], rfl⟩
    rw [h] at hb
    cases hb
    exact ⟨rfl, rfl⟩
  · rintro ⟨rfl, rfl⟩
    rfl

/-- A reserved word that is not zero fails the datagram, whatever follows. -/
theorem parse_of_reserved {high low fragment : UInt8} {rest : Bytes} (h : ¬(high = 0 ∧ low = 0)) :
    parse (high :: low :: fragment :: rest) =
      .error (.protocol (.reservedWord (Block.mk [high, low] rfl : Block 2).word)) :=
  if_pos (reserved_eq_zero_iff.not.mpr h)

theorem parse_header (fragment : UInt8) (rest : Bytes) :
    parse (0 :: 0 :: fragment :: rest) =
      let o := (Address.read .v5).eval rest
      match o.result with
      | .ok address => .ok ⟨fragment, address, o.rest⟩
      | .error f => .error (cutShort f) := rfl

/-- A datagram is taken apart after two zeros and the number of its fragment; what the reader of the
address leaves is the payload. -/
theorem parse_eq_ok_iff_eval :
    parse bytes = .ok d ↔
      ∃ rest said, bytes = 0 :: 0 :: d.fragment :: rest ∧
        (Address.read .v5).eval rest = ⟨.ok d.address, d.payload, said⟩ := by
  constructor
  · intro h
    match bytes with
    | [] | [_] | [_, _] => cases h
    | high :: low :: fragment :: rest =>
        by_cases hz : high = 0 ∧ low = 0
        · obtain ⟨rfl, rfl⟩ := hz
          rw [parse_header] at h
          rcases ho : (Address.read .v5).eval rest with ⟨_ | address, left, said⟩
          · rw [ho] at h
            cases h
          · rw [ho] at h
            cases h
            exact ⟨rest, said, rfl, ho⟩
        · rw [parse_of_reserved hz] at h
          cases h
  · rintro ⟨rest, said, rfl, ho⟩
    rw [parse_header, ho]

/-- A datagram is read exactly from its octets, if its address is definite. -/
theorem parse_eq_ok_iff :
    parse bytes = .ok d ↔ d.address.Definite ∧ d.encode = .ok bytes := by
  rw [parse_eq_ok_iff_eval, encode_eq_ok_iff]
  constructor
  · rintro ⟨rest, said, rfl, h⟩
    obtain ⟨-, hd, form, he, rfl⟩ := Address.eval_readV5_iff.mp h
    exact ⟨hd, form, he, rfl⟩
  · rintro ⟨hd, form, he, rfl⟩
    exact ⟨form ++ d.payload, [], rfl, Address.eval_readV5_iff.mpr ⟨rfl, hd, form, he, rfl⟩⟩

theorem encode_of_short (h : (Text.toBytes d.address.name).length ≤ 255) :
    ∃ bytes, d.encode = .ok bytes := by
  obtain ⟨form, he⟩ := Address.encodeV5_of_short h
  exact ⟨_, encode_eq_ok_iff.mpr ⟨form, he, rfl⟩⟩

/-- Where a payload begins depends on nothing in it. -/
theorem exists_header (h : parse bytes = .ok d) :
    ∃ header, bytes = header ++ d.payload ∧
      ∀ payload, parse (header ++ payload) = .ok { d with payload := payload } := by
  obtain ⟨hd, he⟩ := parse_eq_ok_iff.mp h
  obtain ⟨form, hform, rfl⟩ := encode_eq_ok_iff.mp he
  refine ⟨0 :: 0 :: d.fragment :: form, rfl, fun payload => ?_⟩
  exact parse_eq_ok_iff.mpr ⟨hd, encode_eq_ok_iff.mpr ⟨form, hform, rfl⟩⟩

/-- Putting a datagram together and taking it apart undo each other. A datagram with a definite
address, whose name is short enough to be written, is put together and read back, whatever its
fragment number and its payload; octets that are read are those that the datagram is put together
to. Hence no two are read alike, and the payload is what follows a header, whatever the payload. -/
theorem round_trip :
    (∀ d : Datagram, d.address.Definite → (Text.toBytes d.address.name).length ≤ 255 →
      ∃ bytes, d.encode = .ok bytes ∧ parse bytes = .ok d) ∧
    (∀ bytes d, parse bytes = .ok d → d.encode = .ok bytes) ∧
    (∀ bytes bytes' d, parse bytes = .ok d → parse bytes' = .ok d → bytes = bytes') ∧
    ∀ bytes d, parse bytes = .ok d →
      ∃ header, bytes = header ++ d.payload ∧
        ∀ payload, parse (header ++ payload) = .ok { d with payload := payload } := by
  refine ⟨fun d hd hshort => ?_, fun bytes d h => (parse_eq_ok_iff.mp h).2,
    fun bytes bytes' d h h' => ?_, fun bytes d h => exists_header h⟩
  · obtain ⟨bytes, he⟩ := encode_of_short hshort
    exact ⟨bytes, he, parse_eq_ok_iff.mpr ⟨hd, he⟩⟩
  · have he := (parse_eq_ok_iff.mp h).2
    have he' := (parse_eq_ok_iff.mp h').2
    exact Except.ok.inj (he.symm.trans he')

/-- A fragment for a host by name, whose payload begins like a header. -/
theorem round_trip_fragment :
    let d : Datagram := ⟨7, .named "a.b" 53, [0, 0, 0, 1, 127, 0, 0, 1, 0, 80]⟩
    let octets : Bytes := [0, 0, 7, 3, 3, 97, 46, 98, 0, 53, 0, 0, 0, 1, 127, 0, 0, 1, 0, 80]
    (∃ bytes, d.encode = .ok bytes ∧ parse bytes = .ok d) ∧ d.encode = .ok octets ∧
      ∃ header, octets = header ++ d.payload ∧
        ∀ payload, parse (header ++ payload) = .ok { d with payload := payload } := by
  intro d octets
  have hread : parse octets = .ok d := rfl
  refine ⟨?_, ?_, ?_⟩
  · exact round_trip.1 d (Address.definite_named (by decide) 53) (by decide)
  · exact round_trip.2.1 octets d hread
  · exact round_trip.2.2.2 octets d hread

end Datagram

end Socks
