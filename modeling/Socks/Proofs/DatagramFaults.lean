import Socks.Proofs.DatagramCodec
import Socks.Proofs.Dialogue.Truncation
import Socks.Proofs.RequestFaults

/-!
# Octets that are no datagram

A datagram is all there at once, and the reader of addresses is made for streams. Where it meets the
end of its input the header has been cut short, and this is a fault of the datagram: no datagram
ever looks like a connection that broke. `Datagram.Fault` tells what is wrong first with octets that
are no datagram (`Datagram.parse_eq_error_iff`).

Main statement: `Datagram.parse_faults`.
-/

namespace Socks

open Dialogue

namespace Datagram

variable {d : Datagram} {address : Address} {bytes input rest heard part : Bytes} {f : Failure}

/-! ### What is wrong -/

/-- What is wrong first with octets that are no datagram: they are too few to begin with, the octets
that are reserved, or the address, which may be cut short. -/
inductive Fault : Bytes → Failure → Prop
  | shortHeader {bytes : Bytes} : bytes.length < 3 → Fault bytes (.protocol .shortDatagramHeader)
  | reserved {high low : UInt8} (fragment : UInt8) (rest : Bytes) :
      ¬(high = 0 ∧ low = 0) → Fault (high :: low :: fragment :: rest)
        (.protocol (.reservedWord (Block.mk [high, low] rfl : Block 2).word))
  | address (fragment : UInt8) {input rest : Bytes} {f : Failure} :
      AddressFault input rest f → Fault (0 :: 0 :: fragment :: input) (cutShort f)

theorem parse_of_short (h : bytes.length < 3) :
    parse bytes = .error (.protocol .shortDatagramHeader) := by
  match bytes, h with
  | [], _ | [_], _ | [_, _], _ => rfl

theorem parse_of_fails (fragment : UInt8) (h : (Address.read .v5).Fails input rest f) :
    parse (0 :: 0 :: fragment :: input) = .error (cutShort f) := by
  rw [parse_header, h]

/-- Octets are no datagram because of what is wrong with them first. -/
theorem parse_eq_error_iff : parse bytes = .error f ↔ Fault bytes f := by
  constructor
  · intro h
    match bytes with
    | [] | [_] | [_, _] =>
        cases h
        exact .shortHeader (by simp)
    | high :: low :: fragment :: input =>
        by_cases hz : high = 0 ∧ low = 0
        · obtain ⟨rfl, rfl⟩ := hz
          cases ho : ((Address.read .v5).eval input).result with
          | ok address =>
              rw [parse_header] at h
              simp only [ho] at h
              cases h
          | error e =>
              obtain ⟨rest, hfails⟩ := (Address.listens_read .v5).result_eq_error_iff.mp ho
              rw [parse_of_fails fragment hfails] at h
              cases h
              exact .address fragment (Address.fails_readV5_iff.mp hfails)
        · rw [parse_of_reserved hz] at h
          cases h
          exact .reserved fragment input hz
  · intro h
    cases h with
    | shortHeader hlt => exact parse_of_short hlt
    | reserved fragment rest hz => exact parse_of_reserved hz
    | address fragment h => exact parse_of_fails fragment (Address.fails_readV5_iff.mpr h)

/-- The end of the input is a fault of the datagram, as all others are, but for the type of an
address. -/
theorem cutShort_of_addressFault (h : AddressFault input rest f) :
    (∃ fault, cutShort f = .protocol fault) ∨
      ∃ type, cutShort f = .addressTypeNotSupported type ∧
        ∃ left, input = type :: left ∧ type ≠ 1 ∧ type ≠ 3 ∧ type ≠ 4 := by
  cases h with
  | shortPort => exact .inl ⟨_, rfl⟩
  | host h =>
      cases h with
      | @unknownType type rest h₁ h₃ h₄ => exact .inr ⟨type, rfl, rest, rfl, h₁, h₃, h₄⟩
      | _ => exact .inl ⟨_, rfl⟩

theorem Fault.protocol_or_type (h : Fault bytes f) :
    (∃ fault, f = .protocol fault) ∨
      ∃ type, f = .addressTypeNotSupported type ∧
        ∃ fragment rest, bytes = 0 :: 0 :: fragment :: type :: rest ∧
          type ≠ 1 ∧ type ≠ 3 ∧ type ≠ 4 := by
  cases h with
  | shortHeader => exact .inl ⟨_, rfl⟩
  | reserved => exact .inl ⟨_, rfl⟩
  | address fragment h =>
      rcases cutShort_of_addressFault h with hf | ⟨type, hf, left, rfl, hne⟩
      · exact .inl hf
      · exact .inr ⟨type, hf, fragment, left, rfl, hne⟩

theorem parse_eq_addressTypeNotSupported_iff {type : UInt8} :
    parse bytes = .error (.addressTypeNotSupported type) ↔
      ∃ fragment rest, bytes = 0 :: 0 :: fragment :: type :: rest ∧
        type ≠ 1 ∧ type ≠ 3 ∧ type ≠ 4 := by
  constructor
  · intro h
    rcases (parse_eq_error_iff.mp h).protocol_or_type with ⟨fault, hf⟩ | ⟨type', hf, hbytes⟩
    · cases hf
    · cases hf
      exact hbytes
  · rintro ⟨fragment, rest, rfl, h₁, h₃, h₄⟩
    exact parse_eq_error_iff.mpr (.address fragment (.host (.unknownType rest h₁ h₃ h₄)))

/-! ### What is cut short -/

/-- A datagram is a header, in which an address is read, and a payload. -/
theorem exists_reads (h : parse bytes = .ok d) :
    ∃ heard, bytes = 0 :: 0 :: d.fragment :: (heard ++ d.payload) ∧
      (Address.read .v5).Reads heard d.address := by
  obtain ⟨rest, said, rfl, ho⟩ := parse_eq_ok_iff_eval.mp h
  obtain ⟨-, heard, rfl, hreads⟩ := (Address.listens_read .v5).eval_eq_ok_iff.mp ho
  exact ⟨heard, rfl, hreads⟩

theorem parse_of_reads (h : (Address.read .v5).Reads heard address) (fragment : UInt8)
    (payload : Bytes) :
    parse (0 :: 0 :: fragment :: (heard ++ payload)) = .ok ⟨fragment, address, payload⟩ :=
  parse_eq_ok_iff_eval.mpr ⟨heard ++ payload, [], rfl, h.eval_eq payload⟩

/-- An address that is cut short makes the datagram too short. -/
theorem parse_of_cut (h : (Address.read .v5).Reads heard address) (fragment : UInt8)
    (hpart : part <+: heard) (hne : part ≠ heard) :
    parse (0 :: 0 :: fragment :: part) = .error (.protocol .shortDatagramAddress) := by
  obtain ⟨field, spoken, -, hcut⟩ := h.eval_cut hpart hne
  rw [parse_header, hcut]
  exact congrArg Except.error (if_pos field.kind_endOfInput)

/-- The header of a datagram that was cut to `n` octets is there, or it is not. -/
theorem parse_take (h : (Address.read .v5).Reads heard address) (fragment : UInt8)
    (payload : Bytes) (n : Nat) :
    parse ((0 :: 0 :: fragment :: (heard ++ payload)).take n) =
      if n < 3 then .error (.protocol .shortDatagramHeader)
      else if n < 3 + heard.length then .error (.protocol .shortDatagramAddress)
      else .ok ⟨fragment, address, payload.take (n - (3 + heard.length))⟩ := by
  split_ifs with hheader haddress
  · apply parse_of_short
    rw [List.length_take]
    omega
  · obtain ⟨k, rfl⟩ : ∃ k, n = k + 3 := ⟨n - 3, by omega⟩
    have hk : k < heard.length := by omega
    simp only [List.take_succ_cons]
    rw [List.take_append_of_le_length (Nat.le_of_lt hk)]
    apply parse_of_cut h fragment (List.take_prefix k heard)
    intro he
    have hlen := congrArg List.length he
    rw [List.length_take] at hlen
    omega
  · obtain ⟨k, rfl⟩ : ∃ k, n = heard.length + k + 3 := ⟨n - 3 - heard.length, by omega⟩
    simp only [List.take_succ_cons]
    rw [List.take_length_add_append]
    have hpayload : heard.length + k + 3 - (3 + heard.length) = k := by omega
    rw [hpayload]
    exact parse_of_reads h fragment _

/-- To take octets apart never fails as a connection does. It fails for the type of an address
exactly when another type than the three that there are follows two zeros and the number of the
fragment. A datagram of which only a first part is left has lost some of its payload, if its header
is there; and without a part of its header it is none. -/
theorem parse_faults :
    (∀ bytes, (∃ d, parse bytes = .ok d) ∨ (∃ fault, parse bytes = .error (.protocol fault)) ∨
      ∃ type, parse bytes = .error (.addressTypeNotSupported type)) ∧
    (∀ bytes e, parse bytes ≠ .error (.transport e)) ∧
    (∀ bytes type, parse bytes = .error (.addressTypeNotSupported type) ↔
      ∃ fragment rest, bytes = 0 :: 0 :: fragment :: type :: rest ∧
        type ≠ 1 ∧ type ≠ 3 ∧ type ≠ 4) ∧
    ∀ bytes d, parse bytes = .ok d → ∃ header, bytes = header ++ d.payload ∧
      (∀ n, n < header.length → parse (bytes.take n) =
        .error (.protocol (if n < 3 then .shortDatagramHeader else .shortDatagramAddress))) ∧
      ∀ n, header.length ≤ n → parse (bytes.take n) =
        .ok { d with payload := d.payload.take (n - header.length) } := by
  refine ⟨fun bytes => ?_, fun bytes e h => ?_, fun bytes type =>
    parse_eq_addressTypeNotSupported_iff, fun bytes d h => ?_⟩
  · cases h : parse bytes with
    | ok d => exact .inl ⟨d, rfl⟩
    | error f =>
        rcases (parse_eq_error_iff.mp h).protocol_or_type with ⟨fault, rfl⟩ | ⟨type, rfl, -⟩
        · exact .inr (.inl ⟨fault, rfl⟩)
        · exact .inr (.inr ⟨type, rfl⟩)
  · rcases (parse_eq_error_iff.mp h).protocol_or_type with ⟨fault, hf⟩ | ⟨type, hf, -⟩
    · cases hf
    · cases hf
  · obtain ⟨heard, rfl, hreads⟩ := exists_reads h
    have htake := parse_take hreads d.fragment d.payload
    have hlength : (0 :: 0 :: d.fragment :: heard).length = 3 + heard.length := by
      simp only [List.length_cons]
      omega
    refine ⟨0 :: 0 :: d.fragment :: heard, rfl, fun n hn => ?_, fun n hn => ?_⟩
    · rw [hlength] at hn
      rw [htake n, if_pos hn]
      split_ifs <;> rfl
    · rw [hlength] at hn ⊢
      rw [htake n, if_neg (by omega), if_neg (by omega)]

/-- A datagram for a host by name, which has eight octets before its payload: without the last octet
it is another datagram, without the last octet of its port it is none. -/
theorem parse_faults_cut :
    let octets : Bytes := [0, 0, 7, 3, 1, 97, 0, 53, 104, 105]
    parse octets = .ok ⟨7, .named "a" 53, [104, 105]⟩ ∧
    parse (octets.take 9) = .ok ⟨7, .named "a" 53, [104]⟩ ∧
    parse (octets.take 7) = .error (.protocol .shortDatagramAddress) ∧
    parse [0, 0, 7, 2] = .error (.addressTypeNotSupported 2) := by
  intro octets
  obtain ⟨-, -, htype, hcut⟩ := parse_faults
  have hread : parse octets = .ok ⟨7, .named "a" 53, [104, 105]⟩ := rfl
  obtain ⟨header, hoctets, hshort, hlong⟩ := hcut octets _ hread
  have hlength : header.length = 8 := by
    have h : 10 = (header ++ [104, 105]).length := congrArg List.length hoctets
    simp only [List.length_append, List.length_cons, List.length_nil] at h
    omega
  have hpayload := hlong 9 (by omega)
  rw [hlength] at hpayload
  exact ⟨hread, hpayload, hshort 7 (by omega),
    (htype _ 2).mpr ⟨7, [], rfl, by decide, by decide, by decide⟩⟩

end Datagram

end Socks
