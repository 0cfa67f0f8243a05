import Socks.Proofs.Dialogue.Resumption
import Socks.Proofs.Handshake

/-!
# Addresses and their forms determine each other

The SOCKS5 form is spelled by one address only, and the readers accept nothing but what is written.
`Address.Definite` tells which addresses have a form that is read back: those that give a name or a
literal, and not both.

Main statements: `Address.eval_readV5_iff` and `Address.eval_readV4_iff` tell what is read, by what
is written; `Address.codec_inverse` states both directions for both versions.
-/

namespace Socks

open Dialogue

namespace Address

variable {a : Address} {bytes input rest said : Bytes} {version : Version}

/-- An address that gives its host in one way, by a name or by a literal. -/
def Definite (a : Address) : Prop := a.name ≠ "" ↔ a.ip? = none

theorem definite_literal (ip : IpAddress) (port : UInt16) : (literal ip port).Definite := by
  simp [Definite, literal]

theorem definite_named {host : String} (h : host ≠ "") (port : UInt16) :
    (named host port).Definite := by
  simp [Definite, named, h]

theorem definite_iff :
    a.Definite ↔ (∃ ip port, a = literal ip port) ∨
      ∃ host port, host ≠ "" ∧ a = named host port := by
  constructor
  · intro h
    obtain ⟨name, ip?, port⟩ := a
    cases ip? with
    | none => exact .inr ⟨name, port, h.mpr rfl, rfl⟩
    | some ip =>
        obtain rfl : name = "" := by
          by_contra hname
          cases h.mp hname
        exact .inl ⟨ip, port, rfl⟩
  · rintro (⟨ip, port, rfl⟩ | ⟨host, port, h, rfl⟩)
    · exact definite_literal ip port
    · exact definite_named h port

/-! ### What is written -/

/-- Whatever a buffer holds, writing an address in the form of a version puts these octets after
it. -/
def Writes (version : Version) (a : Address) (bytes : Bytes) : Prop :=
  ∀ buffer, (a.write version).on buffer = (.ok (), buffer ++ bytes)

theorem writes_of_encode (h : a.encode version = .ok bytes) : a.Writes version bytes := by
  intro buffer
  rw [on_write, h]

theorem length_encodeV4 (a : Address) : a.encodeV4.length = 6 := by
  have hport := (Block.ofWord a.port).length_bytes
  unfold encodeV4
  rw [List.length_append, hport]
  split
  · rename_i octets _
    rw [octets.length_bytes]
  · rw [(Block.zero 4).length_bytes]

theorem encodeV5_of_no_name (h : a.name = "") :
    a.encode .v5 = .ok (encodeLiteral a.ip? a.port) := by
  show a.encodeV5 = _
  rw [encodeV5, if_pos h]

theorem encodeV5_of_name (h : a.name ≠ "") :
    a.encode .v5 =
      if (Text.toBytes a.name).length ≤ 255 then
        .ok (3 :: (counted (Text.toBytes a.name) ++ (Block.ofWord a.port).bytes))
      else .error (.protocol (.domainTooLong (Text.toBytes a.name).length)) := by
  show a.encodeV5 = _
  rw [encodeV5, if_neg h]
  rfl

/-- An address has a SOCKS5 form unless its name is too long for a length octet. -/
theorem encodeV5_of_short (h : (Text.toBytes a.name).length ≤ 255) :
    ∃ bytes, a.encode .v5 = .ok bytes := by
  by_cases hname : a.name = ""
  · exact ⟨_, encodeV5_of_no_name hname⟩
  · rw [encodeV5_of_name hname, if_pos h]
    exact ⟨_, rfl⟩

theorem encodeV5_of_long (h : 255 < (Text.toBytes a.name).length) :
    a.encode .v5 = .error (.protocol (.domainTooLong (Text.toBytes a.name).length)) := by
  have hname : a.name ≠ "" := by
    intro he
    rw [he, Text.toBytes_empty] at h
    cases h
  rw [encodeV5_of_name hname, if_neg (Nat.not_le.mpr h)]

/-! ### What is read -/

/-- The octets that spell an address are its form, if it is definite. -/
theorem spelledV5_iff : a.SpelledV5 bytes ↔ a.Definite ∧ a.encode .v5 = .ok bytes := by
  constructor
  · intro h
    cases h with
    | v4 octets port => exact ⟨definite_literal _ port, rfl⟩
    | v6 octets port => exact ⟨definite_literal _ port, rfl⟩
    | @name host port hne hlt =>
        refine ⟨definite_named hne port, ?_⟩
        exact (encodeV5_of_name hne).trans (if_pos (Nat.le_of_lt_succ hlt))
  · rintro ⟨hd, he⟩
    rcases definite_iff.mp hd with ⟨ip, port, rfl⟩ | ⟨host, port, hne, rfl⟩
    · cases ip with
      | v4 octets =>
          cases he
          exact .v4 octets port
      | v6 octets =>
          cases he
          exact .v6 octets port
    · rw [encodeV5_of_name hne] at he
      split_ifs at he with hle
      cases he
      exact .name port hne (Nat.lt_succ_of_le hle)

/-- In SOCKS5 an address is read exactly where its form stands. -/
theorem eval_readV5_iff :
    (read .v5).eval input = ⟨.ok a, rest, said⟩ ↔
      said = [] ∧ a.Definite ∧ ∃ bytes, a.encode .v5 = .ok bytes ∧ input = bytes ++ rest := by
  rw [(listens_read .v5).eval_eq_ok_iff]
  simp only [reads_readV5_iff, spelledV5_iff]
  constructor
  · rintro ⟨hsaid, bytes, hinput, hd, he⟩
    exact ⟨hsaid, hd, bytes, he, hinput⟩
  · rintro ⟨hsaid, hd, bytes, he, hinput⟩
    exact ⟨hsaid, bytes, hinput, hd, he⟩

/-- In SOCKS4 exactly the IPv4 addresses are read, where their forms stand. -/
theorem eval_readV4_iff :
    (read .v4).eval input = ⟨.ok a, rest, said⟩ ↔
      said = [] ∧ (∃ octets port, a = literal (.v4 octets) port) ∧ input = a.encodeV4 ++ rest := by
  rw [(listens_read .v4).eval_eq_ok_iff]
  constructor
  · rintro ⟨hsaid, heard, rfl, h⟩
    obtain ⟨port, octets, rfl, rfl⟩ := reads_readV4_iff.mp h
    exact ⟨hsaid, ⟨octets, port, rfl⟩, rfl⟩
  · rintro ⟨hsaid, ⟨octets, port, rfl⟩, rfl⟩
    exact ⟨hsaid, _, rfl, reads_readV4_iff.mpr ⟨port, octets, rfl, rfl⟩⟩

/-- Writing and reading an address undo each other. In SOCKS5 only a name of more than 255 octets
cannot be written, and then the buffer stays as it was; a definite address that is written is read
back, and what follows it is left. Whatever is read, by contrast, is what its address is written as,
octet for octet. In SOCKS4 every address is written as six octets, and the IPv4 addresses are the
ones that are read back. -/
theorem codec_inverse :
    (∀ a : Address,
      (255 < (Text.toBytes a.name).length → ∀ buffer, (a.write .v5).on buffer =
        (.error (.protocol (.domainTooLong (Text.toBytes a.name).length)), buffer)) ∧
      ((Text.toBytes a.name).length ≤ 255 → ∃ bytes, a.Writes .v5 bytes ∧
        (a.Definite → ∀ rest, (read .v5).eval (bytes ++ rest) = ⟨.ok a, rest, []⟩))) ∧
    (∀ input a rest said, (read .v5).eval input = ⟨.ok a, rest, said⟩ →
      ∃ bytes, a.Writes .v5 bytes ∧ bytes ++ rest = input) ∧
    (∀ a : Address, ∃ bytes, bytes.length = 6 ∧ a.Writes .v4 bytes) ∧
    (∀ octets port, ∃ bytes, (literal (.v4 octets) port).Writes .v4 bytes ∧
      ∀ rest, (read .v4).eval (bytes ++ rest) = ⟨.ok (literal (.v4 octets) port), rest, []⟩) ∧
    ∀ input a rest said, (read .v4).eval input = ⟨.ok a, rest, said⟩ →
      (∃ octets port, a = literal (.v4 octets) port) ∧
        ∃ bytes, a.Writes .v4 bytes ∧ bytes ++ rest = input := by
  refine ⟨fun a => ⟨fun hlong buffer => ?_, fun hshort => ?_⟩, fun input a rest said h => ?_,
    fun a => ?_, fun octets port => ?_, fun input a rest said h => ?_⟩
  · rw [on_write, encodeV5_of_long hlong]
  · obtain ⟨bytes, he⟩ := encodeV5_of_short hshort
    refine ⟨bytes, writes_of_encode he, fun hd rest => ?_⟩
    exact eval_readV5_iff.mpr ⟨rfl, hd, bytes, he, rfl⟩
  · obtain ⟨-, -, bytes, he, rfl⟩ := eval_readV5_iff.mp h
    exact ⟨bytes, writes_of_encode he, rfl⟩
  · exact ⟨a.encodeV4, a.length_encodeV4, writes_of_encode rfl⟩
  · refine ⟨_, writes_of_encode rfl, fun rest => ?_⟩
    exact eval_readV4_iff.mpr ⟨rfl, ⟨octets, port, rfl⟩, rfl⟩
  · obtain ⟨-, hliteral, rfl⟩ := eval_readV4_iff.mp h
    exact ⟨hliteral, _, writes_of_encode rfl, rfl⟩

/-- A name of one letter that takes two octets, one that is a letter too long, and what is read of
the form of 127.0.0.1. -/
theorem codec_inverse_name :
    let long := String.ofList (List.replicate 256 'a')
    let sent : Bytes := [1, 127, 0, 0, 1, 0, 80, 9]
    (∃ bytes, (named "é" 80).Writes .v5 bytes ∧
      (read .v5).eval (bytes ++ [9]) = ⟨.ok (named "é" 80), [9], []⟩) ∧
    ((named long 80).write .v5).on [9] = (.error (.protocol (.domainTooLong 256)), [9]) ∧
    ∃ bytes, (literal (.ofOctets 127 0 0 1) 80).Writes .v5 bytes ∧ bytes ++ [9] = sent := by
  intro long sent
  have hlong : (Text.toBytes (named long 80).name).length = 256 := by decide +kernel
  refine ⟨?_, ?_, ?_⟩
  · obtain ⟨bytes, hw, hr⟩ := (codec_inverse.1 (named "é" 80)).2 (by decide)
    exact ⟨bytes, hw, hr (definite_named (by decide) 80) [9]⟩
  · have h := (codec_inverse.1 (named long 80)).1 (by rw [hlong]; decide) [9]
    rwa [hlong] at h
  · exact codec_inverse.2.1 sent _ [9] [] rfl

end Address

end Socks
