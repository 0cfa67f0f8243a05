import Socks.Proofs.AddressCodec
import Socks.Proofs.Session.Pursuit

/-!
# Replies can be written, and can be read back

A reply gives an address by number. The address may come with a name of any length, or with nothing
but a port: the name is left out, and no number is `0.0.0.0`. So the branch in which an address has
no form is out of reach, and the reader of addresses takes all that follows the status.

Main statement: `Reply.encode_reads_back`.
-/

namespace Socks

open Dialogue

namespace Address

theorem length_encodeLiteral (ip : IpAddress) (port : UInt16) :
    (encodeLiteral (some ip) port).length =
      match ip with
      | .v4 _ => 7
      | .v6 _ => 19 := by
  have hport := (Block.ofWord port).length_bytes
  unfold encodeLiteral
  rw [List.length_append, hport]
  cases ip with
  | v4 octets => rw [List.length_cons, octets.length_bytes]
  | v6 octets => rw [List.length_cons, octets.length_bytes]

/-- The form of a literal address does not begin like that of a name. -/
theorem head?_encodeLiteral (ip : IpAddress) (port : UInt16) :
    (encodeLiteral (some ip) port).head? ≠ some 3 := by
  cases ip <;> simp [encodeLiteral, typeV4, typeV6]

/-- The octets of a literal address are all read. -/
theorem eval_readV5_encodeLiteral (ip : IpAddress) (port : UInt16) :
    (read .v5).eval (encodeLiteral (some ip) port) = ⟨.ok (literal ip port), [], []⟩ :=
  eval_readV5_iff.mpr ⟨rfl, definite_literal ip port, _, rfl, (List.append_nil _).symm⟩

end Address

namespace Reply

variable {version : Version} {status : Status} {bound? : Option Address}

/-- The number that is given for an address: none is given as `0.0.0.0`. -/
def number (bound? : Option Address) : IpAddress := (bound?.bind Address.ip?).getD .anyV4

/-- The number in SOCKS4, which has no others than those of IPv4. -/
def numberV4 (bound? : Option Address) : Block 4 :=
  match number bound? with
  | .v4 octets => octets
  | .v6 _ => Block.zero 4

/-- The port that is given for an address: no address has port 0. -/
def port (bound? : Option Address) : UInt16 := (bound?.map Address.port).getD 0

theorem encode_v5 (status : Status) (bound? : Option Address) :
    (Reply.mk .v5 status bound?).encode =
      .ok ([5, status.code, 0] ++ Address.encodeLiteral (some (number bound?)) (port bound?)) := by
  rw [encode_eq_ok_bytes]
  rcases bound? with _ | ⟨name, _ | ip, port⟩ <;> rfl

theorem grantCode_eq (status : Status) :
    status.grantCode = if status = .success then 0x5A else 0x5B := by
  cases status <;> rfl

theorem encode_v4 (status : Status) (bound? : Option Address) :
    (Reply.mk .v4 status bound?).encode =
      .ok ([0, if status = .success then 0x5A else 0x5B] ++
        (Address.literal (.v4 (numberV4 bound?)) (port bound?)).encodeV4) := by
  rw [encode_eq_ok_bytes, ← grantCode_eq]
  rcases bound? with _ | ⟨name, _ | octets | octets, port⟩ <;> rfl

/-- Every reply can be written. In SOCKS5 it is the version, the status and a zero, and then an
address that reads back as the number and the port that were given; it is never a name, and the
reply has 22 octets in IPv6 and 10 otherwise. In SOCKS4 it tells granted from rejected, in 8 octets.
No address is as good as `0.0.0.0:0`. To send a reply is to write these octets and no others,
however many of them the stream takes at once. -/
theorem encode_reads_back (status : Status) (bound? : Option Address) :
    (∃ bytes form : Bytes, (Reply.mk .v5 status bound?).encode = .ok bytes ∧
      bytes = [5, status.code, 0] ++ form ∧
      (Address.read .v5).eval form =
        ⟨.ok (.literal (number bound?) (port bound?)), [], []⟩ ∧
      form.head? ≠ some 3 ∧
      bytes.length =
        match number bound? with
        | .v4 _ => 10
        | .v6 _ => 22) ∧
    (∃ bytes form : Bytes, (Reply.mk .v4 status bound?).encode = .ok bytes ∧
      bytes = [0, if status = .success then 0x5A else 0x5B] ++ form ∧
      (Address.read .v4).eval form =
        ⟨.ok (.literal (.v4 (numberV4 bound?)) (port bound?)), [], []⟩ ∧
      bytes.length = 8) ∧
    (∀ version, (Reply.bare version status).encode =
      (Reply.mk version status (some (.literal (.ofOctets 0 0 0 0) 0))).encode) ∧
    ∀ version bytes, (Reply.mk version status bound?).encode = .ok bytes →
      (∀ s : Stream, s.Takes bytes.length →
        s.writeAll (Reply.mk version status bound?).bytes = (.ok (), s.wrote bytes)) ∧
      ∀ (out : Surroundings) rules next (s : Session), s.control.Takes bytes.length →
        Session.pursue out rules (.reply ⟨version, status, bound?⟩ next) s =
          Session.pursue out rules next { s with control := s.control.wrote bytes } := by
  refine ⟨⟨_, _, encode_v5 status bound?, rfl, Address.eval_readV5_encodeLiteral _ _,
    Address.head?_encodeLiteral _ _, ?_⟩, ⟨_, _, encode_v4 status bound?, rfl, ?_, ?_⟩, ?_, ?_⟩
  · rw [List.length_append, Address.length_encodeLiteral]
    cases number bound? <;> rfl
  · exact Address.eval_readV4_iff.mpr ⟨rfl, ⟨_, _, rfl⟩, (List.append_nil _).symm⟩
  · rw [List.length_append, Address.length_encodeV4]
    rfl
  · intro version
    cases version <;> rfl
  · intro version bytes he
    rw [encode_eq_ok_bytes] at he
    cases he
    exact ⟨fun s ht => Stream.writeAll_of_takes ht,
      fun out rules next s ht => Session.pursue_reply ht next⟩

/-- An address with a name and a number of IPv6: the reply gives the number in SOCKS5 and `0.0.0.0`
in SOCKS4. A stream that takes one octet at once is given all of it. -/
theorem encode_reads_back_named :
    let loopback : Block 16 := ⟨List.replicate 15 0 ++ [1], rfl⟩
    let bound? : Option Address := some ⟨"localhost", some (.v6 loopback), 443⟩
    let slow : Stream := { Stream.idle with writeChunk? := some ⟨1, Nat.one_pos⟩ }
    let bytes : Bytes := [0, 0x5B, 1, 187, 0, 0, 0, 0]
    (∃ bytes form : Bytes, (Reply.mk .v5 .hostUnreachable bound?).encode = .ok bytes ∧
      bytes = [5, 4, 0] ++ form ∧ bytes.length = 22 ∧
      (Address.read .v5).eval form = ⟨.ok (.literal (.v6 loopback) 443), [], []⟩) ∧
    (Reply.mk .v4 .hostUnreachable bound?).encode = .ok bytes ∧
    slow.writeAll (Reply.mk .v4 .hostUnreachable bound?).bytes = (.ok (), slow.wrote bytes) := by
  intro loopback bound? slow bytes
  obtain ⟨⟨octets, form, he, hform, hread, -, hlength⟩, -, -, hsend⟩ :=
    encode_reads_back .hostUnreachable bound?
  have hbytes : (Reply.mk .v4 .hostUnreachable bound?).encode = .ok bytes := by
    rw [encode_eq_ok_bytes, show (Reply.mk .v4 .hostUnreachable bound?).bytes = bytes by decide]
  have htakes : slow.Takes bytes.length := Stream.takes_of_faultless rfl _
  exact ⟨⟨octets, form, he, hform, hlength, hread⟩, hbytes, (hsend .v4 bytes hbytes).1 slow htakes⟩

end Reply

end Socks
