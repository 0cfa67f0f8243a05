import Socks.Proofs.Dialogue.Truncation
import Socks.Proofs.Handshake

/-!
# The messages of a handshake delimit themselves

No message of a client is followed by a mark or by the end of the input: a destination, a request, a
name with its password and an offer of methods tell by their own octets where they end. The server
takes them whatever follows, and takes none of them before its last octet has come.

Main statement: `Handshake.self_delimiting`, for the readers of destinations and requests of both
versions and for both exchanges of the authentication.
-/

namespace Socks

open Dialogue

namespace Address

/-- The octets of a destination in the form of a version. -/
def Spelled : Version → Address → Bytes → Prop
  | .v4, a, octets => ∃ (port : UInt16) (quad : Block 4), a = .literal (.v4 quad) port ∧
      octets = (Block.ofWord port).bytes ++ quad.bytes
  | .v5, a, octets => a.SpelledV5 octets

theorem reads_read_iff_spelled {version : Version} {a : Address} {heard : Bytes} :
    (read version).Reads heard a ↔ Spelled version a heard := by
  cases version with
  | v4 => exact reads_readV4_iff
  | v5 => exact reads_readV5_iff

theorem reaches_read_iff {version : Version} {a : Address} {heard said : Bytes} :
    (read version).Reaches heard said (finish (.ok a)) ↔ Spelled version a heard ∧ said = [] := by
  rw [(listens_read version).reaches_ok_iff, reads_read_iff_spelled]

end Address

theorem Request.reaches_read_iff {version : Version} {r : Request} {heard said : Bytes} :
    (read version).Reaches heard said (finish (.ok r)) ↔ Spelled version r heard ∧ said = [] := by
  rw [(listens_read version).reaches_ok_iff, reads_read_iff]

namespace Handshake

open Authentication

/-- The messages of a client delimit themselves: destinations and requests of both versions, which
are read without a word; a name and a password that a store accepts, which are welcomed; and an
exchange about methods by which a client settles on an identity. -/
theorem self_delimiting :
    (∀ version, (Address.read version).Delimits fun a octets said =>
      Address.Spelled version a octets ∧ said = []) ∧
    (∀ version, (Request.read version).Delimits fun r octets said =>
      Request.Spelled version r octets ∧ said = []) ∧
    (∀ store, (password store).Delimits fun user octets said =>
      ∃ pass, Admits store user pass ∧ octets = login user pass ∧ said = [1, 0]) ∧
    ∀ a, (negotiate a).Delimits (Settles a) := by
  refine ⟨fun version => ?_, fun version => ?_, fun store => ?_, fun a => ?_⟩
  · exact delimits_of_reaches_iff fun _ _ _ => Address.reaches_read_iff
  · exact delimits_of_reaches_iff fun _ _ _ => Request.reaches_read_iff
  · exact delimits_of_reaches_iff fun _ _ _ => reaches_password_iff
  · exact delimits_of_reaches_iff fun _ _ _ => reaches_negotiate_iff

/-- A client that offers passwords and shows the right one is let in, and what it sends then is
left; of the 9 octets of its exchange the first 5 are too little, although a method has been chosen.
A request by name is not taken before the last octet of its port. -/
theorem self_delimiting_cut :
    let a := Authenticator.credentials (fun user pass => user = "u" && pass = "pw") true
    let offer : Bytes := [2, 0, 2]
    let octets := offer ++ login "u" "pw"
    let request : Bytes := [5, 1, 0, 3, 1, 97, 0, 80]
    ((negotiate a).eval (octets ++ [5]) = ⟨.ok (.user .userPass "u"), [5], [5, 2, 1, 0]⟩ ∧
      ∃ e spoken, spoken <+: [5, 2, 1, 0] ∧ e.kind = .unexpectedEof ∧
        (negotiate a).eval [2, 0, 2, 1, 1] = ⟨.error (.transport e), [], spoken⟩) ∧
    (Request.read .v5).eval (request ++ [9]) =
      ⟨.ok ⟨.v5, .connect, .named "a" 80, .anonymous, none⟩, [9], []⟩ ∧
    ∃ e, e.kind = .unexpectedEof ∧
      (Request.read .v5).eval [5, 1, 0, 3, 1, 97, 0] = ⟨.error (.transport e), [], []⟩ := by
  intro a offer octets request
  obtain ⟨-, hrequest, -, hnegotiate⟩ := self_delimiting
  have hselect : a.select? [0, 2] = some .userPass := rfl
  have hadmits : Admits a.store "u" "pw" := ⟨by decide, by decide, by decide, by decide⟩
  have hsettles : Settles a (.user .userPass "u") octets [5, 2, 1, 0] :=
    .user (by decide) (by decide) hselect hadmits
  have hok : (negotiate a).eval (octets ++ [5]) =
      ⟨.ok (.user .userPass "u"), [5], [5, 2, 1, 0]⟩ :=
    ((hnegotiate a).succeeds _ _ _ _).mpr ⟨octets, rfl, hsettles⟩
  have hspelled : Request.Spelled .v5 ⟨.v5, .connect, .named "a" 80, .anonymous, none⟩ request :=
    .mk .connect (.name 80 (by decide) (by decide))
  have hread : (Request.read .v5).eval (request ++ [9]) =
      ⟨.ok ⟨.v5, .connect, .named "a" 80, .anonymous, none⟩, [9], []⟩ :=
    ((hrequest .v5).succeeds _ _ _ _).mpr ⟨request, rfl, hspelled, rfl⟩
  refine ⟨⟨hok, ?_⟩, hread, ?_⟩
  · exact (hnegotiate a).truncated octets _ _ _ hok [2, 0, 2, 1, 1] (by decide) (by decide)
  · obtain ⟨e, spoken, hspoken, he, hcut⟩ :=
      (hrequest .v5).truncated request _ _ _ hread [5, 1, 0, 3, 1, 97, 0] (by decide) (by decide)
    obtain rfl := List.prefix_nil.mp hspoken
    exact ⟨e, he, hcut⟩

end Handshake

end Socks
