import Socks.Request.Reader
import Socks.Proofs.Dialogue

/-!
# How requests are spelled

The octets of destinations and requests as a grammar, independent of the way they are read, and the
readers of `Address.Codec` and `Request.Reader` as recognisers of that grammar. A reader succeeds
after hearing some octets exactly when they spell its result: `Address.reads_readV5_iff`,
`Request.reads_readV4_iff`, `Request.reads_readV5_iff`.
-/

namespace Socks

open Dialogue

/-- Octets after their number. -/
def counted (bytes : Bytes) : Bytes := UInt8.ofNat bytes.length :: bytes

theorem toNat_ofNat_length {bytes : Bytes} (h : bytes.length < 256) :
    (UInt8.ofNat bytes.length).toNat = bytes.length := by
  simpa using h

theorem ofNat_length_ne_zero {bytes : Bytes} (h : bytes.length < 256) (hne : bytes ≠ []) :
    UInt8.ofNat bytes.length ≠ 0 := by
  intro he
  have hlen := toNat_ofNat_length h
  rw [he] at hlen
  exact hne (List.length_eq_zero_iff.mp hlen.symm)

namespace Block

/-- A block whose length is an octet follows that octet. -/
theorem counted_bytes {n : UInt8} (b : Block n.toNat) : counted b.bytes = n :: b.bytes := by
  simp [counted, b.length_bytes, UInt8.ofNat_toNat]

theorem length_bytes_lt {n : UInt8} (b : Block n.toNat) : b.bytes.length < 256 := by
  have hn := n.toNat_lt
  rw [b.length_bytes]
  omega

theorem bytes_ne_nil {n : UInt8} (b : Block n.toNat) (h : n ≠ 0) : b.bytes ≠ [] := by
  intro he
  have hlen := b.length_bytes
  rw [he] at hlen
  exact h (UInt8.toNat_inj.mp hlen.symm)

end Block

/-! ### Destinations -/

namespace Address

/-- The octets of a destination in SOCKS5: a type, then four octets, sixteen octets or a name after
its length, and the port. -/
inductive SpelledV5 : Address → Bytes → Prop
  | v4 (octets : Block 4) (port : UInt16) :
      SpelledV5 (.literal (.v4 octets) port) (1 :: (octets.bytes ++ (Block.ofWord port).bytes))
  | v6 (octets : Block 16) (port : UInt16) :
      SpelledV5 (.literal (.v6 octets) port) (4 :: (octets.bytes ++ (Block.ofWord port).bytes))
  | name {host : String} (port : UInt16) :
      host ≠ "" → (Text.toBytes host).length < 256 →
        SpelledV5 (.named host port)
          (3 :: (counted (Text.toBytes host) ++ (Block.ofWord port).bytes))

variable {heard : Bytes} {a : Address}

theorem reads_readV4_iff :
    readV4.Reads heard a ↔
      ∃ port octets, a = .literal (.v4 octets) port ∧
        heard = (Block.ofWord port).bytes ++ octets.bytes := by
  constructor
  · intro h
    obtain ⟨port, _, _, rfl, hp, h₁⟩ := reads_bind_iff.mp h
    obtain ⟨octets, _, _, rfl, ho, h₂⟩ := reads_bind_iff.mp h₁
    obtain rfl := reads_word_iff.mp hp
    obtain rfl := reads_block_iff.mp ho
    obtain ⟨rfl, rfl⟩ := reads_pure_iff.mp h₂
    exact ⟨port, octets, rfl, by rw [List.append_nil]⟩
  · rintro ⟨port, octets, rfl, rfl⟩
    exact (reads_word port).bind ((reads_block octets).bind_pure _)

theorem reads_readName_iff {length : UInt8} {host : String} :
    (readName length).Reads heard host ↔
      length ≠ 0 ∧ heard = Text.toBytes host ∧ heard.length = length.toNat := by
  unfold readName
  split_ifs with hl
  · simp only [reject, not_reads_fail, hl, ne_eq, not_true_eq_false, false_and]
  constructor
  · intro h
    obtain ⟨name, _, _, rfl, hn, h₁⟩ := reads_bind_iff.mp h
    obtain rfl := reads_block_iff.mp hn
    split at h₁
    · rename_i text ht
      obtain ⟨rfl, rfl⟩ := reads_pure_iff.mp h₁
      rw [List.append_nil]
      exact ⟨hl, Text.ofBytes?_eq_some_iff.mp ht, name.length_bytes⟩
    · exact absurd h₁ not_reads_fail
  · rintro ⟨-, rfl, hlen⟩
    have hname := reads_block (⟨Text.toBytes host, hlen⟩ : Block length.toNat)
    refine reads_bind_iff.mpr ⟨_, _, [], (List.append_nil _).symm, hname, ?_⟩
    simp only [Text.ofBytes?_toBytes]
    exact reads_pure _

/-- A literal address and a port, as all literals are read. -/
theorem reads_literal_iff {n : Nat} {f : Block n → IpAddress} :
    (do let octets ← Dialogue.block n
        return Address.literal (f octets) (← Dialogue.word) : Dialogue Address).Reads heard a ↔
      ∃ octets port, a = .literal (f octets) port ∧
        heard = octets.bytes ++ (Block.ofWord port).bytes := by
  constructor
  · intro h
    obtain ⟨octets, _, _, rfl, ho, h₁⟩ := reads_bind_iff.mp h
    obtain ⟨port, _, _, rfl, hp, h₂⟩ := reads_bind_iff.mp h₁
    obtain rfl := reads_block_iff.mp ho
    obtain rfl := reads_word_iff.mp hp
    obtain ⟨rfl, rfl⟩ := reads_pure_iff.mp h₂
    exact ⟨octets, port, rfl, by rw [List.append_nil]⟩
  · rintro ⟨octets, port, rfl, rfl⟩
    exact (reads_block octets).bind ((reads_word port).bind_pure _)

theorem reads_named_iff :
    (do let name ← readName (← Dialogue.byte)
        return Address.named name (← Dialogue.word) : Dialogue Address).Reads heard a ↔
      ∃ host port, a = .named host port ∧ host ≠ "" ∧ (Text.toBytes host).length < 256 ∧
        heard = counted (Text.toBytes host) ++ (Block.ofWord port).bytes := by
  constructor
  · intro h
    obtain ⟨length, _, _, rfl, hb, h₁⟩ := reads_bind_iff.mp h
    obtain ⟨host, _, _, rfl, hn, h₂⟩ := reads_bind_iff.mp h₁
    obtain ⟨port, _, _, rfl, hp, h₃⟩ := reads_bind_iff.mp h₂
    obtain rfl := reads_byte_iff.mp hb
    obtain ⟨hl, rfl, hlen⟩ := reads_readName_iff.mp hn
    obtain rfl := reads_word_iff.mp hp
    obtain ⟨rfl, rfl⟩ := reads_pure_iff.mp h₃
    have hc := Block.counted_bytes ⟨Text.toBytes host, hlen⟩
    have hne := Block.bytes_ne_nil ⟨Text.toBytes host, hlen⟩ hl
    have hlt := Block.length_bytes_lt ⟨Text.toBytes host, hlen⟩
    refine ⟨host, port, rfl, ?_, hlt, by simp [hc]⟩
    rintro rfl
    exact hne rfl
  · rintro ⟨host, port, rfl, hne, hlt, rfl⟩
    have hlen := toNat_ofNat_length hlt
    have hz := ofNat_length_ne_zero hlt (Text.toBytes_eq_nil_iff.not.mpr hne)
    have hname : (readName (UInt8.ofNat (Text.toBytes host).length)).Reads (Text.toBytes host)
        host := reads_readName_iff.mpr ⟨hz, rfl, hlen.symm⟩
    exact (reads_byte _).bind (hname.bind ((reads_word port).bind_pure _))

/-- The SOCKS5 form of a destination is read exactly when it is spelled. -/
theorem reads_readV5_iff : (read .v5).Reads heard a ↔ a.SpelledV5 heard := by
  constructor
  · intro h
    obtain ⟨type, _, _, rfl, hb, h₁⟩ := reads_bind_iff.mp h
    obtain rfl := reads_byte_iff.mp hb
    unfold readTyped at h₁
    split_ifs at h₁ with h₄ h₆ hn
    · obtain ⟨octets, port, rfl, rfl⟩ := reads_literal_iff.mp h₁
      subst h₄
      exact .v4 octets port
    · obtain ⟨octets, port, rfl, rfl⟩ := reads_literal_iff.mp h₁
      subst h₆
      exact .v6 octets port
    · obtain ⟨host, port, rfl, hne, hlt, rfl⟩ := reads_named_iff.mp h₁
      subst hn
      exact .name port hne hlt
    · exact absurd h₁ not_reads_fail
  · intro h
    cases h with
    | v4 octets port =>
        exact (reads_byte typeV4).bind (reads_literal_iff.mpr ⟨octets, port, rfl, rfl⟩)
    | v6 octets port =>
        exact (reads_byte typeV6).bind (reads_literal_iff.mpr ⟨octets, port, rfl, rfl⟩)
    | @name host port hne hlt =>
        exact (reads_byte typeDomain).bind
          (reads_named_iff.mpr ⟨host, port, rfl, hne, hlt, rfl⟩)

end Address

/-! ### Requests -/

namespace Command

theorem ofByte?_v4_eq_some_iff {b : UInt8} {c : Command} :
    ofByte? .v4 b = some c ↔ b = c.byte ∧ c ≠ .associate := by
  unfold ofByte? byte
  constructor
  · intro h
    split_ifs at h <;> cases h <;> simp_all
  · rintro ⟨rfl, h⟩
    cases c <;> simp_all

theorem ofByte?_v5_eq_some_iff {b : UInt8} {c : Command} :
    ofByte? .v5 b = some c ↔ b = c.byte := by
  unfold ofByte? byte
  constructor
  · intro h
    split_ifs at h <;> cases h <;> simp_all
  · rintro rfl
    cases c <;> simp

end Command

/-- A SOCKS4 client is known by the user name it gives, if it gives one. -/
def Identity.ofUser (user : String) : Identity :=
  if user = "" then .anonymous else .user .noAuth user

namespace Request

/-- A text that SOCKS4 can carry: short enough, and without the octet that ends it. -/
structure FitsField (text : String) : Prop where
  zeroFree : 0 ∉ Text.toBytes text
  short : (Text.toBytes text).length ≤ maxFieldLength

/-- A text and the zero octet after it. -/
def terminated (text : String) : Bytes := Text.toBytes text ++ [0]

/-- The octets of a SOCKS4 request after its version: the command, the port, four octets, the user
name, and a host name if the octets announce one. -/
inductive SpelledV4 : Request → Bytes → Prop
  | literal {command : Command} {octets : Block 4} {port : UInt16} {user : String} :
      command ≠ .associate → FitsField user →
      (Address.literal (.v4 octets) port).announcesName = false →
        SpelledV4 ⟨.v4, command, .literal (.v4 octets) port, .ofUser user, none⟩
          (command.byte :: ((Block.ofWord port).bytes ++ octets.bytes ++ terminated user))
  | named {command : Command} {octets : Block 4} {port : UInt16} {user host : String} :
      command ≠ .associate → FitsField user →
      (Address.literal (.v4 octets) port).announcesName = true → host ≠ "" → FitsField host →
        SpelledV4 ⟨.v4, command, .named host port, .ofUser user, none⟩
          (command.byte :: ((Block.ofWord port).bytes ++ octets.bytes ++ terminated user ++
            terminated host))

/-- The octets of a SOCKS5 request: the version, the command, a zero, and the destination. -/
inductive SpelledV5 : Request → Bytes → Prop
  | mk {destination : Address} {octets : Bytes} (command : Command) :
      destination.SpelledV5 octets →
        SpelledV5 ⟨.v5, command, destination, .anonymous, none⟩ (5 :: command.byte :: 0 :: octets)

/-- The octets of a request of a version, after the first octet of the connection. -/
def Spelled : Version → Request → Bytes → Prop
  | .v4 => SpelledV4
  | .v5 => SpelledV5

variable {heard : Bytes}

theorem reads_readUntilZero_iff {field : String} {room : Nat} {bytes : Bytes} :
    (readUntilZero field room).Reads heard bytes ↔
      heard = bytes ++ [0] ∧ 0 ∉ bytes ∧ bytes.length ≤ room := by
  induction room generalizing heard bytes with
  | zero =>
      unfold readUntilZero
      constructor
      · intro h
        obtain ⟨b, _, _, rfl, hb, h₁⟩ := reads_bind_iff.mp h
        obtain rfl := reads_byte_iff.mp hb
        split_ifs at h₁ with hz
        · obtain ⟨rfl, rfl⟩ := reads_pure_iff.mp h₁
          subst hz
          exact ⟨rfl, by simp, Nat.le_refl _⟩
        · exact absurd h₁ not_reads_fail
      · rintro ⟨rfl, -, hlen⟩
        obtain rfl := List.length_eq_zero_iff.mp (Nat.le_zero.mp hlen)
        exact (reads_byte 0).bind (reads_pure [])
  | succ room ih =>
      unfold readUntilZero
      constructor
      · intro h
        obtain ⟨b, _, _, rfl, hb, h₁⟩ := reads_bind_iff.mp h
        obtain rfl := reads_byte_iff.mp hb
        split_ifs at h₁ with hz
        · obtain ⟨rfl, rfl⟩ := reads_pure_iff.mp h₁
          subst hz
          exact ⟨rfl, by simp, Nat.zero_le _⟩
        · obtain ⟨more, _, _, rfl, hm, h₂⟩ := reads_bind_iff.mp h₁
          obtain ⟨rfl, hfree, hlen⟩ := ih.mp hm
          obtain ⟨rfl, rfl⟩ := reads_pure_iff.mp h₂
          refine ⟨by simp, ?_, by rw [List.length_cons]; omega⟩
          rw [List.mem_cons, not_or]
          exact ⟨fun h => hz h.symm, hfree⟩
      · rintro ⟨rfl, hfree, hlen⟩
        cases bytes with
        | nil => exact (reads_byte 0).bind (reads_pure [])
        | cons b more =>
            rw [List.mem_cons, not_or] at hfree
            rw [List.length_cons] at hlen
            refine (reads_byte b).bind ?_
            rw [if_neg (fun h => hfree.1 h.symm)]
            exact (ih.mpr ⟨rfl, hfree.2, by omega⟩).bind_pure _

theorem reads_readText_iff {field text : String} :
    (readText field).Reads heard text ↔ FitsField text ∧ heard = terminated text := by
  unfold readText
  constructor
  · intro h
    obtain ⟨bytes, _, _, rfl, hb, h₁⟩ := reads_bind_iff.mp h
    obtain ⟨rfl, hz, hlen⟩ := reads_readUntilZero_iff.mp hb
    split at h₁
    · rename_i text' ht
      obtain ⟨rfl, rfl⟩ := reads_pure_iff.mp h₁
      obtain rfl := Text.ofBytes?_eq_some_iff.mp ht
      exact ⟨⟨hz, hlen⟩, List.append_nil _⟩
    · exact absurd h₁ not_reads_fail
  · rintro ⟨⟨hz, hlen⟩, rfl⟩
    have hbytes : (readUntilZero field maxFieldLength).Reads (terminated text)
        (Text.toBytes text) := reads_readUntilZero_iff.mpr ⟨rfl, hz, hlen⟩
    refine reads_bind_iff.mpr ⟨_, _, [], (List.append_nil _).symm, hbytes, ?_⟩
    simp only [Text.ofBytes?_toBytes]
    exact reads_pure text

theorem reads_readAnnounced_iff {a destination : Address} :
    (readAnnounced a).Reads heard destination ↔
      (a.announcesName = false ∧ heard = [] ∧ destination = a) ∨
        a.announcesName = true ∧ ∃ host, host ≠ "" ∧ FitsField host ∧
          heard = terminated host ∧ destination = .named host a.port := by
  unfold readAnnounced
  split_ifs with ha
  · simp only [ha, Bool.true_eq_false, false_and, false_or, true_and]
    constructor
    · intro h
      obtain ⟨host, _, _, rfl, hh, h₁⟩ := reads_bind_iff.mp h
      obtain ⟨hf, rfl⟩ := reads_readText_iff.mp hh
      split_ifs at h₁ with hne
      · exact absurd h₁ not_reads_fail
      · obtain ⟨rfl, rfl⟩ := reads_pure_iff.mp h₁
        exact ⟨host, hne, hf, List.append_nil _, rfl⟩
    · rintro ⟨host, hne, hf, rfl, rfl⟩
      have hhost : (readText "hostname").Reads (terminated host) host :=
        reads_readText_iff.mpr ⟨hf, rfl⟩
      refine reads_bind_iff.mpr ⟨host, _, [], (List.append_nil _).symm, hhost, ?_⟩
      rw [if_neg hne]
      exact reads_pure _
  · rw [reads_pure_iff]
    rw [Bool.not_eq_true] at ha
    simp only [ha, true_and, Bool.false_eq_true, false_and, or_false, eq_comm]

theorem reads_judge_iff {version : Version} {b : UInt8} {c : Command} :
    (judge version b).Reads heard c ↔ heard = [] ∧ Command.ofByte? version b = some c := by
  unfold judge
  split
  · rename_i c' hc
    rw [reads_pure_iff, hc, Option.some.injEq]
  · rename_i hc
    simp [hc, not_reads_fail]

/-- What is read before a destination is settled is the same for both forms of a SOCKS4 request. -/
theorem reads_readV4 {command : Command} {octets : Block 4} {port : UInt16} {user : String}
    {destination : Address} (hne : command ≠ .associate) (hu : FitsField user)
    (hd : (readAnnounced (.literal (.v4 octets) port)).Reads heard destination) :
    readV4.Reads
      (command.byte :: ((Block.ofWord port).bytes ++ octets.bytes ++ (terminated user ++ heard)))
      ⟨.v4, command, destination, .ofUser user, none⟩ := by
  have haddress : (Address.read .v4).Reads _ _ :=
    Address.reads_readV4_iff.mpr ⟨port, octets, rfl, rfl⟩
  have huser : (readText "user-id").Reads _ _ := reads_readText_iff.mpr ⟨hu, rfl⟩
  have hcommand : (judge .v4 command.byte).Reads [] command :=
    reads_judge_iff.mpr ⟨rfl, Command.ofByte?_v4_eq_some_iff.mpr ⟨rfl, hne⟩⟩
  have h : readV4.Reads _ _ := (reads_byte command.byte).bind (haddress.bind (huser.bind
    (hd.bind (hcommand.bind (reads_pure _)))))
  simpa [Identity.ofUser] using h

/-- A SOCKS4 request is read exactly when it is spelled. -/
theorem reads_readV4_iff {r : Request} : readV4.Reads heard r ↔ r.SpelledV4 heard := by
  constructor
  · intro h
    obtain ⟨code, _, _, rfl, hb, h₁⟩ := reads_bind_iff.mp h
    obtain ⟨address, _, _, rfl, ha, h₂⟩ := reads_bind_iff.mp h₁
    obtain ⟨user, _, _, rfl, hu, h₃⟩ := reads_bind_iff.mp h₂
    obtain ⟨destination, _, _, rfl, hd, h₄⟩ := reads_bind_iff.mp h₃
    obtain ⟨command, _, _, rfl, hc, h₅⟩ := reads_bind_iff.mp h₄
    obtain rfl := reads_byte_iff.mp hb
    obtain ⟨port, octets, rfl, rfl⟩ := Address.reads_readV4_iff.mp ha
    obtain ⟨hfits, rfl⟩ := reads_readText_iff.mp hu
    obtain ⟨rfl, hbyte⟩ := reads_judge_iff.mp hc
    obtain ⟨rfl, hne⟩ := Command.ofByte?_v4_eq_some_iff.mp hbyte
    obtain ⟨rfl, rfl⟩ := reads_pure_iff.mp h₅
    rcases reads_readAnnounced_iff.mp hd with ⟨ha, rfl, rfl⟩ | ⟨ha, host, hh, hf, rfl, rfl⟩
    · simpa [Identity.ofUser] using SpelledV4.literal hne hfits ha
    · simpa [Identity.ofUser, Address.literal] using SpelledV4.named hne hfits ha hh hf
  · intro h
    cases h with
    | literal hne hu ha =>
        simpa using reads_readV4 hne hu (reads_readAnnounced_iff.mpr (.inl ⟨ha, rfl, rfl⟩))
    | @named command octets port user host hne hu ha hh hf =>
        have hd := reads_readAnnounced_iff.mpr (.inr ⟨ha, host, hh, hf, rfl, rfl⟩)
        simpa [Address.literal] using reads_readV4 hne hu hd

theorem reads_readHeader_iff {code : UInt8} :
    readHeader.Reads heard code ↔ heard = [5, code, 0] := by
  constructor
  · intro h
    obtain ⟨header, _, _, rfl, hb, h₁⟩ := reads_bind_iff.mp h
    obtain rfl := reads_block_iff.mp hb
    split at h₁
    · rename_i version code' reserved hbytes
      split_ifs at h₁ with hv hz
      · exact absurd h₁ not_reads_fail
      · exact absurd h₁ not_reads_fail
      · obtain ⟨rfl, rfl⟩ := reads_pure_iff.mp h₁
        rw [hbytes, not_not.mp hv, not_not.mp hz, List.append_nil]
    · exact absurd h₁ not_reads_fail
  · rintro rfl
    exact (reads_block (⟨[5, code, 0], rfl⟩ : Block 3)).bind (reads_pure code)

/-- A SOCKS5 request is read exactly when it is spelled. -/
theorem reads_readV5_iff {r : Request} : readV5.Reads heard r ↔ r.SpelledV5 heard := by
  constructor
  · intro h
    obtain ⟨code, _, _, rfl, hh, h₁⟩ := reads_bind_iff.mp h
    obtain ⟨destination, _, _, rfl, hd, h₂⟩ := reads_bind_iff.mp h₁
    obtain ⟨command, _, _, rfl, hc, h₃⟩ := reads_bind_iff.mp h₂
    obtain rfl := reads_readHeader_iff.mp hh
    have hspelled := Address.reads_readV5_iff.mp hd
    obtain ⟨rfl, hbyte⟩ := reads_judge_iff.mp hc
    obtain rfl := Command.ofByte?_v5_eq_some_iff.mp hbyte
    obtain ⟨rfl, rfl⟩ := reads_pure_iff.mp h₃
    simpa using SpelledV5.mk command hspelled
  · intro h
    cases h with
    | mk command hd =>
        have hheader := reads_readHeader_iff.mpr (show _ = [5, command.byte, 0] from rfl)
        have hcommand : (judge .v5 command.byte).Reads [] command :=
          reads_judge_iff.mpr ⟨rfl, Command.ofByte?_v5_eq_some_iff.mpr rfl⟩
        have h : readV5.Reads _ _ := hheader.bind ((Address.reads_readV5_iff.mpr hd).bind
          (hcommand.bind (reads_pure _)))
        simpa using h

theorem reads_read_iff {version : Version} {r : Request} :
    (read version).Reads heard r ↔ Spelled version r heard := by
  cases version with
  | v4 => exact reads_readV4_iff
  | v5 => exact reads_readV5_iff

end Request

end Socks
