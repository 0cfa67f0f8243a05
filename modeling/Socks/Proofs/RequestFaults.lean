import Socks.Proofs.Dialogue.Failing
import Socks.Proofs.Handshake

/-!
# SOCKS5 requests, and what is wrong with anything else

What a SOCKS5 client can write as a request, as data that cannot be ill-formed; and everything else
that it can send, with the first thing that is wrong with it, where the octets are checked field by
field as they come and the command after all others.

Main statement: exactly the octets of a form are read as a request, and on all others the reader
fails with what is wrong with them first (`Request.readV5_grammar`).
-/

namespace Socks

open Dialogue

/-! ### Forms -/

/-- What a SOCKS5 client writes for a host: four octets, sixteen octets, or a name. -/
inductive HostForm where
  | v4 (octets : Block 4)
  | v6 (octets : Block 16)
  | name (text : String) (ne_empty : text ≠ "") (short : (Text.toBytes text).length ≤ 255)

namespace HostForm

def bytes : HostForm → Bytes
  | v4 octets => 1 :: octets.bytes
  | v6 octets => 4 :: octets.bytes
  | name text _ _ => 3 :: UInt8.ofNat (Text.toBytes text).length :: Text.toBytes text

/-- The host with a port. -/
def address (port : UInt16) : HostForm → Address
  | v4 octets => ⟨"", some (.v4 octets), port⟩
  | v6 octets => ⟨"", some (.v6 octets), port⟩
  | name text _ _ => ⟨text, none, port⟩

theorem spelled (host : HostForm) (port : UInt16) :
    (host.address port).SpelledV5 (host.bytes ++ (Block.ofWord port).bytes) := by
  cases host with
  | v4 octets => exact .v4 octets port
  | v6 octets => exact .v6 octets port
  | name text hne hshort => exact .name port hne (Nat.lt_succ_of_le hshort)

end HostForm

/-- Whatever is spelled is spelled by a host and a port. -/
theorem Address.spelledV5_iff_form {a : Address} {octets : Bytes} :
    a.SpelledV5 octets ↔
      ∃ (host : HostForm) (port : UInt16),
        octets = host.bytes ++ (Block.ofWord port).bytes ∧ a = host.address port := by
  constructor
  · intro h
    cases h with
    | v4 octets port => exact ⟨.v4 octets, port, rfl, rfl⟩
    | v6 octets port => exact ⟨.v6 octets, port, rfl, rfl⟩
    | @name text port hne hlt => exact ⟨.name text hne (Nat.le_of_lt_succ hlt), port, rfl, rfl⟩
  · rintro ⟨host, port, rfl, rfl⟩
    exact host.spelled port

/-- The commands of SOCKS5 and their octets. -/
def Command.CodeV5 (code : UInt8) (command : Command) : Prop :=
  code = 1 ∧ command = .connect ∨ code = 2 ∧ command = .bind ∨ code = 3 ∧ command = .associate

namespace Request

/-- What a SOCKS5 client writes in a request. -/
structure FormV5 where
  code : UInt8
  command : Command
  host : HostForm
  port : UInt16
  code_command : Command.CodeV5 code command

namespace FormV5

def bytes (form : FormV5) : Bytes :=
  5 :: form.code :: 0 ::
    (form.host.bytes ++ [UInt8.ofNat (form.port.toNat / 256), UInt8.ofNat (form.port.toNat % 256)])

def request (form : FormV5) : Request :=
  ⟨.v5, form.command, form.host.address form.port, .anonymous, none⟩

end FormV5

end Request

/-! ### Faults -/

/-- `HostFault input rest f`: no host of the octets `input` is known, because of `f`, which shows
when all but `rest` is read. -/
inductive HostFault : Bytes → Bytes → Failure → Prop
  | noType : HostFault [] [] (.transport .endOfNumber)
  | unknownType {type : UInt8} (rest : Bytes) :
      type ≠ 1 → type ≠ 3 → type ≠ 4 → HostFault (type :: rest) rest (.addressTypeNotSupported type)
  | shortV4 {octets : Bytes} :
      octets.length < 4 → HostFault (1 :: octets) [] (.transport .endOfBlock)
  | shortV6 {octets : Bytes} :
      octets.length < 16 → HostFault (4 :: octets) [] (.transport .endOfBlock)
  | noLength : HostFault [3] [] (.transport .endOfNumber)
  | emptyName (rest : Bytes) : HostFault (3 :: 0 :: rest) rest (.protocol .emptyDomain)
  | shortName {length : UInt8} {octets : Bytes} :
      octets.length < length.toNat → HostFault (3 :: length :: octets) [] (.transport .endOfBlock)
  | malformedName {length : UInt8} (name : Block length.toNat) (rest : Bytes) :
      length ≠ 0 → (∀ text, Text.toBytes text ≠ name.bytes) →
        HostFault (3 :: length :: (name.bytes ++ rest)) rest (.protocol .malformedDomain)

/-- What is wrong first with octets that are no destination: the host, or the port after it. -/
inductive AddressFault : Bytes → Bytes → Failure → Prop
  | host {input rest : Bytes} {f : Failure} : HostFault input rest f → AddressFault input rest f
  | shortPort (host : HostForm) {octets : Bytes} :
      octets.length < 2 → AddressFault (host.bytes ++ octets) [] (.transport .endOfNumber)

/-- What is wrong first with octets that are no SOCKS5 request: they are too few to begin with, the
version, the octet that is reserved, the destination; and if none of these, the command. -/
inductive Request.FaultV5 : Bytes → Bytes → Failure → Prop
  | short {input : Bytes} : input.length < 3 → FaultV5 input [] (.transport .endOfBlock)
  | version {version : UInt8} (code reserved : UInt8) (rest : Bytes) :
      version ≠ 5 → FaultV5 (version :: code :: reserved :: rest) rest (.unsupportedVersion version)
  | reserved (code : UInt8) {reserved : UInt8} (rest : Bytes) :
      reserved ≠ 0 →
        FaultV5 (5 :: code :: reserved :: rest) rest (.protocol (.reservedByte reserved))
  | destination (code : UInt8) {input rest : Bytes} {f : Failure} :
      AddressFault input rest f → FaultV5 (5 :: code :: 0 :: input) rest f
  | command {code : UInt8} (host : HostForm) (port : Block 2) (rest : Bytes) :
      code ≠ 1 → code ≠ 2 → code ≠ 3 →
        FaultV5 (5 :: code :: 0 :: (host.bytes ++ port.bytes ++ rest)) rest
          (.commandNotSupported code)

/-! ### Where the readers fail -/

namespace Address

variable {input rest : Bytes} {f : Failure}

theorem fails_readName_iff {length : UInt8} :
    (readName length).Fails input rest f ↔
      (length = 0 ∧ rest = input ∧ f = .protocol .emptyDomain) ∨
      (input.length < length.toNat ∧ rest = [] ∧ f = .transport .endOfBlock) ∨
      ∃ name : Block length.toNat, length ≠ 0 ∧ input = name.bytes ++ rest ∧
        (∀ text, Text.toBytes text ≠ name.bytes) ∧ f = .protocol .malformedDomain := by
  unfold readName
  by_cases hz : length = 0
  · subst hz
    rw [if_pos rfl]
    have hno : ¬input.length < (0 : UInt8).toNat := Nat.not_lt_zero _
    simp only [reject, fails_fail_iff, hno, true_and, false_and, ne_eq, not_true_eq_false,
      exists_false, or_false]
  · rw [if_neg hz, fails_bind_iff, fails_block_iff]
    simp only [hz, false_and, false_or, ne_eq, not_false_eq_true, true_and]
    refine or_congr Iff.rfl ?_
    constructor
    · rintro ⟨name, _, left, rfl, hname, h⟩
      obtain rfl := reads_block_iff.mp hname
      split at h
      · exact absurd h not_fails_pure
      · rename_i hnone
        obtain ⟨rfl, rfl⟩ := fails_fail_iff.mp h
        refine ⟨name, rfl, ?_, rfl⟩
        intro text htext
        rw [Text.ofBytes?_eq_some_iff.mpr htext.symm] at hnone
        cases hnone
    · rintro ⟨name, rfl, hname, rfl⟩
      refine ⟨name, name.bytes, rest, rfl, reads_block name, ?_⟩
      split
      · rename_i text htext
        exact absurd (Text.ofBytes?_eq_some_iff.mp htext).symm (hname text)
      · exact fails_fail_iff.mpr ⟨rfl, rfl⟩

theorem fails_literal_iff {n : Nat} {g : Block n → IpAddress} :
    (do let octets ← Dialogue.block n
        return Address.literal (g octets) (← Dialogue.word) : Dialogue Address).Fails input rest f ↔
      (input.length < n ∧ rest = [] ∧ f = .transport .endOfBlock) ∨
      ∃ (octets : Block n) (left : Bytes), input = octets.bytes ++ left ∧ left.length < 2 ∧
        rest = [] ∧ f = .transport .endOfNumber := by
  rw [fails_bind_iff, fails_block_iff]
  simp only [fails_bind_pure_iff, fails_word_iff]
  refine or_congr Iff.rfl ?_
  constructor
  · rintro ⟨octets, _, left, rfl, hoctets, h⟩
    obtain rfl := reads_block_iff.mp hoctets
    exact ⟨octets, left, rfl, h⟩
  · rintro ⟨octets, left, rfl, h⟩
    exact ⟨octets, octets.bytes, left, rfl, reads_block octets, h⟩

theorem fails_named_iff :
    (do let name ← readName (← Dialogue.byte)
        return Address.named name (← Dialogue.word) : Dialogue Address).Fails input rest f ↔
      (input = [] ∧ rest = [] ∧ f = .transport .endOfNumber) ∨
      (∃ length left, input = length :: left ∧ (readName length).Fails left rest f) ∨
      ∃ text left, text ≠ "" ∧ (Text.toBytes text).length < 256 ∧
        input = counted (Text.toBytes text) ++ left ∧ left.length < 2 ∧
        rest = [] ∧ f = .transport .endOfNumber := by
  rw [fails_bind_iff, fails_byte_iff]
  simp only [fails_bind_iff, fails_word_iff, not_fails_pure, and_false, exists_false, or_false]
  refine or_congr Iff.rfl ?_
  constructor
  · rintro ⟨length, _, left, rfl, hlength, h⟩
    obtain rfl := reads_byte_iff.mp hlength
    rcases h with h | ⟨text, heard, left, rfl, htext, h⟩
    · exact .inl ⟨length, left, rfl, h⟩
    · obtain ⟨hne, rfl, hlen⟩ := reads_readName_iff.mp htext
      have hc := Block.counted_bytes ⟨Text.toBytes text, hlen⟩
      have hnil := Block.bytes_ne_nil ⟨Text.toBytes text, hlen⟩ hne
      have hlt := Block.length_bytes_lt ⟨Text.toBytes text, hlen⟩
      refine .inr ⟨text, left, ?_, hlt, by simp [hc], h⟩
      rintro rfl
      exact hnil rfl
  · rintro (⟨length, left, rfl, h⟩ | ⟨text, left, hne, hlt, rfl, h⟩)
    · exact ⟨length, [length], left, rfl, reads_byte length, .inl h⟩
    · have hlen := toNat_ofNat_length hlt
      have hz := ofNat_length_ne_zero hlt (Text.toBytes_eq_nil_iff.not.mpr hne)
      have htext : (readName (UInt8.ofNat (Text.toBytes text).length)).Reads (Text.toBytes text)
          text := reads_readName_iff.mpr ⟨hz, rfl, hlen.symm⟩
      exact ⟨_, [_], Text.toBytes text ++ left, rfl, reads_byte _,
        .inr ⟨text, Text.toBytes text, left, rfl, htext, h⟩⟩

theorem fails_readV5_iff_typed :
    (read .v5).Fails input rest f ↔
      (input = [] ∧ rest = [] ∧ f = .transport .endOfNumber) ∨
      ∃ type left, input = type :: left ∧ (readTyped type).Fails left rest f := by
  show (byte >>= readTyped).Fails input rest f ↔ _
  rw [fails_bind_iff, fails_byte_iff]
  refine or_congr Iff.rfl ?_
  constructor
  · rintro ⟨type, _, left, rfl, htype, h⟩
    obtain rfl := reads_byte_iff.mp htype
    exact ⟨type, left, rfl, h⟩
  · rintro ⟨type, left, rfl, h⟩
    exact ⟨type, [type], left, rfl, reads_byte type, h⟩

theorem fails_readTyped_unknown {type : UInt8} (h₁ : type ≠ 1) (h₃ : type ≠ 3) (h₄ : type ≠ 4) :
    (readTyped type).Fails input rest f ↔ rest = input ∧ f = .addressTypeNotSupported type := by
  have hfail : readTyped type = fail (.addressTypeNotSupported type) := by
    unfold readTyped
    rw [if_neg (show type ≠ typeV4 from h₁), if_neg (show type ≠ typeV6 from h₄),
      if_neg (show type ≠ typeDomain from h₃)]
  rw [hfail, fails_fail_iff]

/-- What the reader of a destination fails with is wrong with the octets first. -/
theorem fault_of_fails (h : (read .v5).Fails input rest f) : AddressFault input rest f := by
  rcases fails_readV5_iff_typed.mp h with ⟨rfl, rfl, rfl⟩ | ⟨type, left, rfl, h⟩
  · exact .host .noType
  by_cases h₁ : type = 1
  · subst h₁
    rcases fails_literal_iff.mp h with ⟨hlt, rfl, rfl⟩ | ⟨octets, left, rfl, hlt, rfl, rfl⟩
    · exact .host (.shortV4 hlt)
    · exact .shortPort (.v4 octets) hlt
  by_cases h₄ : type = 4
  · subst h₄
    rcases fails_literal_iff.mp h with ⟨hlt, rfl, rfl⟩ | ⟨octets, left, rfl, hlt, rfl, rfl⟩
    · exact .host (.shortV6 hlt)
    · exact .shortPort (.v6 octets) hlt
  by_cases h₃ : type = 3
  · subst h₃
    rcases fails_named_iff.mp h with
      ⟨rfl, rfl, rfl⟩ | ⟨length, left, rfl, hn⟩ | ⟨text, left, hne, hlt, rfl, hport, rfl, rfl⟩
    · exact .host .noLength
    · rcases fails_readName_iff.mp hn with
        ⟨rfl, rfl, rfl⟩ | ⟨hlt, rfl, rfl⟩ | ⟨name, hne, rfl, hname, rfl⟩
      · exact .host (.emptyName rest)
      · exact .host (.shortName hlt)
      · exact .host (.malformedName name rest hne hname)
    · exact .shortPort (.name text hne (Nat.le_of_lt_succ hlt)) hport
  · obtain ⟨rfl, rfl⟩ := (fails_readTyped_unknown h₁ h₃ h₄).mp h
    exact .host (.unknownType rest h₁ h₃ h₄)

theorem fails_of_typed {type : UInt8} {left : Bytes} (h : (readTyped type).Fails left rest f) :
    (read .v5).Fails (type :: left) rest f :=
  fails_readV5_iff_typed.mpr (.inr ⟨type, left, rfl, h⟩)

theorem fails_of_name {length : UInt8} {left : Bytes} (h : (readName length).Fails left rest f) :
    (read .v5).Fails (3 :: length :: left) rest f :=
  fails_of_typed (fails_named_iff.mpr (.inr (.inl ⟨length, left, rfl, h⟩)))

theorem fails_of_hostFault (h : HostFault input rest f) : (read .v5).Fails input rest f := by
  cases h with
  | noType => exact fails_readV5_iff_typed.mpr (.inl ⟨rfl, rfl, rfl⟩)
  | unknownType _ h₁ h₃ h₄ =>
      exact fails_of_typed ((fails_readTyped_unknown h₁ h₃ h₄).mpr ⟨rfl, rfl⟩)
  | shortV4 hlt => exact fails_of_typed (fails_literal_iff.mpr (.inl ⟨hlt, rfl, rfl⟩))
  | shortV6 hlt => exact fails_of_typed (fails_literal_iff.mpr (.inl ⟨hlt, rfl, rfl⟩))
  | noLength => exact fails_of_typed (fails_named_iff.mpr (.inl ⟨rfl, rfl, rfl⟩))
  | emptyName => exact fails_of_name (fails_readName_iff.mpr (.inl ⟨rfl, rfl, rfl⟩))
  | shortName hlt => exact fails_of_name (fails_readName_iff.mpr (.inr (.inl ⟨hlt, rfl, rfl⟩)))
  | malformedName name _ hne hname =>
      exact fails_of_name (fails_readName_iff.mpr (.inr (.inr ⟨name, hne, rfl, hname, rfl⟩)))

theorem fails_of_shortPort (host : HostForm) {octets : Bytes} (hlt : octets.length < 2) :
    (read .v5).Fails (host.bytes ++ octets) [] (.transport .endOfNumber) := by
  cases host with
  | v4 o => exact fails_of_typed (fails_literal_iff.mpr (.inr ⟨o, octets, rfl, hlt, rfl, rfl⟩))
  | v6 o => exact fails_of_typed (fails_literal_iff.mpr (.inr ⟨o, octets, rfl, hlt, rfl, rfl⟩))
  | name text hne hshort =>
      have hlt' := Nat.lt_succ_of_le hshort
      exact fails_of_typed
        (fails_named_iff.mpr (.inr (.inr ⟨text, octets, hne, hlt', rfl, hlt, rfl, rfl⟩)))

/-- The reader of a destination fails exactly with what is wrong with the octets first. -/
theorem fails_readV5_iff : (read .v5).Fails input rest f ↔ AddressFault input rest f := by
  constructor
  · exact fault_of_fails
  · intro h
    cases h with
    | host h => exact fails_of_hostFault h
    | shortPort host hlt => exact fails_of_shortPort host hlt

end Address

namespace Request

variable {input rest : Bytes} {f : Failure}

theorem fails_readHeader_iff :
    readHeader.Fails input rest f ↔
      (input.length < 3 ∧ rest = [] ∧ f = .transport .endOfBlock) ∨
      ∃ version code reserved, input = version :: code :: reserved :: rest ∧
        (version ≠ 5 ∧ f = .unsupportedVersion version ∨
          version = 5 ∧ reserved ≠ 0 ∧ f = .protocol (.reservedByte reserved)) := by
  unfold readHeader
  rw [fails_bind_iff, fails_block_iff]
  refine or_congr Iff.rfl ?_
  constructor
  · rintro ⟨⟨bytes, hlen⟩, _, left, rfl, hheader, h⟩
    obtain rfl := reads_block_iff.mp hheader
    obtain ⟨version, code, reserved, rfl⟩ := List.length_eq_three.mp hlen
    dsimp only at h
    split_ifs at h with hv hz
    · obtain ⟨rfl, rfl⟩ := fails_fail_iff.mp h
      exact ⟨version, code, reserved, rfl, .inl ⟨hv, rfl⟩⟩
    · obtain ⟨rfl, rfl⟩ := fails_fail_iff.mp h
      exact ⟨version, code, reserved, rfl, .inr ⟨not_not.mp hv, hz, rfl⟩⟩
    · exact absurd h not_fails_pure
  · rintro ⟨version, code, reserved, rfl, h⟩
    refine ⟨⟨[version, code, reserved], rfl⟩, _, rest, rfl, reads_block _, ?_⟩
    dsimp only
    rcases h with ⟨hv, rfl⟩ | ⟨rfl, hz, rfl⟩
    · rw [if_pos hv]
      exact fails_fail_iff.mpr ⟨rfl, rfl⟩
    · rw [if_neg (not_not.mpr rfl), if_pos hz]
      exact fails_fail_iff.mpr ⟨rfl, rfl⟩

theorem ofByte?_v5_eq_none_iff {code : UInt8} :
    Command.ofByte? .v5 code = none ↔ code ≠ 1 ∧ code ≠ 2 ∧ code ≠ 3 := by
  unfold Command.ofByte?
  split_ifs <;> simp_all

theorem fails_judge_iff {version : Version} {code : UInt8} :
    (judge version code).Fails input rest f ↔
      Command.ofByte? version code = none ∧ rest = input ∧ f = .commandNotSupported code := by
  unfold judge
  cases hc : Command.ofByte? version code with
  | none => simp only [fails_fail_iff, true_and]
  | some c => simp only [not_fails_pure, reduceCtorEq, false_and]

/-- The reader of a request fails exactly with what is wrong with the octets first. -/
theorem fails_readV5_iff : (read .v5).Fails input rest f ↔ FaultV5 input rest f := by
  show readV5.Fails input rest f ↔ _
  unfold readV5
  rw [fails_bind_iff, fails_readHeader_iff]
  constructor
  · rintro ((⟨hlt, rfl, rfl⟩ | ⟨version, code, z, rfl, ⟨hv, rfl⟩ | ⟨rfl, hz, rfl⟩⟩) |
      ⟨code, _, left, rfl, hheader, h⟩)
    · exact .short hlt
    · exact .version code z rest hv
    · exact .reserved code rest hz
    obtain rfl := reads_readHeader_iff.mp hheader
    rcases fails_bind_iff.mp h with h | ⟨destination, heard, left, rfl, hd, h⟩
    · exact .destination code (Address.fails_readV5_iff.mp h)
    obtain ⟨host, port, rfl, rfl⟩ :=
      Address.spelledV5_iff_form.mp (Address.reads_readV5_iff.mp hd)
    obtain ⟨hnone, rfl, rfl⟩ := fails_judge_iff.mp (fails_bind_pure_iff.mp h)
    obtain ⟨h₁, h₂, h₃⟩ := ofByte?_v5_eq_none_iff.mp hnone
    exact .command host (Block.ofWord port) rest h₁ h₂ h₃
  · intro h
    cases h with
    | short hlt => exact .inl (.inl ⟨hlt, rfl, rfl⟩)
    | version code z _ hv => exact .inl (.inr ⟨_, code, z, rfl, .inl ⟨hv, rfl⟩⟩)
    | reserved code _ hz => exact .inl (.inr ⟨5, code, _, rfl, .inr ⟨rfl, hz, rfl⟩⟩)
    | destination code h =>
        refine .inr ⟨code, [5, code, 0], _, rfl, reads_readHeader_iff.mpr rfl, ?_⟩
        exact fails_bind_iff.mpr (.inl (Address.fails_readV5_iff.mpr h))
    | @command code host port _ h₁ h₂ h₃ =>
        refine .inr ⟨code, [5, code, 0], _, rfl, reads_readHeader_iff.mpr rfl, ?_⟩
        have hd := Address.reads_readV5_iff.mpr (host.spelled port.word)
        rw [Block.ofWord_word] at hd
        have hj : (judge .v5 code).Fails rest rest (.commandNotSupported code) :=
          fails_judge_iff.mpr ⟨ofByte?_v5_eq_none_iff.mpr ⟨h₁, h₂, h₃⟩, rfl, rfl⟩
        exact fails_bind_iff.mpr
          (.inr ⟨_, _, rest, rfl, hd, fails_bind_pure_iff.mpr hj⟩)

/-! ### The grammar -/

theorem codeV5_iff {code : UInt8} {command : Command} :
    Command.CodeV5 code command ↔ code = command.byte := by
  unfold Command.CodeV5
  cases command <;> simp [Command.byte]

theorem spelledV5_iff {r : Request} {octets : Bytes} :
    r.SpelledV5 octets ↔ ∃ form : FormV5, octets = form.bytes ∧ r = form.request := by
  constructor
  · intro h
    cases h with
    | mk command hd =>
        obtain ⟨host, port, rfl, rfl⟩ := Address.spelledV5_iff_form.mp hd
        exact ⟨⟨command.byte, command, host, port, codeV5_iff.mpr rfl⟩, rfl, rfl⟩
  · rintro ⟨⟨code, command, host, port, hcode⟩, rfl, rfl⟩
    obtain rfl := codeV5_iff.mp hcode
    exact .mk command (host.spelled port)

theorem eval_readV5_iff {said : Bytes} {r : Request} :
    (read .v5).eval input = ⟨.ok r, rest, said⟩ ↔
      said = [] ∧ ∃ form : FormV5, input = form.bytes ++ rest ∧ r = form.request := by
  rw [eval_read_iff_spelled]
  show _ ∧ (∃ octets, _ ∧ r.SpelledV5 octets) ↔ _
  simp only [spelledV5_iff]
  constructor
  · rintro ⟨hsaid, _, hinput, form, rfl, hr⟩
    exact ⟨hsaid, form, hinput, hr⟩
  · rintro ⟨hsaid, form, hinput, hr⟩
    exact ⟨hsaid, _, hinput, form, rfl, hr⟩

/-- What ends too early is reported as the end of the input. -/
theorem FaultV5.kind_eq {e : IoError} (h : FaultV5 input rest (.transport e)) :
    e.kind = .unexpectedEof := by
  cases h with
  | short => rfl
  | destination _ h =>
      cases h with
      | host h => cases h <;> rfl
      | shortPort => rfl

/-- A SOCKS5 request is read from the octets of a form, whatever follows them, and from no others.
Then it is what the form asks for, and what follows is left. On all other octets the reader fails
with what is wrong with them first. -/
theorem readV5_grammar :
    (∀ input, (∃ r, ((read .v5).eval input).result = .ok r) ↔
      ∃ (form : FormV5) (rest : Bytes), input = form.bytes ++ rest) ∧
    (∀ (form : FormV5) (rest : Bytes),
      (read .v5).eval (form.bytes ++ rest) = ⟨.ok form.request, rest, []⟩) ∧
    (∀ input f, ((read .v5).eval input).result = .error f ↔ ∃ rest, FaultV5 input rest f) ∧
    (∀ input rest f, FaultV5 input rest f → (read .v5).eval input = ⟨.error f, rest, []⟩) ∧
    ∀ input rest e, FaultV5 input rest (.transport e) → e.kind = .unexpectedEof := by
  have hback : ∀ (form : FormV5) (rest : Bytes),
      (read .v5).eval (form.bytes ++ rest) = ⟨.ok form.request, rest, []⟩ :=
    fun form rest => eval_readV5_iff.mpr ⟨rfl, form, rfl, rfl⟩
  refine ⟨fun input => ⟨?_, ?_⟩, hback, fun input f => ?_, fun input rest f => ?_,
    fun input rest e => FaultV5.kind_eq⟩
  · rintro ⟨r, hr⟩
    cases ho : (read .v5).eval input with
    | mk result rest said =>
        rw [ho] at hr
        cases hr
        obtain ⟨-, form, hinput, -⟩ := eval_readV5_iff.mp ho
        exact ⟨form, rest, hinput⟩
  · rintro ⟨form, rest, rfl⟩
    exact ⟨form.request, by rw [hback]⟩
  · rw [(listens_read .v5).result_eq_error_iff]
    simp only [fails_readV5_iff]
  · exact fails_readV5_iff.mpr

/-- A command that there is not is reported after a request that is otherwise in order, and not
before its port has come. -/
theorem readV5_grammar_command :
    ((read .v5).eval [5, 9, 0, 3, 1, 97, 0, 80, 7]) =
        ⟨.error (.commandNotSupported 9), [7], []⟩ ∧
      (read .v5).eval [5, 9, 0, 3, 1, 97, 0] = ⟨.error (.transport .endOfNumber), [], []⟩ := by
  have hread := readV5_grammar.2.2.2.1
  let host : HostForm := .name "a" (by decide) (by decide)
  constructor
  · exact hread _ _ _ (.command host (Block.ofWord 80) [7] (by decide) (by decide) (by decide))
  · have hport : [0].length < 2 := by decide
    exact hread _ _ _ (.destination 9 (.shortPort host hport))

end Request

end Socks
