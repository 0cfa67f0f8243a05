import Socks.Handshake
import Socks.Proofs.Dialogue.Resumption
import Socks.Proofs.Spelling

/-!
# What is heard and said in a handshake

The grammar of accepted handshakes, and everything the server says in accepted and in failed ones.

Main statements: the handshake comes to a request exactly when the client spells one that the
authenticator accepts (`Handshake.reaches_greet_iff`); at every point of it the server has said a
greeting of the method exchange and at most one reply (`Handshake.spoken_greet`).
-/

namespace Socks

open Dialogue

/-! ### Readers only listen -/

namespace Failure

/-- The failures to read a request: the client ends too early, or it is not understood. -/
def OfReading : Failure → Prop
  | transport e => e.kind = .unexpectedEof
  | unsupportedVersion _ | protocol _ => True
  | addressTypeNotSupported _ | commandNotSupported _ => True
  | _ => False

theorem ofReading_of_replyStatus? {f : Failure} {status : Status}
    (h : f.replyStatus? = some status) : f.OfReading := by
  cases f with
  | protocol | addressTypeNotSupported | commandNotSupported => trivial
  | _ => cases h

/-- The failures of a handshake about which the client is told no more than it has been told
before. -/
structure Unanswered (f : Failure) : Prop where
  noReply : f.replyStatus? = none
  early : ∀ e, f = .transport e → e.kind = .unexpectedEof

/-- The reply to a request that is not understood. -/
def Answers (f : Failure) (bytes : Bytes) : Prop :=
  ∃ version status, f.replyStatus? = some status ∧ bytes = (Reply.bare version status).bytes

theorem OfReading.unanswered {f : Failure} (h : f.OfReading) (hs : f.replyStatus? = none) :
    f.Unanswered := by
  refine ⟨hs, ?_⟩
  rintro e rfl
  exact h

theorem unanswered_authentication (fault : AuthFault) : (authentication fault).Unanswered :=
  ⟨rfl, fun _ h => by cases h⟩

end Failure

theorem Address.listens_readTyped (type : UInt8) :
    (Address.readTyped type).Listens Failure.OfReading := by
  unfold readTyped
  split_ifs
  · exact (listens_block 4).bind fun _ => listens_word.bind fun _ => listens_pure _
  · exact (listens_block 16).bind fun _ => listens_word.bind fun _ => listens_pure _
  · refine listens_byte.bind fun length => .bind ?_ fun _ => listens_word.bind fun _ =>
      listens_pure _
    unfold readName
    split_ifs
    · exact listens_fail trivial
    · refine (listens_block _).bind fun name => ?_
      split
      · exact listens_pure _
      · exact listens_fail trivial
  · exact listens_fail trivial

theorem Address.listens_readV4 {P : Failure → Prop} : (Address.read .v4).Listens P :=
  listens_word.bind fun _ => (listens_block 4).bind fun _ => listens_pure _

theorem Address.listens_read (version : Version) :
    (Address.read version).Listens Failure.OfReading := by
  cases version with
  | v4 => exact listens_readV4
  | v5 => exact listens_byte.bind fun _ => listens_readTyped _

namespace Request

section texts

variable {P : Failure → Prop} (hP : ∀ fault, P (.protocol fault))

include hP

theorem listens_readUntilZero (field : String) (room : Nat) :
    (readUntilZero field room).Listens P := by
  induction room with
  | zero =>
      unfold readUntilZero
      refine listens_byte.bind fun b => ?_
      split_ifs
      · exact listens_pure _
      · exact listens_fail (hP _)
  | succ room ih =>
      unfold readUntilZero
      refine listens_byte.bind fun b => ?_
      split_ifs
      · exact listens_pure _
      · exact ih.bind fun _ => listens_pure _

theorem listens_readText (field : String) : (readText field).Listens P := by
  refine (listens_readUntilZero hP _ _).bind fun bytes => ?_
  split
  · exact listens_pure _
  · exact listens_fail (hP _)

theorem listens_readAnnounced (a : Address) : (readAnnounced a).Listens P := by
  unfold readAnnounced
  split_ifs
  · refine (listens_readText hP _).bind fun host => ?_
    split_ifs
    · exact listens_fail (hP _)
    · exact listens_pure _
  · exact listens_pure _

end texts

theorem listens_judge (version : Version) (b : UInt8) :
    (judge version b).Listens Failure.OfReading := by
  unfold judge
  split
  · exact listens_pure _
  · exact listens_fail trivial

/-- Reading a request says nothing. -/
theorem listens_read (version : Version) : (read version).Listens Failure.OfReading := by
  cases version with
  | v4 =>
      have hP : ∀ fault, Failure.OfReading (.protocol fault) := fun _ => trivial
      exact listens_byte.bind fun _ => Address.listens_readV4.bind fun _ =>
        (listens_readText hP _).bind fun _ => (listens_readAnnounced hP _).bind fun _ =>
          (listens_judge _ _).bind fun _ => listens_pure _
  | v5 =>
      refine .bind ?_ fun _ => (Address.listens_read .v5).bind fun _ => (listens_judge _ _).bind
        fun _ => listens_pure _
      refine (listens_block 3).bind fun header => ?_
      split
      · split_ifs
        · exact listens_fail trivial
        · exact listens_fail trivial
        · exact listens_pure _
      · exact listens_fail rfl

/-- A request is read exactly from the octets that spell it, whatever follows them. -/
theorem eval_read_iff_spelled {version : Version} {input rest said : Bytes} {r : Request} :
    (read version).eval input = ⟨.ok r, rest, said⟩ ↔
      said = [] ∧ ∃ octets, input = octets ++ rest ∧ Spelled version r octets := by
  rw [(listens_read version).eval_eq_ok_iff]
  simp only [reads_read_iff]

end Request

/-! ### The method exchange -/

namespace Authentication

variable {heard said : Bytes}

/-- The octets by which a client shows a user name and a password. -/
def login (user password : String) : Bytes :=
  1 :: (counted (Text.toBytes user) ++ counted (Text.toBytes password))

/-- A user who is let in: one with a name, both fields short enough for their length octets, and a
password that the store accepts. -/
structure Admits (store : CredentialStore) (user password : String) : Prop where
  named : user ≠ ""
  userShort : (Text.toBytes user).length < 256
  passwordShort : (Text.toBytes password).length < 256
  valid : store user password = true

/-- How a client comes to an identity: by offering methods of which the first that is supported
asks for nothing, or by offering methods of which it asks for a password, and showing one. -/
inductive Settles (a : Authenticator) : Identity → Bytes → Bytes → Prop
  | anonymous {methods : Bytes} :
      methods ≠ [] → methods.length < 256 → a.select? methods = some .noAuth →
        Settles a .anonymous (counted methods) [5, 0]
  | user {methods : Bytes} {user password : String} :
      methods ≠ [] → methods.length < 256 → a.select? methods = some .userPass →
      Admits a.store user password →
        Settles a (.user .userPass user) (counted methods ++ login user password) [5, 2, 1, 0]

theorem Settles.said_cases {a : Authenticator} {identity : Identity}
    (h : Settles a identity heard said) : said = [5, 0] ∨ said = [5, 2, 1, 0] := by
  cases h with
  | anonymous => exact .inl rfl
  | user => exact .inr rfl

/-- All that the server says in a method exchange, complete or not. -/
def exchanges : List Bytes := [[], [5, 0xFF], [5, 0], [5, 2], [5, 2, 1, 0], [5, 2, 1, 1]]

theorem mem_exchanges (h : said = [5, 0] ∨ said = [5, 2, 1, 0]) : said ∈ exchanges := by
  rcases h with rfl | rfl <;> simp [exchanges]

theorem listens_readField {P : Failure → Prop} : readField.Listens P :=
  listens_byte.bind fun _ => (listens_block _).bind fun _ => listens_pure _

theorem reads_readField_iff {field : Bytes} :
    readField.Reads heard field ↔ field.length < 256 ∧ heard = counted field := by
  constructor
  · intro h
    obtain ⟨length, _, _, rfl, hl, h₁⟩ := reads_bind_iff.mp h
    obtain ⟨block, _, _, rfl, hb, h₂⟩ := reads_bind_iff.mp h₁
    obtain rfl := reads_byte_iff.mp hl
    obtain rfl := reads_block_iff.mp hb
    obtain ⟨rfl, rfl⟩ := reads_pure_iff.mp h₂
    exact ⟨block.length_bytes_lt, by rw [block.counted_bytes, List.append_nil]; rfl⟩
  · rintro ⟨hlt, rfl⟩
    have hlen := toNat_ofNat_length hlt
    exact (reads_byte _).bind ((reads_block ⟨field, hlen.symm⟩).bind_pure _)

theorem reaches_readField_bind_ok_iff {α : Type} {f : Bytes → Dialogue α} {x : α} :
    (readField >>= f).Reaches heard said (finish (.ok x)) ↔
      ∃ field rest, field.length < 256 ∧ heard = counted field ++ rest ∧
        (f field).Reaches rest said (finish (.ok x)) := by
  have hl := listens_readField (P := fun _ => True)
  rw [reaches_bind_ok_iff]
  constructor
  · rintro ⟨field, _, _, rest, _, rfl, rfl, hr, hf⟩
    obtain ⟨hr, rfl⟩ := hl.reaches_ok_iff.mp hr
    obtain ⟨hlt, rfl⟩ := reads_readField_iff.mp hr
    exact ⟨field, rest, hlt, rfl, hf⟩
  · rintro ⟨field, rest, hlt, rfl, hf⟩
    exact ⟨field, _, [], rest, said, rfl, rfl, reads_readField_iff.mpr ⟨hlt, rfl⟩, hf⟩

theorem not_reaches_refuse_ok {fault : AuthFault} {user : String} :
    ¬(refuse fault).Reaches heard said (finish (.ok user)) := by
  intro h
  obtain ⟨s, -, h₁⟩ := reaches_say_bind_ok_iff.mp h
  exact not_reaches_fail_ok h₁

theorem reaches_check_iff {store : CredentialStore} {name password : Bytes} {user : String} :
    (check store name password).Reaches heard said (finish (.ok user)) ↔
      ∃ pass, name = Text.toBytes user ∧ password = Text.toBytes pass ∧ user ≠ "" ∧
        store user pass = true ∧ heard = [] ∧ said = [1, 0] := by
  unfold check
  split
  · rename_i name' pass hn hp
    obtain rfl := Text.ofBytes?_eq_some_iff.mp hn
    obtain rfl := Text.ofBytes?_eq_some_iff.mp hp
    constructor
    · intro h
      split_ifs at h with hz hs
      · exact absurd h not_reaches_refuse_ok
      · obtain ⟨s, rfl, h₁⟩ := reaches_say_bind_ok_iff.mp h
        obtain ⟨rfl, rfl, rfl⟩ := reaches_pure_ok_iff.mp h₁
        exact ⟨pass, rfl, rfl, hz, hs, rfl, rfl⟩
      · exact absurd h not_reaches_refuse_ok
    · rintro ⟨pass', hn', hp', hz, hs, rfl, rfl⟩
      obtain rfl := Text.toBytes_inj.mp hn'
      obtain rfl := Text.toBytes_inj.mp hp'
      rw [if_neg hz, if_pos hs]
      exact reaches_say_bind_ok_iff.mpr ⟨[], rfl, reaches_pure_ok_iff.mpr ⟨rfl, rfl, rfl⟩⟩
  · rename_i hno
    constructor
    · exact fun h => absurd h not_reaches_refuse_ok
    · rintro ⟨pass, rfl, rfl, -⟩
      exact (hno user pass (Text.ofBytes?_toBytes _) (Text.ofBytes?_toBytes _)).elim

/-- A password exchange succeeds exactly when a user who is let in shows name and password. -/
theorem reaches_password_iff {store : CredentialStore} {user : String} :
    (password store).Reaches heard said (finish (.ok user)) ↔
      ∃ pass, Admits store user pass ∧ heard = login user pass ∧ said = [1, 0] := by
  constructor
  · intro h
    obtain ⟨version, _, rfl, h₁⟩ := reaches_byte_bind_ok_iff.mp h
    split_ifs at h₁ with hv
    · exact absurd h₁ not_reaches_refuse_ok
    obtain ⟨name, _, hn, rfl, h₂⟩ := reaches_readField_bind_ok_iff.mp h₁
    obtain ⟨password, _, hp, rfl, h₃⟩ := reaches_readField_bind_ok_iff.mp h₂
    obtain ⟨pass, rfl, rfl, hne, hs, rfl, rfl⟩ := reaches_check_iff.mp h₃
    obtain rfl := not_not.mp hv
    exact ⟨pass, ⟨hne, hn, hp, hs⟩, by rw [List.append_nil]; rfl, rfl⟩
  · rintro ⟨pass, ⟨hne, hn, hp, hs⟩, rfl, rfl⟩
    refine reaches_byte_bind_ok_iff.mpr ⟨1, _, rfl, ?_⟩
    rw [if_neg (by simp)]
    refine reaches_readField_bind_ok_iff.mpr ⟨Text.toBytes user, _, hn, rfl, ?_⟩
    refine reaches_readField_bind_ok_iff.mpr
      ⟨Text.toBytes pass, [], hp, (List.append_nil _).symm, ?_⟩
    exact reaches_check_iff.mpr ⟨pass, rfl, rfl, hne, hs, rfl, rfl⟩

/-- The two ways on from the choice of a method. -/
theorem reaches_proceed_iff {a : Authenticator} {offered : Bytes} {chosen : Option Method}
    {identity : Identity} :
    (proceed a offered chosen).Reaches heard said (finish (.ok identity)) ↔
      (chosen = some .noAuth ∧ identity = .anonymous ∧ heard = [] ∧ said = []) ∨
        chosen = some .userPass ∧ ∃ user pass, Admits a.store user pass ∧
          identity = .user .userPass user ∧ heard = login user pass ∧ said = [1, 0] := by
  match chosen with
  | none => simp [proceed, not_reaches_fail_ok]
  | some .noAuth =>
      constructor
      · intro h
        obtain ⟨rfl, rfl, rfl⟩ := reaches_pure_ok_iff.mp h
        exact .inl ⟨rfl, rfl, rfl, rfl⟩
      · rintro (⟨-, rfl, rfl, rfl⟩ | ⟨h, -⟩)
        · exact reaches_pure_ok_iff.mpr ⟨rfl, rfl, rfl⟩
        · cases h
  | some .userPass =>
      constructor
      · intro h
        obtain ⟨user, _, _, _, _, rfl, rfl, h₁, h₂⟩ := reaches_bind_ok_iff.mp h
        obtain ⟨pass, hu, rfl, rfl⟩ := reaches_password_iff.mp h₁
        obtain ⟨rfl, rfl, rfl⟩ := reaches_pure_ok_iff.mp h₂
        exact .inr ⟨rfl, user, pass, hu, rfl, List.append_nil _, rfl⟩
      · rintro (⟨h, -⟩ | ⟨-, user, pass, hu, rfl, rfl, rfl⟩)
        · cases h
        · have h := reaches_password_iff.mpr ⟨pass, hu, rfl, rfl⟩
          exact reaches_bind_ok_iff.mpr ⟨user, _, _, [], [], (List.append_nil _).symm, rfl, h,
            reaches_pure_ok_iff.mpr ⟨rfl, rfl, rfl⟩⟩

/-- A client that offers methods goes on as the choice among them tells. -/
theorem reaches_negotiate_of_proceed {a : Authenticator} {identity : Identity} {methods : Bytes}
    (hne : methods ≠ []) (hlt : methods.length < 256)
    (h : (proceed a methods (a.select? methods)).Reaches heard said (finish (.ok identity))) :
    (negotiate a).Reaches (counted methods ++ heard) (choice (a.select? methods) ++ said)
      (finish (.ok identity)) := by
  have hlen := toNat_ofNat_length hlt
  refine reaches_byte_bind_ok_iff.mpr ⟨UInt8.ofNat methods.length, methods ++ heard, rfl, ?_⟩
  rw [if_neg (ofNat_length_ne_zero hlt hne)]
  refine reaches_block_bind_ok_iff.mpr ⟨⟨methods, hlen.symm⟩, heard, rfl, ?_⟩
  exact reaches_say_bind_ok_iff.mpr ⟨said, rfl, h⟩

/-- A method exchange comes to an identity exactly when the client settles on one. -/
theorem reaches_negotiate_iff {a : Authenticator} {identity : Identity} :
    (negotiate a).Reaches heard said (finish (.ok identity)) ↔ Settles a identity heard said := by
  constructor
  · intro h
    obtain ⟨count, _, rfl, h₁⟩ := reaches_byte_bind_ok_iff.mp h
    split_ifs at h₁ with hc
    · obtain ⟨s, -, h₂⟩ := reaches_say_bind_ok_iff.mp h₁
      exact absurd h₂ not_reaches_fail_ok
    obtain ⟨offered, rest, rfl, h₂⟩ := reaches_block_bind_ok_iff.mp h₁
    obtain ⟨s, rfl, h₃⟩ := reaches_say_bind_ok_iff.mp h₂
    have hlt := offered.length_bytes_lt
    have hne := offered.bytes_ne_nil hc
    rcases reaches_proceed_iff.mp h₃ with ⟨hm, rfl, rfl, rfl⟩ | ⟨hm, user, pass, hu, rfl, rfl, rfl⟩
    · have hsettles := Settles.anonymous hne hlt hm
      rw [offered.counted_bytes] at hsettles
      rw [hm, List.append_nil]
      exact hsettles
    · have hsettles := Settles.user hne hlt hm hu
      rw [offered.counted_bytes] at hsettles
      rw [hm]
      exact hsettles
  · intro h
    cases h with
    | @anonymous methods hne hlt hm =>
        have hp : (proceed a methods (a.select? methods)).Reaches [] [] _ :=
          reaches_proceed_iff.mpr (.inl ⟨hm, rfl, rfl, rfl⟩)
        have h := reaches_negotiate_of_proceed hne hlt hp
        rwa [hm, List.append_nil] at h
    | @user methods user pass hne hlt hm hu =>
        have hp : (proceed a methods (a.select? methods)).Reaches (login user pass) [1, 0] _ :=
          reaches_proceed_iff.mpr (.inr ⟨hm, user, pass, hu, rfl, rfl, rfl⟩)
        have h := reaches_negotiate_of_proceed hne hlt hp
        rwa [hm] at h

/-- Where a password exchange may stand, by what has been said. -/
structure Standing (said : Bytes) (failure? : Option Failure) : Prop where
  said : said = [] ∨ said = [1, 0] ∨ said = [1, 1]
  failure : ∀ f, failure? = some f → ∃ fault, f = .authentication fault

theorem standing_refuse {fault : AuthFault} {d' : Dialogue String}
    (h : (refuse fault).Reaches heard said d') : Standing said d'.failure? := by
  unfold refuse at h
  rw [reaches_say_bind_iff] at h
  rcases h with ⟨rfl, rfl, rfl⟩ | ⟨s, rfl, h⟩
  · exact ⟨.inl rfl, fun f hf => by cases hf⟩
  · obtain ⟨rfl, rfl, rfl⟩ := reaches_finish_iff.mp h
    exact ⟨.inr (.inr rfl), fun f hf => by cases hf; exact ⟨fault, rfl⟩⟩

theorem standing_check {store : CredentialStore} {name password : Bytes} {d' : Dialogue String}
    (h : (check store name password).Reaches heard said d') : Standing said d'.failure? := by
  unfold check at h
  split at h
  · split_ifs at h
    · exact standing_refuse h
    · rw [reaches_say_bind_iff] at h
      rcases h with ⟨rfl, rfl, rfl⟩ | ⟨s, rfl, h⟩
      · exact ⟨.inl rfl, fun f hf => by cases hf⟩
      · obtain ⟨rfl, rfl, rfl⟩ := reaches_finish_iff.mp h
        exact ⟨.inr (.inl rfl), fun f hf => by cases hf⟩
    · exact standing_refuse h
  · exact standing_refuse h

theorem Standing.silent {failure? : Option Failure} (h : failure? = none) :
    Standing [] failure? := by
  refine ⟨.inl rfl, fun f hf => ?_⟩
  rw [h] at hf
  cases hf

/-- Only three things are said in a password exchange. -/
theorem standing_password {store : CredentialStore} {d' : Dialogue String}
    (h : (password store).Reaches heard said d') : Standing said d'.failure? := by
  rcases listens_byte.reaches_bind h with ⟨rfl, hf⟩ | ⟨version, _, _, -, -, h₁⟩
  · exact .silent hf
  split_ifs at h₁
  · exact standing_refuse h₁
  rcases listens_readField.reaches_bind h₁ with ⟨rfl, hf⟩ | ⟨name, _, _, -, -, h₂⟩
  · exact .silent hf
  rcases listens_readField.reaches_bind h₂ with ⟨rfl, hf⟩ | ⟨password, _, _, -, -, h₃⟩
  · exact .silent hf
  exact standing_check h₃

/-- What is said from the choice of a method on. -/
theorem said_proceed {a : Authenticator} {offered : Bytes} {chosen : Option Method}
    {d' : Dialogue Identity} (h : (proceed a offered chosen).Reaches heard said d') :
    choice chosen ++ said ∈ exchanges ∧
      ∀ f, d'.failure? = some f → ∃ fault, f = .authentication fault := by
  unfold exchanges
  match chosen with
  | none =>
      obtain ⟨-, rfl, rfl⟩ := reaches_finish_iff.mp h
      exact ⟨by simp [choice, noneAcceptable], fun f hf => by cases hf; exact ⟨_, rfl⟩⟩
  | some .noAuth =>
      obtain ⟨-, rfl, rfl⟩ := reaches_finish_iff.mp h
      exact ⟨by simp [choice, Method.byte], fun f hf => by cases hf⟩
  | some .userPass =>
      rcases reaches_bind_iff.mp h with ⟨d₀, h₀, hno, rfl⟩ | ⟨user, _, _, _, _, -, rfl, h₀, h₁⟩
      · rw [failure?_bind hno]
        obtain ⟨hs, hf⟩ := standing_password h₀
        refine ⟨?_, hf⟩
        rcases hs with rfl | rfl | rfl <;> simp [choice, Method.byte]
      · obtain ⟨pass, -, -, rfl⟩ := reaches_password_iff.mp h₀
        obtain ⟨-, rfl, rfl⟩ := reaches_finish_iff.mp h₁
        exact ⟨by simp [choice, Method.byte], fun f hf => by cases hf⟩

/-- Only the messages of `exchanges` are said in a method exchange, and it fails only by turning
the client away. -/
theorem said_negotiate {a : Authenticator} {d' : Dialogue Identity}
    (h : (negotiate a).Reaches heard said d') :
    said ∈ exchanges ∧ ∀ f, d'.failure? = some f → ∃ fault, f = .authentication fault := by
  rcases listens_byte.reaches_bind h with ⟨rfl, hf⟩ | ⟨count, _, _, -, -, h₁⟩
  · exact ⟨by simp [exchanges], by simp [hf]⟩
  split_ifs at h₁
  · rcases reaches_say_bind_iff.mp h₁ with ⟨-, rfl, rfl⟩ | ⟨s, rfl, h₂⟩
    · exact ⟨by simp [exchanges], fun f hf => by cases hf⟩
    · obtain ⟨-, rfl, rfl⟩ := reaches_finish_iff.mp h₂
      exact ⟨by simp [exchanges, choice, noneAcceptable], fun f hf => by cases hf; exact ⟨_, rfl⟩⟩
  rcases (listens_block _).reaches_bind h₁ with ⟨rfl, hf⟩ | ⟨offered, _, _, -, -, h₂⟩
  · exact ⟨by simp [exchanges], by simp [hf]⟩
  rcases reaches_say_bind_iff.mp h₂ with ⟨-, rfl, rfl⟩ | ⟨s, rfl, h₃⟩
  · exact ⟨by simp [exchanges], fun f hf => by cases hf⟩
  exact said_proceed h₃

theorem candid_refuse (fault : AuthFault) :
    (refuse fault).Candid Failure.Unanswered Failure.Answers :=
  (candid_say _).bind fun _ => candid_fail (Failure.unanswered_authentication fault)

theorem candid_password (store : CredentialStore) :
    (password store).Candid Failure.Unanswered Failure.Answers := by
  refine listens_byte.candid.bind fun version => ?_
  split_ifs
  · exact candid_refuse _
  refine listens_readField.candid.bind fun name => listens_readField.candid.bind fun password => ?_
  unfold check
  split
  · split_ifs
    · exact candid_refuse _
    · exact (candid_say _).bind fun _ => candid_pure _
    · exact candid_refuse _
  · exact candid_refuse _

theorem candid_negotiate (a : Authenticator) :
    (negotiate a).Candid Failure.Unanswered Failure.Answers := by
  refine listens_byte.candid.bind fun count => ?_
  split_ifs
  · exact (candid_say _).bind fun _ => candid_fail (Failure.unanswered_authentication _)
  refine (listens_block _).candid.bind fun offered => (candid_say _).bind fun _ => ?_
  match a.select? offered.bytes with
  | none => exact candid_fail (Failure.unanswered_authentication _)
  | some .noAuth => exact candid_pure _
  | some .userPass => exact (candid_password _).bind fun _ => candid_pure _

end Authentication

/-! ### The whole handshake -/

namespace Handshake

variable {heard said : Bytes}

/-- How a client comes to a request: the octets that it says and those that it is told. -/
inductive Accepts (a : Authenticator) : Request → Bytes → Bytes → Prop
  | v4 {r : Request} {octets : Bytes} :
      a.acceptsAnonymous = true → r.SpelledV4 octets → Accepts a r (4 :: octets) []
  | v5 {r : Request} {identity : Identity} {exchange octets said : Bytes} :
      Authentication.Settles a identity exchange said → r.SpelledV5 octets →
        Accepts a { r with identity := identity } (5 :: (exchange ++ octets)) said

/-- The reply that a client of a version gets for a failure of its handshake, if it gets one. -/
def owed? : Version → Failure → Option Reply
  | .v4, .authentication _ => some (.bare .v4 .ruleFailure)
  | version, f => f.replyStatus?.map (Reply.bare version)

/-- The replies that a client gets for the way in which a handshake has ended, if it has. -/
def owed (version : Version) (failure? : Option Failure) : List Reply :=
  (failure?.bind (owed? version)).toList

theorem owed?_of_reading {version : Version} {f : Failure} (h : f.OfReading) :
    owed? version f = f.replyStatus?.map (Reply.bare version) := by
  unfold owed?
  split
  · exact h.elim
  · rfl

theorem said_turnDown {version : Version} {f : Failure} {d' : Dialogue Request}
    (hf : f.OfReading) (h : (turnDown version f).Reaches heard said d') :
    said = (owed version d'.failure?).flatMap Reply.bytes ∧
      ∀ f', d'.failure? = some f' → f'.OfReading := by
  unfold turnDown at h
  split at h
  · rename_i status hs
    rcases reaches_bind_iff.mp h with ⟨d₀, h₀, hno, rfl⟩ | ⟨_, _, _, _, _, -, rfl, h₀, h₁⟩
    · obtain ⟨-, ⟨rfl, rfl⟩ | ⟨-, rfl⟩⟩ := reaches_trySay_iff.mp h₀
      · exact ⟨rfl, fun f' hf' => by cases hf'⟩
      · exact absurd rfl (hno ())
    · obtain ⟨-, ⟨-, he⟩ | ⟨rfl, -⟩⟩ := reaches_trySay_iff.mp h₀
      · cases he
      · obtain ⟨-, rfl, rfl⟩ := reaches_finish_iff.mp h₁
        refine ⟨?_, fun f' hf' => by cases hf'; exact hf⟩
        simp [owed, failure?, owed?_of_reading hf, hs]
  · rename_i hs
    obtain ⟨-, rfl, rfl⟩ := reaches_finish_iff.mp h
    refine ⟨?_, fun f' hf' => by cases hf'; exact hf⟩
    simp [owed, failure?, owed?_of_reading hf, hs]

/-- A request that was heard got the reply that it was owed, if it was owed one. -/
theorem said_hear {version : Version} {d' : Dialogue Request}
    (h : (hear version).Reaches heard said d') :
    said = (owed version d'.failure?).flatMap Reply.bytes ∧
      ∀ f, d'.failure? = some f → f.OfReading := by
  have hl := Request.listens_read version
  unfold hear at h
  rcases reaches_bind_iff.mp h with ⟨d₀, h₀, hno, rfl⟩ | ⟨r, _, _, _, _, -, rfl, h₀, h₁⟩
  · obtain ⟨d₁, h₁, rfl⟩ := reaches_attempt_iff.mp h₀
    obtain rfl := hl.said_eq_nil h₁
    rw [failure?_bind hno]
    have hnone : d₁.attempt.failure? = none := by cases d₁ <;> rfl
    simp [hnone, owed]
  · rw [reaches_attempt_ok_iff] at h₀
    obtain rfl := hl.said_eq_nil h₀
    cases r with
    | ok r =>
        obtain ⟨-, rfl, rfl⟩ := reaches_finish_iff.mp h₁
        exact ⟨rfl, fun f hf => by cases hf⟩
    | error f => exact said_turnDown (hl.failure h₀) h₁

theorem not_reaches_turnDown_ok {version : Version} {f : Failure} {r : Request} :
    ¬(turnDown version f).Reaches heard said (finish (.ok r)) := by
  intro h
  unfold turnDown at h
  split at h
  · obtain ⟨_, _, _, _, _, -, -, -, h'⟩ := reaches_bind_ok_iff.mp h
    exact not_reaches_fail_ok h'
  · exact not_reaches_fail_ok h

theorem reaches_hear_ok_iff {version : Version} {r : Request} :
    (hear version).Reaches heard said (finish (.ok r)) ↔
      Request.Spelled version r heard ∧ said = [] := by
  have hl := Request.listens_read version
  unfold hear
  rw [reaches_bind_ok_iff]
  constructor
  · rintro ⟨result, h₁, s₁, h₂, s₂, rfl, rfl, h, h'⟩
    rw [reaches_attempt_ok_iff] at h
    cases result with
    | ok r' =>
        obtain ⟨rfl, rfl, e⟩ := reaches_finish_iff.mp h'
        cases e
        obtain ⟨hr, rfl⟩ := hl.reaches_ok_iff.mp h
        rw [List.append_nil]
        exact ⟨Request.reads_read_iff.mp hr, rfl⟩
    | error f => exact absurd h' not_reaches_turnDown_ok
  · rintro ⟨h, rfl⟩
    have hr : (Request.read version).Reads heard r := Request.reads_read_iff.mpr h
    exact ⟨.ok r, heard, [], [], [], (List.append_nil _).symm, rfl, reaches_attempt_ok_iff.mpr hr,
      reaches_pure_ok_iff.mpr ⟨rfl, rfl, rfl⟩⟩

theorem reaches_hear_bind_ok_iff {α : Type} {version : Version} {f : Request → Dialogue α} {x : α} :
    (hear version >>= f).Reaches heard said (finish (.ok x)) ↔
      ∃ r octets rest, heard = octets ++ rest ∧ Request.Spelled version r octets ∧
        (f r).Reaches rest said (finish (.ok x)) := by
  rw [reaches_bind_ok_iff]
  constructor
  · rintro ⟨r, octets, _, rest, _, rfl, rfl, hr, hf⟩
    obtain ⟨hspelled, rfl⟩ := reaches_hear_ok_iff.mp hr
    exact ⟨r, octets, rest, rfl, hspelled, hf⟩
  · rintro ⟨r, octets, rest, rfl, hspelled, hf⟩
    exact ⟨r, octets, [], rest, said, rfl, rfl, reaches_hear_ok_iff.mpr ⟨hspelled, rfl⟩, hf⟩

theorem candid_turnDown (version : Version) {f : Failure} (hf : f.OfReading) :
    (turnDown version f).Candid Failure.Unanswered Failure.Answers := by
  unfold turnDown
  split
  · rename_i status hs
    exact candid_trySay_fail ⟨version, status, hs, rfl⟩
  · rename_i hs
    exact candid_fail (hf.unanswered hs)

theorem candid_hear (version : Version) :
    (hear version).Candid Failure.Unanswered Failure.Answers :=
  (Request.listens_read version).attempt_bind_candid candid_pure
    fun _ hf => candid_turnDown version hf

/-- A failed write ends the handshake with the failure to write, unless it is the reply to a request
that is not understood. -/
theorem candid_greet (a : Authenticator) :
    (greet a).Candid Failure.Unanswered Failure.Answers := by
  refine listens_byte.candid.bind fun b => ?_
  split
  · refine (candid_hear .v4).bind fun r => ?_
    split_ifs
    · exact candid_pure _
    · exact (candid_say _).bind fun _ => candid_fail (Failure.unanswered_authentication _)
  · exact (Authentication.candid_negotiate a).bind fun _ => (candid_hear .v5).bind
      fun _ => candid_pure _
  · exact candid_fail ⟨rfl, fun _ h => by cases h⟩

theorem ofByte?_eq_some_iff {b : UInt8} {version : Version} :
    Version.ofByte? b = some version ↔ b = version.byte := by
  unfold Version.ofByte?
  constructor
  · intro h
    split_ifs at h <;> cases h <;> assumption
  · rintro rfl
    cases version <;> simp [Version.byte]

theorem reaches_greetV4_iff {a : Authenticator} {r : Request} :
    (greetV4 a).Reaches heard said (finish (.ok r)) ↔
      a.acceptsAnonymous = true ∧ r.SpelledV4 heard ∧ said = [] := by
  unfold greetV4
  rw [reaches_hear_bind_ok_iff]
  constructor
  · rintro ⟨r', octets, rest, rfl, hr, h⟩
    split_ifs at h with ha
    · obtain ⟨rfl, rfl, rfl⟩ := reaches_pure_ok_iff.mp h
      rw [List.append_nil]
      exact ⟨ha, hr, rfl⟩
    · obtain ⟨s, -, h₁⟩ := reaches_say_bind_ok_iff.mp h
      exact absurd h₁ not_reaches_fail_ok
  · rintro ⟨ha, hr, rfl⟩
    refine ⟨r, heard, [], (List.append_nil _).symm, hr, ?_⟩
    rw [if_pos ha]
    exact reaches_pure_ok_iff.mpr ⟨rfl, rfl, rfl⟩

theorem reaches_greetV5_iff {a : Authenticator} {r : Request} :
    (greetV5 a).Reaches heard said (finish (.ok r)) ↔
      ∃ (identity : Identity) (exchange : Bytes) (r₀ : Request) (octets : Bytes),
        Authentication.Settles a identity exchange said ∧ r₀.SpelledV5 octets ∧
          heard = exchange ++ octets ∧ r = { r₀ with identity := identity } := by
  unfold greetV5
  rw [reaches_bind_ok_iff]
  constructor
  · rintro ⟨identity, exchange, told, _, _, rfl, rfl, hi, h⟩
    obtain ⟨r₀, octets, rest, rfl, hr, h₁⟩ := reaches_hear_bind_ok_iff.mp h
    obtain ⟨rfl, rfl, rfl⟩ := reaches_pure_ok_iff.mp h₁
    rw [List.append_nil, List.append_nil]
    exact ⟨identity, exchange, r₀, octets, Authentication.reaches_negotiate_iff.mp hi, hr, rfl, rfl⟩
  · rintro ⟨identity, exchange, r₀, octets, hi, hr, rfl, rfl⟩
    refine ⟨identity, exchange, said, octets, [], rfl, (List.append_nil _).symm,
      Authentication.reaches_negotiate_iff.mpr hi, ?_⟩
    exact reaches_hear_bind_ok_iff.mpr ⟨r₀, octets, [], (List.append_nil _).symm, hr,
      reaches_pure_ok_iff.mpr ⟨rfl, rfl, rfl⟩⟩

/-- The handshake comes to a request exactly when the client spells one that is accepted. -/
theorem reaches_greet_iff {a : Authenticator} {r : Request} :
    (greet a).Reaches heard said (finish (.ok r)) ↔ Accepts a r heard said := by
  unfold greet
  rw [reaches_byte_bind_ok_iff]
  constructor
  · rintro ⟨b, rest, rfl, h⟩
    split at h
    · rename_i hv
      obtain rfl := ofByte?_eq_some_iff.mp hv
      obtain ⟨ha, hr, rfl⟩ := reaches_greetV4_iff.mp h
      exact .v4 ha hr
    · rename_i hv
      obtain rfl := ofByte?_eq_some_iff.mp hv
      obtain ⟨identity, exchange, r₀, octets, hi, hr, rfl, rfl⟩ := reaches_greetV5_iff.mp h
      exact .v5 hi hr
    · exact absurd h not_reaches_fail_ok
  · intro h
    cases h with
    | @v4 r octets ha hr =>
        refine ⟨4, octets, rfl, ?_⟩
        rw [ofByte?_eq_some_iff.mpr (show (4 : UInt8) = Version.v4.byte from rfl)]
        exact reaches_greetV4_iff.mpr ⟨ha, hr, rfl⟩
    | @v5 r identity exchange octets said hi hr =>
        refine ⟨5, exchange ++ octets, rfl, ?_⟩
        rw [ofByte?_eq_some_iff.mpr (show (5 : UInt8) = Version.v5.byte from rfl)]
        exact reaches_greetV5_iff.mpr ⟨identity, exchange, r, octets, hi, hr, rfl, rfl⟩

/-- What has been said in a handshake by a given moment, with what had been heard by then and the
failure in which it has ended, if it has: a message of the method exchange and the reply that is
owed. No reply is owed before the method exchange has let the client in. -/
inductive Spoken : Bytes → Bytes → Option Failure → Prop
  | silent : Spoken [] [] none
  | unknown {b : UInt8} :
      Version.ofByte? b = none → Spoken [b] [] (some (.unsupportedVersion b))
  | v4 (heard : Bytes) (failure? : Option Failure) :
      Spoken (4 :: heard) ((owed .v4 failure?).flatMap Reply.bytes) failure?
  | v5 (heard : Bytes) {exchange : Bytes} {failure? : Option Failure} :
      exchange ∈ Authentication.exchanges →
      (owed .v5 failure? ≠ [] → exchange = [5, 0] ∨ exchange = [5, 2, 1, 0]) →
        Spoken (5 :: heard) (exchange ++ (owed .v5 failure?).flatMap Reply.bytes) failure?

theorem spoken_greetV4 {a : Authenticator} {d' : Dialogue Request}
    (h : (greetV4 a).Reaches heard said d') :
    said = (owed .v4 d'.failure?).flatMap Reply.bytes := by
  unfold greetV4 at h
  rcases reaches_bind_iff.mp h with ⟨d₀, h₀, hno, rfl⟩ | ⟨r, _, _, _, _, -, rfl, h₀, h₁⟩
  · rw [failure?_bind hno]
    exact (said_hear h₀).1
  · obtain ⟨-, rfl⟩ := reaches_hear_ok_iff.mp h₀
    split_ifs at h₁
    · obtain ⟨-, rfl, rfl⟩ := reaches_finish_iff.mp h₁
      rfl
    · rcases reaches_say_bind_iff.mp h₁ with ⟨-, rfl, rfl⟩ | ⟨s, rfl, h₂⟩
      · rfl
      · obtain ⟨-, rfl, rfl⟩ := reaches_finish_iff.mp h₂
        rfl

theorem spoken_greetV5 {a : Authenticator} {d' : Dialogue Request}
    (h : (greetV5 a).Reaches heard said d') :
    ∃ exchange ∈ Authentication.exchanges,
      (owed .v5 d'.failure? ≠ [] → exchange = [5, 0] ∨ exchange = [5, 2, 1, 0]) ∧
        said = exchange ++ (owed .v5 d'.failure?).flatMap Reply.bytes := by
  unfold greetV5 at h
  rcases reaches_bind_iff.mp h with ⟨d₀, h₀, hno, rfl⟩ | ⟨identity, _, _, _, _, -, rfl, h₀, h₁⟩
  · obtain ⟨hs, hf⟩ := Authentication.said_negotiate h₀
    have howed : owed .v5 d₀.failure? = [] := by
      cases hd : d₀.failure? with
      | none => rfl
      | some f =>
          obtain ⟨fault, rfl⟩ := hf f hd
          rfl
    rw [failure?_bind hno, howed]
    exact ⟨said, hs, fun hne => absurd rfl hne, (List.append_nil _).symm⟩
  · -- The method exchange is over: it was one of the two that let a client in.
    have hlet := (Authentication.reaches_negotiate_iff.mp h₀).said_cases
    have hmem := Authentication.mem_exchanges hlet
    rcases reaches_bind_iff.mp h₁ with ⟨d₁, h₂, hno, rfl⟩ | ⟨r, _, _, _, _, -, rfl, h₂, h₃⟩
    · rw [failure?_bind hno]
      exact ⟨_, hmem, fun _ => hlet, by rw [(said_hear h₂).1]⟩
    · obtain ⟨-, rfl⟩ := reaches_hear_ok_iff.mp h₂
      obtain ⟨-, rfl, rfl⟩ := reaches_finish_iff.mp h₃
      exact ⟨_, hmem, fun _ => hlet, rfl⟩

/-- At every point of a handshake the server has said a message of the method exchange and the
reply that is owed. -/
theorem spoken_greet {a : Authenticator} {d' : Dialogue Request}
    (h : (greet a).Reaches heard said d') : Spoken heard said d'.failure? := by
  rcases reaches_bind_iff.mp h with ⟨d₀, h₀, hno, rfl⟩ | ⟨b, _, _, _, _, rfl, rfl, h₀, h₁⟩
  · rw [failure?_bind hno]
    rcases reaches_read_iff.mp h₀ with ⟨rfl, rfl, rfl⟩ | ⟨b, _, -, h₁⟩
    · exact .silent
    · obtain ⟨-, -, rfl⟩ := reaches_finish_iff.mp h₁
      exact absurd rfl (hno _)
  · obtain ⟨rfl, rfl⟩ := reaches_byte_iff.mp h₀
    split at h₁
    · rename_i hv
      obtain rfl := ofByte?_eq_some_iff.mp hv
      rw [List.nil_append, spoken_greetV4 h₁]
      exact .v4 _ _
    · rename_i hv
      obtain rfl := ofByte?_eq_some_iff.mp hv
      obtain ⟨exchange, hmem, hlet, rfl⟩ := spoken_greetV5 h₁
      exact .v5 _ hmem hlet
    · rename_i hv
      obtain ⟨rfl, rfl, rfl⟩ := reaches_finish_iff.mp h₁
      exact .unknown hv

end Handshake

end Socks
