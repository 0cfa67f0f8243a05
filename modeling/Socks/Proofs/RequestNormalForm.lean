import Socks.Proofs.AddressCodec
import Socks.Proofs.RequestGrammar
import Socks.Proofs.RuleGate

/-!
# What rules can rely on

Rules see requests whose destination is given in one way only, and in a form that can be written;
whose parts are those that their version has; and that bear the name under which the client has come
in, and no other.

Main statement: `Session.consulted_normal`.
-/

namespace Socks

open Handshake

/-! ### Destinations -/

namespace Address

variable {a : Address} {octets : Bytes}

theorem SpelledV5.short (h : a.SpelledV5 octets) : (Text.toBytes a.name).length ≤ 255 := by
  cases h with
  | v4 => exact Nat.zero_le 255
  | v6 => exact Nat.zero_le 255
  | name _ _ hlt => exact Nat.le_of_lt_succ hlt

theorem Definite.route_ne_nowhere (h : a.Definite) : a.route ≠ .nowhere := by
  rcases definite_iff.mp h with ⟨ip, port, rfl⟩ | ⟨host, port, hne, rfl⟩
  · simp [route, literal]
  · simp [route, named, hne]

/-- A destination that is somewhere becomes an endpoint, or its name is not found. -/
theorem resolve_ne_protocol (h : a.route ≠ .nowhere) (lookup : String → Except IoError IpAddress)
    (fault : ProtocolFault) : a.resolve lookup ≠ .error (.protocol fault) := by
  unfold resolve
  split
  · exact fun he => by cases he
  · split
    · exact fun he => by cases he
    · exact fun he => by cases he
  · exact absurd ‹_› h

end Address

/-! ### Requests -/

namespace Request

/-- What is so of every request, whoever makes it. -/
structure Normal (r : Request) : Prop where
  definite : r.destination.Definite
  nameShort : (Text.toBytes r.destination.name).length ≤ 255
  command : r.version = .v4 → r.command = .connect ∨ r.command = .bind
  literal : r.version = .v4 → ∀ ip, r.destination.ip? = some ip →
    ∃ octets : Block 4, ip = .v4 octets ∧ ¬octets.IsMark
  zeroFree : r.version = .v4 → 0 ∉ Text.toBytes r.destination.name

variable {r : Request} {octets : Bytes}

theorem Normal.ofClient (h : r.Normal) (client? : Option Endpoint) :
    ({ r with client? := client? } : Request).Normal :=
  ⟨h.definite, h.nameShort, h.command, h.literal, h.zeroFree⟩

theorem Normal.ofIdentity (h : r.Normal) (identity : Identity) :
    ({ r with identity := identity } : Request).Normal :=
  ⟨h.definite, h.nameShort, h.command, h.literal, h.zeroFree⟩

theorem SpelledV4.normal (h : r.SpelledV4 octets) : r.Normal := by
  have hcommand : ∀ command : Command, command ≠ .associate →
      command = .connect ∨ command = .bind :=
    fun command hne => (code_command_iff.mpr ⟨rfl, hne⟩).imp And.right And.right
  cases h with
  | @literal command octets port user hc hu ha =>
      have hmark : ¬octets.IsMark := Address.announcesName_literal_eq_false_iff.mp ha
      refine ⟨Address.definite_literal _ port, Nat.zero_le 255, fun _ => hcommand _ hc, ?_,
        fun _ => List.not_mem_nil⟩
      rintro - ip ⟨⟩
      exact ⟨octets, rfl, hmark⟩
  | @named command octets port user host hc hu ha hne hh =>
      exact ⟨Address.definite_named hne port, hh.short, fun _ => hcommand _ hc, nofun,
        fun _ => hh.zeroFree⟩

theorem SpelledV5.normal (h : r.SpelledV5 octets) : r.Normal := by
  cases h with
  | mk command hd =>
      exact ⟨(Address.spelledV5_iff.mp hd).1, hd.short, nofun, nofun, nofun⟩

end Request

/-! ### Clients -/

namespace Authentication

/-- An identity that an authenticator vouches for: that of a client without a name, or of one with a
name for which it has accepted a password. -/
inductive Vouches (a : Authenticator) : Identity → Prop
  | anonymous : Vouches a ⟨.noAuth, none⟩
  | user {user password : String} :
      user ≠ "" → a.store user password = true → Vouches a ⟨.userPass, some user⟩

theorem Settles.vouches {a : Authenticator} {identity : Identity} {heard said : Bytes}
    (h : Settles a identity heard said) : Vouches a identity := by
  cases h with
  | anonymous => exact .anonymous
  | user _ _ _ hu => exact .user hu.named hu.valid

end Authentication

namespace Handshake

/-- Who the client of a version is, by all that it has sent: in SOCKS4 whoever it says, if it says
anything; in SOCKS5 who it is after the method exchange that opens the connection. -/
inductive Identifies (a : Authenticator) : Version → Identity → Bytes → Prop
  | v4 (form : Request.FormV4) (rest : Bytes) :
      Identifies a .v4 ⟨.noAuth, if form.user.text = "" then none else some form.user.text⟩
        (4 :: (form.bytes ++ rest))
  | v5 {identity : Identity} {told rest said : Bytes} :
      (Authentication.negotiate a).eval told = ⟨.ok identity, rest, said⟩ →
      Authentication.Vouches a identity → Identifies a .v5 identity (5 :: told)

variable {a : Authenticator} {r : Request} {hello said : Bytes}

theorem Accepts.normal (h : Accepts a r hello said) : r.Normal := by
  cases h with
  | v4 _ hr => exact hr.normal
  | v5 _ hr => exact hr.normal.ofIdentity _

theorem Accepts.identifies (h : Accepts a r hello said) (more : Bytes) :
    Identifies a r.version r.identity (hello ++ more) := by
  cases h with
  | v4 _ hr =>
      obtain ⟨form, rfl, rfl⟩ := hr.form
      exact .v4 form more
  | @v5 r identity exchange octets said hi hr =>
      have hread : (Authentication.negotiate a).eval (exchange ++ octets ++ more) =
          ⟨.ok identity, octets ++ more, said⟩ :=
        Dialogue.eval_eq_ok_iff.mpr ⟨exchange, List.append_assoc _ _ _,
          Authentication.reaches_negotiate_iff.mpr hi⟩
      cases hr with
      | mk command hd => exact .v5 hread hi.vouches

end Handshake

namespace Session

variable {rules : Rules} {limit : UInt64} {here? : Option IpAddress} {r r' : Request}
  {allowed : Bool} {s₀ s : Session} {events : List Event}

/-- The rules are asked about no other request than the one that is carried out. -/
theorem Stands.consulted (h : Stands rules (.ofRequest limit here? r) s₀ events s)
    (h₀ : s₀.calls = []) (hcall : .rules r' allowed ∈ s.calls) : r' = r := by
  obtain ⟨more, hmore, huses, -⟩ := h.calls_of_ofRequest h₀
  rw [hmore] at hcall
  rcases List.mem_cons.mp hcall with he | hin
  · cases he
    rfl
  · exact absurd (huses _ hin).2 not_uses_rules

/-- Whatever a client sends: when the rules are asked about a request, it bears the address of the
client, its destination is given in one way, by a name of at most 255 octets or by a literal, and a
SOCKS4 client has asked for what SOCKS4 has. The client is the one that the method exchange has let
in, or whoever a SOCKS4 client says it is. Such a destination can always be written, and can always
be looked for. -/
theorem consulted_normal (service : Service) (c : Connection) (out : Surroundings)
    (control : Stream) (events : List Event) {r : Request} {allowed : Bool}
    (hcall : .rules r allowed ∈
      ((start service c out control).trace service c out events).calls) :
    r.Normal ∧ r.client? = c.client? ∧
      Identifies service.authenticator r.version r.identity (sentBy control events) ∧
      (∃ bytes, r.destination.Writes .v5 bytes) ∧
      r.destination.route ≠ .nowhere ∧
      ∀ lookup fault, r.destination.resolve lookup ≠ .error (.protocol fault) := by
  rcases (greets_trace service c out control events).calls_or_stands with
    ⟨hnone, -⟩ | ⟨before, after, r₀, hello, rest, said, phase, rfl, ha, hsent, hstands⟩
  · rw [hnone] at hcall
    cases hcall
  · obtain rfl := hstands.consulted rfl hcall
    have hnormal := ha.normal.ofClient c.client?
    have hroute := hnormal.definite.route_ne_nowhere
    obtain ⟨bytes, hbytes⟩ := Address.encodeV5_of_short hnormal.nameShort
    refine ⟨hnormal, rfl, ?_, ⟨bytes, Address.writes_of_encode hbytes⟩, hroute,
      Address.resolve_ne_protocol hroute⟩
    rw [sentBy_append, hsent, List.append_assoc]
    exact ha.identifies (rest ++ heard after)

/-- The user "fred" asks for port 80 of a host by name, and goes on talking. -/
theorem consulted_normal_fred :
    let service : Service := ⟨.anyone, fun _ => true, 10, 60⟩
    let client : Endpoint := ⟨.ofOctets 10 0 0 1, 1080⟩
    let sent : Bytes := [4, 1, 0, 80, 0, 0, 0, 1, 102, 114, 101, 100, 0, 97, 46, 98, 0, 104, 105]
    let s := (start service ⟨some client, none⟩ .silent .idle).trace service ⟨some client, none⟩
      .silent [.clientSends sent]
    let r : Request := ⟨.v4, .connect, .named "a.b" 80, .user .noAuth "fred", some client⟩
    .rules r true ∈ s.calls ∧ r.Normal ∧ Identifies .anyone .v4 (.user .noAuth "fred") sent ∧
      ∃ bytes, r.destination.Writes .v5 bytes := by
  intro service client sent s r
  have hcall : .rules r true ∈ s.calls := by decide +kernel
  obtain ⟨hnormal, -, hidentity, hwrites, -⟩ :=
    consulted_normal service ⟨some client, none⟩ .silent .idle [.clientSends sent] hcall
  exact ⟨hcall, hnormal, hidentity, hwrites⟩

end Session

end Socks
