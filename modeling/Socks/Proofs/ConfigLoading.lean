import Mathlib
import Socks.Proofs.AuthenticationGate
import Socks.Proofs.Config.Settings

/-!
# Configurations are loaded exactly, and servers can be built of them

A text that writes a table of a server, with tables for its groups, configures a server just if it
says where to listen, the known settings are of their kinds, and they make sense together. The
configuration is what the tables tell, in whatever order the keys stand and whatever unknown ones
stand among them; and every configuration that is loaded makes a server, which asks for credentials
as it says.

Main statement: `Config.parse_exact`.
-/

namespace Socks.Config

open Toml

/-! ### The tables of a server -/

/-- The table of a group; a group that is missing has no settings. -/
def group (server : Table) (key : String) : Table :=
  match server.get? key with
  | some (.table t) => t
  | _ => []

/-- A table of a server in which the groups, where they are there, are tables. -/
structure Grouped (server : Table) : Prop where
  socks : ∀ v, server.get? "socks" = some v → ∃ t, v = .table t
  tcp : ∀ v, server.get? "tcp" = some v → ∃ t, v = .table t

/-- A text that writes a document in which `server` is a table, as its groups are. -/
structure Writes (text : String) (server : Table) : Prop extends Grouped server where
  document : ∃ document, Toml.parse? text = some document ∧
    document.get? "server" = some (.table server)

/-- A server is what its tables tell. -/
structure Server.ToldBy (server : Table) (c : Server) : Prop where
  listenAddress : server.get? "listen_addr" = some (.string c.listenAddress)
  protocol : c.protocol.ToldBy (group server "socks")
  tcp : c.tcp.ToldBy (group server "tcp")

/-- A table that configures a server: it says where to listen, and the settings of its groups are of
their kinds and make sense together. -/
structure Server.Loadable (server : Table) : Prop where
  listenAddress : ∃ address, server.get? "listen_addr" = some (.string address)
  protocol : Protocol.Typed (group server "socks")
  tcp : Tcp.Typed (group server "tcp")
  consistent : Protocol.Consistent (group server "socks")

/-- Tables of servers that differ in the order of their keys and in unknown keys, those of their
groups included. -/
structure Server.Rearranges (server server' : Table) : Prop where
  listenAddress : server.Rearranges ["listen_addr"] server'
  protocol : (group server "socks").Rearranges protocolFields (group server' "socks")
  tcp : (group server "tcp").Rearranges tcpFields (group server' "tcp")

section servers

variable {server : Table} {key : String}

theorem group_eq {t : Table} (hv : server.get? key = some (.table t)) : group server key = t := by
  simp [group, hv]

theorem proper_group (h : server.Proper) : (group server key).Proper := by
  unfold group
  split
  · rename_i t hv
    exact Value.proper_table_iff.mp (h.get? hv)
  · exact Table.proper_nil

/-- A group is read as its table tells, a missing one as an empty one. -/
theorem getD_group_eq_ok_iff {α : Type} {absent : String → Misfit} {read : Reader α}
    {ToldBy : Table → α → Prop} {default a : α} (h : server.Proper)
    (hgroup : ∀ v, server.get? key = some v → ∃ t, v = .table t)
    (hread : ∀ t : Table, t.Proper → ∀ a, read (.table t) = .ok a ↔ ToldBy t a)
    (hdefault : ∀ a, ToldBy [] a ↔ a = default) :
    Group.getD ⟨server, absent⟩ key read default = .ok a ↔ ToldBy (group server key) a := by
  have hproper : (group server key).Proper := proper_group h
  unfold Group.getD Group.get?
  rw [map_eq_ok_iff]
  cases hv : server.get? key with
  | none =>
      have hnil : group server key = [] := by simp [group, hv]
      rw [hnil, hdefault]
      simp [eq_comm]
  | some v =>
      obtain ⟨t, rfl⟩ := hgroup v hv
      rw [group_eq hv] at hproper ⊢
      dsimp only
      simp only [map_eq_ok_iff, hread t hproper]
      simp

/-- The judgement on a setting of a server is passed if that setting can be read. -/
theorem Server.ToldBy.check_eq_ok {c : Server} {v : Value} (h : server.Proper)
    (hgrouped : Grouped server) (hc : c.ToldBy server) (hv : server.get? key = some v) :
    checkServer key v = .ok () := by
  unfold checkServer
  split_ifs with hlisten hsocks htcp
  · subst hlisten
    cases hc.listenAddress.symm.trans hv
    rfl
  · subst hsocks
    obtain ⟨t, rfl⟩ := hgrouped.socks v hv
    have htold := (readProtocol_eq_ok_iff (proper_group h)).mpr hc.protocol
    rw [group_eq hv] at htold
    exact judged_eq_ok_iff.mpr ⟨c.protocol, htold⟩
  · subst htcp
    obtain ⟨t, rfl⟩ := hgrouped.tcp v hv
    have htold := (readTcp_eq_ok_iff (proper_group h)).mpr hc.tcp
    rw [group_eq hv] at htold
    exact judged_eq_ok_iff.mpr ⟨c.tcp, htold⟩
  · rfl

/-- A server is read as its tables tell it. -/
theorem readServer_eq_ok_iff {c : Server} (h : server.Proper) (hgrouped : Grouped server) :
    readServer (.table server) = .ok c ↔ c.ToldBy server := by
  have hprotocol : ∀ p,
      Group.getD ⟨server, .missing⟩ "socks" readProtocol Protocol.default = .ok p ↔
        p.ToldBy (group server "socks") := fun p =>
    getD_group_eq_ok_iff h hgrouped.socks (fun _ ht _ => readProtocol_eq_ok_iff ht)
      fun _ => Protocol.toldBy_nil_iff
  have htcp : ∀ options,
      Group.getD ⟨server, .missing⟩ "tcp" readTcp Tcp.default = .ok options ↔
        options.ToldBy (group server "tcp") := fun options =>
    getD_group_eq_ok_iff h hgrouped.tcp (fun _ ht _ => readTcp_eq_ok_iff ht)
      fun _ => Tcp.toldBy_nil_iff
  unfold readServer
  simp only [bind_eq_ok_iff, Group.ofValue, Except.ok.injEq, exists_eq_left', pure, Except.pure,
    hprotocol, htcp]
  constructor
  · rintro ⟨⟨⟩, -, _, haddress, p, hp, options, hoptions, rfl⟩
    exact ⟨(Group.get_eq_ok_iff reads_text).mp haddress, hp, hoptions⟩
  · intro hc
    have hjudge : Group.judge ⟨server, .missing⟩ checkServer = .ok () :=
      Group.judge_eq_ok_iff.mpr fun e he =>
        hc.check_eq_ok h hgrouped (h.get?_eq_some_iff.mpr he)
    exact ⟨(), hjudge, _, (Group.get_eq_ok_iff reads_text).mpr hc.listenAddress, _, hc.protocol, _,
      hc.tcp, rfl⟩

/-- Tables tell a server without conflict if they configure one. -/
theorem Server.exists_toldBy_iff (h : server.Proper) :
    (∃ c : Server, c.ToldBy server ∧ c.protocol.conflict? = none) ↔ Loadable server := by
  have hproper : ∀ key, (group server key).Proper := fun _ => proper_group h
  constructor
  · rintro ⟨c, ⟨hlisten, hprotocol, htcp⟩, hconflict⟩
    exact {
      listenAddress := ⟨_, hlisten⟩
      protocol := hprotocol.typed
      tcp := htcp.typed
      consistent := hprotocol.conflict?_eq_none_iff.mp hconflict }
  · rintro ⟨⟨address, hlisten⟩, hprotocol, htcp, hconsistent⟩
    obtain ⟨protocol, hprotocol⟩ := (Protocol.exists_toldBy_iff (hproper "socks")).mpr hprotocol
    obtain ⟨tcp, htcp⟩ := (Tcp.exists_toldBy_iff (hproper "tcp")).mpr htcp
    exact ⟨⟨address, protocol, tcp⟩, ⟨hlisten, hprotocol, htcp⟩,
      hprotocol.conflict?_eq_none_iff.mpr hconsistent⟩

/-- Tables that are rearranged tell the same. -/
theorem Server.ToldBy.of_rearranges {server' : Table} {c : Server} (hc : c.ToldBy server)
    (h : server.Proper) (h' : server'.Proper) (hr : Rearranges server server') :
    c.ToldBy server' := by
  refine ⟨?_, ?_, ?_⟩
  · rw [← hr.listenAddress.get?_eq h h' (by simp)]
    exact hc.listenAddress
  · exact hc.protocol.of_get?_eq fun _ => hr.protocol.get?_eq (proper_group h) (proper_group h')
  · exact hc.tcp.of_get?_eq fun _ => hr.tcp.get?_eq (proper_group h) (proper_group h')

theorem Server.Rearranges.symm {server' : Table} (h : Rearranges server server') :
    Rearranges server' server := ⟨h.listenAddress.symm, h.protocol.symm, h.tcp.symm⟩

/-! ### Texts -/

variable {text : String}

theorem Writes.proper (h : Writes text server) : server.Proper := by
  obtain ⟨document, hparse, hserver⟩ := h.document
  exact Value.proper_table_iff.mp ((proper_of_parse? hparse).get? hserver)

theorem ofDocument_eq {document : Table} {v : Value} (hserver : document.get? "server" = some v) :
    ofDocument document = readServer v := by
  unfold ofDocument Group.get Group.get?
  rw [hserver]
  dsimp only
  cases readServer v with
  | error m => rfl
  | ok c => rfl

theorem checked_eq_ok_iff {c c' : Server} :
    checked c' = .ok c ↔ c' = c ∧ c.protocol.conflict? = none := by
  unfold checked
  cases hconflict : c'.protocol.conflict? with
  | none =>
      rw [Except.ok.injEq]
      refine ⟨fun hc => ⟨hc, ?_⟩, And.left⟩
      rw [← hc]
      exact hconflict
  | some conflict =>
      refine iff_of_false (by simp) ?_
      rintro ⟨rfl, hnone⟩
      cases hnone.symm.trans hconflict

/-- A text is loaded as what its tables tell, if that has no conflict. -/
theorem Writes.loads_iff {c : Server} (h : Writes text server) :
    parse text = .ok c ↔ c.ToldBy server ∧ c.protocol.conflict? = none := by
  obtain ⟨document, hparse, hserver⟩ := h.document
  have hiff := readServer_eq_ok_iff (c := c) h.proper h.toGrouped
  unfold parse
  rw [hparse]
  dsimp only
  rw [ofDocument_eq hserver]
  cases hs : readServer (.table server) with
  | error m =>
      refine iff_of_false (by simp) fun ⟨hc, _⟩ => ?_
      cases hs.symm.trans (hiff.mpr hc)
  | ok c' =>
      dsimp only
      rw [checked_eq_ok_iff, ← hiff, hs, Except.ok.injEq]

/-! ### Servers -/

/-- A server lets in whom a configuration says: anybody unless credentials are required, and the
user whose credentials are configured. -/
structure Admits (c : Server) (s : Socks.Server) : Prop where
  anonymous : s.service.authenticator.acceptsAnonymous = true ↔ c.protocol.authRequired = false
  byPassword : .userPass ∈ s.service.authenticator.methods ↔
    ∃ user password, c.protocol.username? = some user ∧ c.protocol.password? = some password
  credentials : ∀ user password, s.service.authenticator.store user password = true ↔
    c.protocol.username? = some user ∧ c.protocol.password? = some password

section building

variable {c : Server} {s : Socks.Server} {user password : String}

theorem admits_of_anyone (hs : s.service.authenticator = .anyone)
    (hrequired : c.protocol.authRequired = false)
    (hnone : c.protocol.username? = none ∨ c.protocol.password? = none) : Admits c s := by
  have hno : ∀ user password,
      ¬(c.protocol.username? = some user ∧ c.protocol.password? = some password) := by
    rintro user password ⟨huser, hpassword⟩
    rcases hnone with h | h
    · cases h.symm.trans huser
    · cases h.symm.trans hpassword
  refine ⟨?_, ?_, fun user password => ?_⟩
  · rw [hs]
    exact iff_of_true (by decide) hrequired
  · rw [hs]
    exact iff_of_false (by decide) fun ⟨user, password, h⟩ => hno user password h
  · rw [hs]
    exact iff_of_false (by simp [Authenticator.store]) (hno user password)

theorem admits_of_credentials
    (hs : s.service.authenticator =
      .credentials (Credentials.empty.add user password).accepts c.protocol.authRequired)
    (huser : c.protocol.username? = some user) (hpassword : c.protocol.password? = some password) :
    Admits c s := by
  refine ⟨?_, ?_, fun name secret => ?_⟩
  · rw [hs]
    cases c.protocol.authRequired with
    | false => simp [Authenticator.acceptsAnonymous, Authenticator.methods]
    | true => simp [Authenticator.acceptsAnonymous, Authenticator.methods]
  · rw [hs]
    refine iff_of_true ?_ ⟨user, password, huser, hpassword⟩
    cases c.protocol.authRequired with
    | false => simp [Authenticator.methods]
    | true => simp [Authenticator.methods]
  · rw [hs, huser, hpassword, Option.some.injEq, Option.some.injEq, eq_comm (a := user),
      eq_comm (a := password)]
    exact Credentials.accepts_single

/-- A configuration without conflict makes a server that lets in whom it says. -/
theorem exists_build (h : c.protocol.conflict? = none) :
    ∃ s, Server.build c = .ok s ∧ Admits c s := by
  have hrequired := (Protocol.conflict?_eq_none_iff.mp h).1
  unfold Server.build
  rw [h]
  refine ⟨_, rfl, ?_⟩
  cases huser : c.protocol.username? with
  | none =>
      refine admits_of_anyone ?_ (by simpa [huser] using hrequired) (.inl huser)
      simp [Service.ofConfig, huser]
  | some user =>
      cases hpassword : c.protocol.password? with
      | none =>
          refine admits_of_anyone ?_ (by simpa [hpassword] using hrequired) (.inr hpassword)
          simp [Service.ofConfig, hpassword]
      | some password =>
          refine admits_of_credentials ?_ huser hpassword
          simp [Service.ofConfig, huser, hpassword]

end building

/-- Loading is exact, and what is loaded can be built. A text that writes a table of a server, with
tables for its groups, is loaded just if that table configures a server; what is loaded is what the
tables tell; texts whose tables differ in the order of keys and in unknown keys are loaded as the
same; and whatever is loaded makes a server that lets in whom the configuration says. -/
theorem parse_exact (h : Writes text server) :
    ((∃ c, parse text = .ok c) ↔ Server.Loadable server) ∧
      (∀ c, parse text = .ok c → c.ToldBy server) ∧
      (∀ text' server', Writes text' server' → Server.Rearranges server server' →
        ∀ c, parse text' = .ok c ↔ parse text = .ok c) ∧
      ∀ c, parse text = .ok c → ∃ s, Server.build c = .ok s ∧ Admits c s := by
  refine ⟨?_, ?_, ?_, ?_⟩
  · simp only [h.loads_iff]
    exact Server.exists_toldBy_iff h.proper
  · intro c hc
    exact (h.loads_iff.mp hc).1
  · intro text' server' h' hr c
    rw [h.loads_iff, h'.loads_iff]
    refine and_congr_left fun _ => ⟨fun hc => ?_, fun hc => ?_⟩
    · exact hc.of_rearranges h'.proper h.proper hr.symm
    · exact hc.of_rearranges h.proper h'.proper hr
  · intro c hc
    exact exists_build (h.loads_iff.mp hc).2

end servers

/-- Two texts that configure the same server, the second with its keys in another order and with a
key that is unknown. -/
theorem parse_exact_shuffled :
    Writes "server.listen_addr = \"a\"\nserver.socks.bind_timeout = 5"
      [("listen_addr", .string "a"), ("socks", .table [("bind_timeout", .integer 5)])] ∧
    Writes "server.socks.bind_timeout = 5\nserver.socks.x = 1\nserver.listen_addr = \"a\""
      [("socks", .table [("bind_timeout", .integer 5), ("x", .integer 1)]),
        ("listen_addr", .string "a")] ∧
    ∃ c s, parse "server.listen_addr = \"a\"\nserver.socks.bind_timeout = 5" = .ok c ∧
      parse "server.socks.bind_timeout = 5\nserver.socks.x = 1\nserver.listen_addr = \"a\"" =
        .ok c ∧
      c.protocol.bindLimit = 5 ∧ Server.build c = .ok s ∧ Admits c s := by
  have h : Writes "server.listen_addr = \"a\"\nserver.socks.bind_timeout = 5"
      [("listen_addr", .string "a"), ("socks", .table [("bind_timeout", .integer 5)])] := by
    refine ⟨⟨by simp [Table.get?], by simp [Table.get?]⟩, [("server", .table _)], ?_, rfl⟩
    cbv
  have h' : Writes "server.socks.bind_timeout = 5\nserver.socks.x = 1\nserver.listen_addr = \"a\""
      [("socks", .table [("bind_timeout", .integer 5), ("x", .integer 1)]),
        ("listen_addr", .string "a")] := by
    refine ⟨⟨by simp [Table.get?], by simp [Table.get?]⟩, [("server", .table _)], ?_, rfl⟩
    cbv
  obtain ⟨hloads, htold, hsame, hbuild⟩ := parse_exact h
  have hr : Server.Rearranges
      [("listen_addr", .string "a"), ("socks", .table [("bind_timeout", .integer 5)])]
      [("socks", .table [("bind_timeout", .integer 5), ("x", .integer 1)]),
        ("listen_addr", .string "a")] := by
    refine ⟨?_, ?_, ?_⟩
    · simp [Table.Rearranges]
    · simp [Table.Rearranges, group, Table.get?, protocolFields]
    · simp [Table.Rearranges, group, Table.get?]
  obtain ⟨c, hc⟩ := hloads.mpr {
    listenAddress := ⟨"a", rfl⟩
    protocol := ⟨by simp [Holds, group, Table.get?], by simp [Holds, group, Table.get?],
      by simp [Holds, group, Table.get?, IsCount]⟩
    tcp := ⟨by simp [Holds, group, Table.get?], by simp [Holds, group, Table.get?]⟩
    consistent := ⟨by simp [group, Table.get?], by simp [group, Table.get?],
      by simp [group, Table.get?]⟩ }
  obtain ⟨s, hs, ha⟩ := hbuild c hc
  have hbind : c.protocol.bindLimit = 5 :=
    ((htold c hc).protocol.bindLimit.eq_iff (by decide) written_injective).mpr rfl
  exact ⟨h, h', c, s, hc, (hsame _ _ h' hr c).mpr hc, hbind, hs, ha⟩

end Socks.Config
