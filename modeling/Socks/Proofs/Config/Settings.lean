import Socks.Config.Reading
import Socks.Proofs.Toml.Proper

/-!
# What the tables of a configuration tell

A table tells each setting: the value that its key holds or, without the key, the default. Groups
are read as what their tables tell, wherever the keys stand and whatever unknown ones stand among
them, and they are read just if the known keys hold values of their kinds.

Main statements: `Config.readProtocol_eq_ok_iff`, `Config.readTcp_eq_ok_iff` and, on which tables
tell anything, `Config.Protocol.exists_toldBy_iff`, `Config.Tcp.exists_toldBy_iff`.
-/

namespace Socks.Config

open Toml

variable {α β ε : Type}

/-! ### Results that are not errors -/

theorem bind_eq_ok_iff {x : Except ε α} {f : α → Except ε β} {b : β} :
    x >>= f = .ok b ↔ ∃ a, x = .ok a ∧ f a = .ok b := by
  cases x with
  | error e =>
      constructor
      · intro h
        cases h
      · rintro ⟨a, h, -⟩
        cases h
  | ok a =>
      constructor
      · intro h
        exact ⟨a, rfl, h⟩
      · rintro ⟨a', h, hb⟩
        cases h
        exact hb

theorem map_eq_ok_iff {x : Except ε α} {f : α → β} {b : β} :
    x.map f = .ok b ↔ ∃ a, x = .ok a ∧ f a = b := by
  cases x with
  | error e => simp [Except.map]
  | ok a => simp [Except.map]

theorem forM_eq_ok_iff {as : List α} {f : α → Except ε Unit} :
    as.forM f = .ok () ↔ ∀ a ∈ as, f a = .ok () := by
  induction as with
  | nil => simp [List.forM, pure, Except.pure]
  | cons a as ih =>
      rw [List.forM, bind_eq_ok_iff, List.forall_mem_cons, ← ih]
      constructor
      · rintro ⟨⟨⟩, ha, has⟩
        exact ⟨ha, has⟩
      · rintro ⟨ha, has⟩
        exact ⟨(), ha, has⟩

theorem judged_eq_ok_iff {r : Except Misfit α} : judged r = .ok () ↔ ∃ a, r = .ok a := by
  rw [judged, map_eq_ok_iff]
  simp

/-! ### Values -/

/-- The value that writes a number. -/
def written (n : UInt64) : Value := .integer n.toNat

theorem written_injective : Function.Injective written := by
  intro n m h
  rw [written, written, Value.integer.injEq] at h
  exact UInt64.toNat_inj.mp (by omega)

/-- A value that is yes or no. -/
def IsFlag (v : Value) : Prop := ∃ b, v = .boolean b

/-- A value that is a text. -/
def IsText (v : Value) : Prop := ∃ s, v = .string s

/-- A value that is a number and not negative. -/
def IsCount (v : Value) : Prop := ∃ n, 0 ≤ n ∧ v = .integer n

theorem isFlag_boolean (b : Bool) : IsFlag (.boolean b) := ⟨b, rfl⟩

theorem isText_string (s : String) : IsText (.string s) := ⟨s, rfl⟩

theorem isCount_written (n : UInt64) : IsCount (written n) := ⟨n.toNat, by omega, rfl⟩

namespace Reader

theorem flag_eq_ok_iff {v : Value} {b : Bool} : flag v = .ok b ↔ v = .boolean b := by
  cases v with
  | boolean b' => simp [flag]
  | _ => simp [flag]

theorem text_eq_ok_iff {v : Value} {s : String} : text v = .ok s ↔ v = .string s := by
  cases v with
  | string s' => simp [text]
  | _ => simp [text]

/-- Integers of 64 bits that are not negative are read as what they are. -/
theorem count_eq_ok_iff {v : Value} {n : UInt64} (hv : v.Proper) :
    count v = .ok n ↔ v = written n := by
  cases hv with
  | @integer m hlow hhigh =>
      unfold count written
      dsimp only
      split_ifs with hm
      · rw [Except.ok.injEq, Value.integer.injEq, ← UInt64.toNat_inj]
        have hlt : m.toNat < 2 ^ 64 := by omega
        rw [UInt64.toNat_ofNat_of_lt' hlt]
        omega
      · constructor
        · intro h
          cases h
        · intro h
          rw [Value.integer.injEq] at h
          omega
  | _ => simp [count, written]

theorem exists_flag_iff {v : Value} : (∃ b, flag v = .ok b) ↔ IsFlag v := by
  simp only [flag_eq_ok_iff, IsFlag]

theorem exists_text_iff {v : Value} : (∃ s, text v = .ok s) ↔ IsText v := by
  simp only [text_eq_ok_iff, IsText]

theorem exists_count_iff {v : Value} : (∃ n, count v = .ok n) ↔ IsCount v := by
  cases v with
  | integer m =>
      unfold count
      dsimp only
      split_ifs with hm
      · simp [IsCount, hm]
      · simp [IsCount, hm]
  | _ => simp [count, IsCount]

end Reader

/-- A number that is not negative and fits is written by some number. -/
theorem IsCount.exists_written {v : Value} (h : IsCount v) (hv : v.Proper) :
    ∃ n, v = written n := by
  obtain ⟨n, hn⟩ := Reader.exists_count_iff.mpr h
  exact ⟨n, (Reader.count_eq_ok_iff hv).mp hn⟩

/-! ### What a key tells -/

/-- A table tells `a` by a key, which holds it as it is written, or which is missing, `a` being what
holds without it. -/
def Tells (t : Table) (key : String) (write : α → Value) (default a : α) : Prop :=
  t.get? key = some (write a) ∨ t.get? key = none ∧ a = default

/-- What a reader makes of a key that a table has is what is written there. -/
def Reads (t : Table) (key : String) (read : Reader α) (write : α → Value) : Prop :=
  ∀ v, t.get? key = some v → ∀ a, read v = .ok a ↔ v = write a

/-- The keys that a table has of those given hold values of a kind. -/
def Holds (t : Table) (keys : List String) (kind : Value → Prop) : Prop :=
  ∀ key ∈ keys, ∀ v, t.get? key = some v → kind v

section tells

variable {t t' : Table} {key : String} {keys : List String} {write : α → Value} {default a : α}
  {kind : Value → Prop}

theorem reads_flag : Reads t key Reader.flag .boolean := fun _ _ _ => Reader.flag_eq_ok_iff

theorem reads_text : Reads t key Reader.text .string := fun _ _ _ => Reader.text_eq_ok_iff

theorem reads_count (ht : t.Proper) : Reads t key Reader.count written :=
  fun _ hv _ => Reader.count_eq_ok_iff (ht.get? hv)

theorem Tells.kind_of (h : Tells t key write default a) (hkind : ∀ a, kind (write a)) :
    ∀ v, t.get? key = some v → kind v := by
  intro v hv
  rcases h with hsome | ⟨hnone, -⟩
  · cases hsome.symm.trans hv
    exact hkind a
  · cases hnone.symm.trans hv

theorem kind_of_map_write {a? : Option α} (h : t.get? key = a?.map write)
    (hkind : ∀ a, kind (write a)) : ∀ v, t.get? key = some v → kind v := by
  intro v hv
  obtain ⟨a, -, rfl⟩ := Option.map_eq_some_iff.mp (h.symm.trans hv)
  exact hkind a

/-- A key that is missing or holds what can be written tells something. -/
theorem exists_tells (hkind : ∀ v, t.get? key = some v → ∃ a, v = write a) (default : α) :
    ∃ a, Tells t key write default a := by
  cases hv : t.get? key with
  | none => exact ⟨default, .inr ⟨hv, rfl⟩⟩
  | some v =>
      obtain ⟨a, rfl⟩ := hkind v hv
      exact ⟨a, .inl hv⟩

theorem exists_map_write (hkind : ∀ v, t.get? key = some v → ∃ a, v = write a) :
    ∃ a? : Option α, t.get? key = a?.map write := by
  cases hv : t.get? key with
  | none => exact ⟨none, rfl⟩
  | some v =>
      obtain ⟨a, rfl⟩ := hkind v hv
      exact ⟨some a, rfl⟩

/-- What is not the default is told only by the value that writes it. -/
theorem Tells.eq_iff {a' : α} (h : Tells t key write default a) (hdefault : default ≠ a')
    (hwrite : Function.Injective write) : a = a' ↔ t.get? key = some (write a') := by
  rcases h with hsome | ⟨hnone, rfl⟩
  · rw [hsome, Option.some.injEq]
    exact ⟨congrArg write, fun ha => hwrite ha⟩
  · simp [hnone, hdefault]

theorem tells_congr (h : t.get? key = t'.get? key) :
    Tells t key write default a ↔ Tells t' key write default a := by
  unfold Tells
  rw [h]

theorem tells_nil : Tells [] key write default a ↔ a = default := by
  simp [Tells, Table.get?]

end tells

/-! ### Groups -/

namespace Group

variable {g : Group} {field : String} {read : Reader α} {write : α → Value} {default a : α}

/-- The settings pass if each of them does. -/
theorem judge_eq_ok_iff {check : String → Value → Except Misfit Unit} :
    g.judge check = .ok () ↔ ∀ e ∈ g.entries, check e.1 e.2 = .ok () :=
  forM_eq_ok_iff

/-- A setting is read as what it writes, if there is anything. -/
theorem get?_eq_ok_iff {a? : Option α} (hread : Reads g.entries field read write) :
    g.get? field read = .ok a? ↔ g.entries.get? field = a?.map write := by
  unfold Group.get?
  cases hv : g.entries.get? field with
  | none =>
      cases a? with
      | none => simp
      | some a => simp
  | some v =>
      dsimp only
      rw [map_eq_ok_iff]
      cases a? with
      | none => simp
      | some a => simp [hread v hv]

theorem getD_eq_ok_iff (hread : Reads g.entries field read write) :
    g.getD field read default = .ok a ↔ Tells g.entries field write default a := by
  unfold getD Tells
  rw [map_eq_ok_iff]
  constructor
  · rintro ⟨a?, h, rfl⟩
    rw [get?_eq_ok_iff hread] at h
    cases a? with
    | none => exact .inr ⟨h, rfl⟩
    | some a => exact .inl h
  · rintro (h | ⟨h, rfl⟩)
    · exact ⟨some a, (get?_eq_ok_iff hread).mpr h, rfl⟩
    · exact ⟨none, (get?_eq_ok_iff hread).mpr h, rfl⟩

theorem get_eq_ok_iff (hread : Reads g.entries field read write) :
    g.get field read = .ok a ↔ g.entries.get? field = some (write a) := by
  unfold get
  rw [bind_eq_ok_iff]
  constructor
  · rintro ⟨a?, h, ha⟩
    cases a? with
    | none => cases ha
    | some a' =>
        cases ha
        exact (get?_eq_ok_iff hread).mp h
  · intro h
    exact ⟨some a, (get?_eq_ok_iff hread).mpr h, rfl⟩

end Group

/-! ### The settings of the protocols -/

/-- The settings of the protocols are those that a table tells. -/
structure Protocol.ToldBy (t : Table) (c : Protocol) : Prop where
  authRequired : Tells t "auth_required" .boolean false c.authRequired
  username : t.get? "username" = c.username?.map .string
  password : t.get? "password" = c.password?.map .string
  allowConnect : Tells t "allow_connect" .boolean true c.allowConnect
  allowBind : Tells t "allow_bind" .boolean false c.allowBind
  allowDatagrams : Tells t "allow_udp" .boolean true c.allowDatagrams
  requestLimit : Tells t "request_timeout" written 10 c.requestLimit
  bindLimit : Tells t "bind_timeout" written 60 c.bindLimit

/-- The settings of the protocols in a table are of their kinds. -/
structure Protocol.Typed (t : Table) : Prop where
  flags : Holds t ["auth_required", "allow_connect", "allow_bind", "allow_udp"] IsFlag
  texts : Holds t ["username", "password"] IsText
  counts : Holds t ["request_timeout", "bind_timeout"] IsCount

/-- Settings of the protocols that make sense together: credentials that are required are there, and
there is time for requests and for peers. Keys that are missing do no harm: by default nothing is
required, and no limit is zero. -/
structure Protocol.Consistent (t : Table) : Prop where
  credentials : t.get? "auth_required" = some (.boolean true) →
    (t.get? "username").isSome ∧ (t.get? "password").isSome
  requestTime : t.get? "request_timeout" ≠ some (.integer 0)
  bindTime : t.get? "bind_timeout" ≠ some (.integer 0)

/-- The settings of TCP sockets are those that a table tells. -/
structure Tcp.ToldBy (t : Table) (c : Tcp) : Prop where
  nodelay : Tells t "nodelay" .boolean true c.nodelay
  keepaliveIdle : Tells t "keepalive_secs" written 20 c.keepaliveIdle
  keepaliveInterval : Tells t "keepalive_interval" written 8 c.keepaliveInterval

/-- The settings of TCP sockets in a table are of their kinds. -/
structure Tcp.Typed (t : Table) : Prop where
  flags : Holds t ["nodelay"] IsFlag
  counts : Holds t ["keepalive_secs", "keepalive_interval"] IsCount

section settings

variable {t t' : Table}

/-- Whatever a table tells is of its kind. -/
theorem Protocol.ToldBy.typed {c : Protocol} (h : c.ToldBy t) : Typed t := by
  refine ⟨?_, ?_, ?_⟩
  · simp only [Holds, List.forall_mem_cons]
    exact ⟨h.authRequired.kind_of isFlag_boolean, h.allowConnect.kind_of isFlag_boolean,
      h.allowBind.kind_of isFlag_boolean, h.allowDatagrams.kind_of isFlag_boolean, by simp⟩
  · simp only [Holds, List.forall_mem_cons]
    exact ⟨kind_of_map_write h.username isText_string, kind_of_map_write h.password isText_string,
      by simp⟩
  · simp only [Holds, List.forall_mem_cons]
    exact ⟨h.requestLimit.kind_of isCount_written, h.bindLimit.kind_of isCount_written, by simp⟩

/-- A setting of the protocols that is of its kind passes, and so does an unknown one. -/
theorem Protocol.Typed.check_eq_ok {key : String} {v : Value} (h : Typed t)
    (hv : t.get? key = some v) : checkProtocol key v = .ok () := by
  unfold checkProtocol
  split_ifs with hflag htext hcount
  · exact judged_eq_ok_iff.mpr (Reader.exists_flag_iff.mpr (h.flags key hflag v hv))
  · exact judged_eq_ok_iff.mpr (Reader.exists_text_iff.mpr (h.texts key htext v hv))
  · exact judged_eq_ok_iff.mpr (Reader.exists_count_iff.mpr (h.counts key hcount v hv))
  · rfl

/-- The settings of the protocols are read as their table tells them. -/
theorem readProtocol_eq_ok_iff {c : Protocol} (ht : t.Proper) :
    readProtocol (.table t) = .ok c ↔ c.ToldBy t := by
  have hcount : ∀ key, Reads t key Reader.count written := fun _ => reads_count ht
  unfold readProtocol
  simp only [bind_eq_ok_iff, Group.ofValue, Except.ok.injEq, exists_eq_left', pure, Except.pure]
  constructor
  · rintro ⟨⟨⟩, -, _, hauth, _, huser, _, hpassword, _, hconnect, _, hbind, _, hdatagrams, _,
      hrequest, _, hwait, rfl⟩
    exact {
      authRequired := (Group.getD_eq_ok_iff reads_flag).mp hauth
      username := (Group.get?_eq_ok_iff reads_text).mp huser
      password := (Group.get?_eq_ok_iff reads_text).mp hpassword
      allowConnect := (Group.getD_eq_ok_iff reads_flag).mp hconnect
      allowBind := (Group.getD_eq_ok_iff reads_flag).mp hbind
      allowDatagrams := (Group.getD_eq_ok_iff reads_flag).mp hdatagrams
      requestLimit := (Group.getD_eq_ok_iff (hcount _)).mp hrequest
      bindLimit := (Group.getD_eq_ok_iff (hcount _)).mp hwait }
  · intro h
    have hjudge : Group.judge ⟨t, .missing⟩ checkProtocol = .ok () :=
      Group.judge_eq_ok_iff.mpr fun e he => h.typed.check_eq_ok (ht.get?_eq_some_iff.mpr he)
    exact ⟨(), hjudge,
      _, (Group.getD_eq_ok_iff reads_flag).mpr h.authRequired,
      _, (Group.get?_eq_ok_iff reads_text).mpr h.username,
      _, (Group.get?_eq_ok_iff reads_text).mpr h.password,
      _, (Group.getD_eq_ok_iff reads_flag).mpr h.allowConnect,
      _, (Group.getD_eq_ok_iff reads_flag).mpr h.allowBind,
      _, (Group.getD_eq_ok_iff reads_flag).mpr h.allowDatagrams,
      _, (Group.getD_eq_ok_iff (hcount _)).mpr h.requestLimit,
      _, (Group.getD_eq_ok_iff (hcount _)).mpr h.bindLimit, rfl⟩

/-- A table tells the settings of the protocols if they are of their kinds. -/
theorem Protocol.exists_toldBy_iff (ht : t.Proper) : (∃ c, ToldBy t c) ↔ Typed t := by
  constructor
  · rintro ⟨c, h⟩
    exact h.typed
  · rintro ⟨hflags, htexts, hcounts⟩
    have hcount : ∀ key ∈ ["request_timeout", "bind_timeout"], ∀ v, t.get? key = some v →
        ∃ n, v = written n :=
      fun key hkey v hv => (hcounts key hkey v hv).exists_written (ht.get? hv)
    obtain ⟨authRequired, hauth⟩ := exists_tells (hflags "auth_required" (by simp)) false
    obtain ⟨username?, huser⟩ := exists_map_write (htexts "username" (by simp))
    obtain ⟨password?, hpassword⟩ := exists_map_write (htexts "password" (by simp))
    obtain ⟨allowConnect, hconnect⟩ := exists_tells (hflags "allow_connect" (by simp)) true
    obtain ⟨allowBind, hbind⟩ := exists_tells (hflags "allow_bind" (by simp)) false
    obtain ⟨allowDatagrams, hdatagrams⟩ := exists_tells (hflags "allow_udp" (by simp)) true
    obtain ⟨requestLimit, hrequest⟩ := exists_tells (hcount "request_timeout" (by simp)) 10
    obtain ⟨bindLimit, hwait⟩ := exists_tells (hcount "bind_timeout" (by simp)) 60
    exact ⟨⟨authRequired, username?, password?, allowConnect, allowBind, allowDatagrams,
      requestLimit, bindLimit⟩, hauth, huser, hpassword, hconnect, hbind, hdatagrams, hrequest,
      hwait⟩

/-- Without settings the protocols are served by default. -/
theorem Protocol.toldBy_nil_iff {c : Protocol} : c.ToldBy [] ↔ c = Protocol.default := by
  constructor
  · rintro ⟨hauth, huser, hpassword, hconnect, hbind, hdatagrams, hrequest, hwait⟩
    rw [tells_nil] at hauth hconnect hbind hdatagrams hrequest hwait
    have huser : c.username? = none := by simpa [Table.get?] using huser.symm
    have hpassword : c.password? = none := by simpa [Table.get?] using hpassword.symm
    calc c = ⟨c.authRequired, c.username?, c.password?, c.allowConnect, c.allowBind,
          c.allowDatagrams, c.requestLimit, c.bindLimit⟩ := rfl
      _ = Protocol.default := by
        rw [hauth, huser, hpassword, hconnect, hbind, hdatagrams, hrequest, hwait, Protocol.default]
  · rintro rfl
    refine ⟨?_, rfl, rfl, ?_, ?_, ?_, ?_, ?_⟩ <;> exact tells_nil.mpr rfl

theorem Protocol.conflict?_eq_none_iff {c : Protocol} :
    c.conflict? = none ↔ (c.authRequired = true → c.username?.isSome ∧ c.password?.isSome) ∧
      c.requestLimit ≠ 0 ∧ c.bindLimit ≠ 0 := by
  have hcredentials : (c.authRequired = true ∧ ¬c.hasCredentials = true) ↔
      ¬(c.authRequired = true → c.username?.isSome ∧ c.password?.isSome) := by
    rw [hasCredentials, Bool.and_eq_true, Classical.not_imp]
  unfold conflict?
  by_cases hauth : c.authRequired = true → c.username?.isSome ∧ c.password?.isSome
  · rw [if_neg (hcredentials.not.mpr (not_not.mpr hauth))]
    split_ifs with hrequest hbind
    · simp [hrequest]
    · simp [hbind]
    · exact iff_of_true rfl ⟨hauth, hrequest, hbind⟩
  · rw [if_pos (hcredentials.mpr hauth)]
    exact iff_of_false (by simp) fun h => hauth h.1

/-- What a table tells has no conflict just if its settings make sense together. -/
theorem Protocol.ToldBy.conflict?_eq_none_iff {c : Protocol} (h : c.ToldBy t) :
    c.conflict? = none ↔ Consistent t := by
  have hauth : c.authRequired = true ↔ t.get? "auth_required" = some (.boolean true) :=
    h.authRequired.eq_iff (by decide) fun _ _ => Value.boolean.inj
  have huser : (t.get? "username").isSome = c.username?.isSome := by
    rw [h.username, Option.isSome_map]
  have hpassword : (t.get? "password").isSome = c.password?.isSome := by
    rw [h.password, Option.isSome_map]
  have hrequest : c.requestLimit = 0 ↔ t.get? "request_timeout" = some (.integer 0) :=
    h.requestLimit.eq_iff (by decide) written_injective
  have hbind : c.bindLimit = 0 ↔ t.get? "bind_timeout" = some (.integer 0) :=
    h.bindLimit.eq_iff (by decide) written_injective
  rw [Protocol.conflict?_eq_none_iff, hauth, ← huser, ← hpassword, Ne, hrequest, Ne, hbind]
  constructor
  · rintro ⟨hcredentials, hrequestTime, hbindTime⟩
    exact ⟨hcredentials, hrequestTime, hbindTime⟩
  · rintro ⟨hcredentials, hrequestTime, hbindTime⟩
    exact ⟨hcredentials, hrequestTime, hbindTime⟩

/-- What is told about the protocols depends on the known keys alone. -/
theorem Protocol.ToldBy.of_get?_eq {c : Protocol} (h : c.ToldBy t)
    (hget : ∀ key ∈ protocolFields, t.get? key = t'.get? key) : c.ToldBy t' := by
  have hmem : protocolFields = ["auth_required", "username", "password", "allow_connect",
      "allow_bind", "allow_udp", "request_timeout", "bind_timeout"] := rfl
  exact {
    authRequired := (tells_congr (hget _ (by simp [hmem]))).mp h.authRequired
    username := (hget _ (by simp [hmem])).symm.trans h.username
    password := (hget _ (by simp [hmem])).symm.trans h.password
    allowConnect := (tells_congr (hget _ (by simp [hmem]))).mp h.allowConnect
    allowBind := (tells_congr (hget _ (by simp [hmem]))).mp h.allowBind
    allowDatagrams := (tells_congr (hget _ (by simp [hmem]))).mp h.allowDatagrams
    requestLimit := (tells_congr (hget _ (by simp [hmem]))).mp h.requestLimit
    bindLimit := (tells_congr (hget _ (by simp [hmem]))).mp h.bindLimit }

/-! ### The settings of TCP sockets, read -/

theorem Tcp.ToldBy.typed {c : Tcp} (h : c.ToldBy t) : Typed t := by
  refine ⟨?_, ?_⟩
  · simp only [Holds, List.forall_mem_cons]
    exact ⟨h.nodelay.kind_of isFlag_boolean, by simp⟩
  · simp only [Holds, List.forall_mem_cons]
    exact ⟨h.keepaliveIdle.kind_of isCount_written,
      h.keepaliveInterval.kind_of isCount_written, by simp⟩

theorem Tcp.Typed.check_eq_ok {key : String} {v : Value} (h : Typed t) (hv : t.get? key = some v) :
    checkTcp key v = .ok () := by
  unfold checkTcp
  split_ifs with hflag hcount
  · exact judged_eq_ok_iff.mpr (Reader.exists_flag_iff.mpr (h.flags key (by simp [hflag]) v hv))
  · exact judged_eq_ok_iff.mpr (Reader.exists_count_iff.mpr (h.counts key hcount v hv))
  · rfl

/-- The settings of TCP sockets are read as their table tells them. -/
theorem readTcp_eq_ok_iff {c : Tcp} (ht : t.Proper) :
    readTcp (.table t) = .ok c ↔ c.ToldBy t := by
  have hcount : ∀ key, Reads t key Reader.count written := fun _ => reads_count ht
  unfold readTcp
  simp only [bind_eq_ok_iff, Group.ofValue, Except.ok.injEq, exists_eq_left', pure, Except.pure]
  constructor
  · rintro ⟨⟨⟩, -, _, hnodelay, _, hidle, _, hinterval, rfl⟩
    exact {
      nodelay := (Group.getD_eq_ok_iff reads_flag).mp hnodelay
      keepaliveIdle := (Group.getD_eq_ok_iff (hcount _)).mp hidle
      keepaliveInterval := (Group.getD_eq_ok_iff (hcount _)).mp hinterval }
  · intro h
    have hjudge : Group.judge ⟨t, .missing⟩ checkTcp = .ok () :=
      Group.judge_eq_ok_iff.mpr fun e he => h.typed.check_eq_ok (ht.get?_eq_some_iff.mpr he)
    exact ⟨(), hjudge,
      _, (Group.getD_eq_ok_iff reads_flag).mpr h.nodelay,
      _, (Group.getD_eq_ok_iff (hcount _)).mpr h.keepaliveIdle,
      _, (Group.getD_eq_ok_iff (hcount _)).mpr h.keepaliveInterval, rfl⟩

/-- A table tells the settings of TCP sockets if they are of their kinds. -/
theorem Tcp.exists_toldBy_iff (ht : t.Proper) : (∃ c, ToldBy t c) ↔ Typed t := by
  constructor
  · rintro ⟨c, h⟩
    exact h.typed
  · rintro ⟨hflags, hcounts⟩
    have hcount : ∀ key ∈ ["keepalive_secs", "keepalive_interval"], ∀ v, t.get? key = some v →
        ∃ n, v = written n :=
      fun key hkey v hv => (hcounts key hkey v hv).exists_written (ht.get? hv)
    obtain ⟨nodelay, hnodelay⟩ := exists_tells (hflags "nodelay" (by simp)) true
    obtain ⟨keepaliveIdle, hidle⟩ := exists_tells (hcount "keepalive_secs" (by simp)) 20
    obtain ⟨keepaliveInterval, hinterval⟩ := exists_tells (hcount "keepalive_interval" (by simp)) 8
    exact ⟨⟨nodelay, keepaliveIdle, keepaliveInterval⟩, hnodelay, hidle, hinterval⟩

/-- Without settings TCP sockets have the options by default. -/
theorem Tcp.toldBy_nil_iff {c : Tcp} : c.ToldBy [] ↔ c = Tcp.default := by
  constructor
  · rintro ⟨hnodelay, hidle, hinterval⟩
    rw [tells_nil] at hnodelay hidle hinterval
    calc c = ⟨c.nodelay, c.keepaliveIdle, c.keepaliveInterval⟩ := rfl
      _ = Tcp.default := by rw [hnodelay, hidle, hinterval, Tcp.default]
  · rintro rfl
    refine ⟨?_, ?_, ?_⟩ <;> exact tells_nil.mpr rfl

/-- What is told about TCP sockets depends on the known keys alone. -/
theorem Tcp.ToldBy.of_get?_eq {c : Tcp} (h : c.ToldBy t)
    (hget : ∀ key ∈ tcpFields, t.get? key = t'.get? key) : c.ToldBy t' := by
  have hmem : tcpFields = ["nodelay", "keepalive_secs", "keepalive_interval"] := rfl
  exact {
    nodelay := (tells_congr (hget _ (by simp [hmem]))).mp h.nodelay
    keepaliveIdle := (tells_congr (hget _ (by simp [hmem]))).mp h.keepaliveIdle
    keepaliveInterval := (tells_congr (hget _ (by simp [hmem]))).mp h.keepaliveInterval }

end settings

end Socks.Config
