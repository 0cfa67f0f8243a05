import Socks.Proofs.RuleGate

/-!
# Nobody gets past a server that asks for credentials without them

A server whose configuration requires authentication knows one user. What it does for a client, from
the rules on, it does only for one that has offered to go by user name and password and has shown
those of this user; and it does it for every client that shows them in time.

Main statement: `Session.authentication_gate`.
-/

namespace Socks

open Authentication Handshake

/-! ### The credentials of a configuration -/

theorem Credentials.accepts_single {user password user' password' : String} :
    (empty.add user password).accepts user' password' = true ↔
      user' = user ∧ password' = password := by
  simp only [accepts, password?_add]
  split_ifs with h
  · rw [beq_iff_eq, Option.some.injEq, and_iff_right h]
    exact eq_comm
  · simp [h, password?, empty]

/-- The authenticator of a configuration that requires authentication. -/
def Authenticator.only (user password : String) : Authenticator :=
  .credentials (Credentials.empty.add user password).accepts true

/-- A configuration that requires authentication has a user, whose credentials are the only ones. -/
theorem Server.authenticator_of_build {config : Config.Server} {server : Server}
    (h : Server.build config = .ok server) (hr : config.protocol.authRequired = true) :
    server.service.requestLimit = config.protocol.requestLimit ∧
      ∃ user password, config.protocol.username? = some user ∧
        config.protocol.password? = some password ∧
        server.service.authenticator = .only user password := by
  unfold Server.build at h
  split at h
  · cases h
  · rename_i hconflict
    cases h
    refine ⟨rfl, ?_⟩
    unfold Config.Protocol.conflict? Config.Protocol.hasCredentials at hconflict
    cases hu : config.protocol.username? with
    | none => simp [hr, hu] at hconflict
    | some user =>
        cases hp : config.protocol.password? with
        | none => simp [hr, hu, hp] at hconflict
        | some password =>
            refine ⟨user, password, rfl, rfl, ?_⟩
            simp [Service.ofConfig, hu, hp, hr, Authenticator.only]

namespace Authenticator

variable {user password : String} {offered : Bytes} {m : Method}

theorem ofByte?_eq_some_userPass_iff {b : UInt8} :
    Method.ofByte? b = some .userPass ↔ b = 2 := by
  unfold Method.ofByte?
  split_ifs with h₀ h₂
  · simp [h₀]
  · simp [h₂]
  · simp [h₂]

theorem select?_only (h : (only user password).select? offered = some m) :
    m = .userPass ∧ 2 ∈ offered := by
  have hm : m = .userPass := by
    have hchosen := List.find?_some h
    cases m with
    | noAuth => simp [only, methods] at hchosen
    | userPass => rfl
  subst hm
  obtain ⟨b, hb, he⟩ := List.mem_filterMap.mp (List.mem_of_find?_eq_some h)
  rw [ofByte?_eq_some_userPass_iff.mp he] at hb
  exact ⟨rfl, hb⟩

theorem select?_only_of_mem (h : 2 ∈ offered) :
    (only user password).select? offered = some .userPass := by
  have hsome : ((only user password).select? offered).isSome = true := by
    refine List.find?_isSome.mpr ⟨.userPass, List.mem_filterMap.mpr ⟨2, h, rfl⟩, rfl⟩
  obtain ⟨m, hm⟩ := Option.isSome_iff_exists.mp hsome
  rw [hm, (select?_only hm).1]

end Authenticator

namespace Authentication

/-- How a client opens its connection that shows a user name and a password: it offers methods,
that one among them, and then goes by it. -/
structure Shows (user password : String) (methods opening : Bytes) : Prop where
  offered : 2 ∈ methods
  few : methods.length < 256
  named : user ≠ ""
  userShort : (Text.toBytes user).length < 256
  passwordShort : (Text.toBytes password).length < 256
  spelled : opening = 5 :: (counted methods ++ login user password)

variable {user password : String} {methods opening octets : Bytes} {r : Request}

theorem Shows.accepts (h : Shows user password methods opening) (hr : r.SpelledV5 octets) :
    Accepts (.only user password) { r with identity := .user .userPass user } (opening ++ octets)
      [5, 2, 1, 0] := by
  have hsettles := @Settles.user (.only user password) methods user password
    (List.ne_nil_of_mem h.offered) h.few (Authenticator.select?_only_of_mem h.offered)
    ⟨h.named, h.userShort, h.passwordShort, Credentials.accepts_single.mpr ⟨rfl, rfl⟩⟩
  rw [h.spelled]
  exact .v5 hsettles hr

/-- Only clients that show the only credentials are accepted. -/
theorem shows_of_accepts {hello said : Bytes} (h : Accepts (.only user password) r hello said) :
    r.identity = .user .userPass user ∧
      ∃ methods opening octets, Shows user password methods opening ∧
        hello = opening ++ octets := by
  cases h with
  | v4 ha => exact absurd ha (by simp [Authenticator.acceptsAnonymous, Authenticator.only,
      Authenticator.methods])
  | @v5 r identity exchange octets said hi hr =>
      cases hi with
      | anonymous _ _ hm => cases (Authenticator.select?_only hm).1
      | @user methods user' password' _ hlt hm hu =>
          obtain ⟨rfl, rfl⟩ := Credentials.accepts_single.mp hu.valid
          exact ⟨rfl, methods, _, octets, ⟨(Authenticator.select?_only hm).2, hlt, hu.named,
            hu.userShort, hu.passwordShort, rfl⟩, by simp⟩

theorem counted_append_inj {a b x y : Bytes} (ha : a.length < 256) (hb : b.length < 256)
    (h : counted a ++ x = counted b ++ y) : a = b := by
  simp only [counted, List.cons_append, List.cons.injEq] at h
  obtain ⟨hlen, h⟩ := h
  refine (List.append_inj h ?_).1
  rw [← toNat_ofNat_length ha, ← toNat_ofNat_length hb, hlen]

end Authentication

namespace Session

variable {service : Service} {c : Connection} {out : Surroundings} {control : Stream}
  {events : List Event} {s : Session} {user password : String}

/-- A session that has called anybody has been shown the only credentials. -/
theorem Greets.shown (h : Greets service c control events s)
    (hauth : service.authenticator = .only user password) (hcalls : s.calls ≠ []) :
    ∃ methods opening more r, Shows user password methods opening ∧
      sentBy control events = opening ++ more ++ s.control.incoming ∧
      s.calls.head? = some (.rules r (service.rules r)) ∧ r.identity = .user .userPass user := by
  rcases h.calls_or_stands with
    ⟨hnone, -⟩ | ⟨before, after, r, hello, rest, said, phase, he, ha, hsent, hstands⟩
  · exact absurd hnone hcalls
  · rw [hauth] at ha
    obtain ⟨hidentity, methods, opening, octets, hshows, rfl⟩ := shows_of_accepts ha
    obtain ⟨more, hmore⟩ := hstands.unread
    obtain ⟨calls, hhead, -⟩ := hstands.calls_of_ofRequest rfl
    have hmore' : more ++ s.control.incoming = rest ++ heard after := hmore
    refine ⟨methods, opening, octets ++ more, { r with client? := c.client? }, hshows, ?_,
      by rw [hhead]; rfl, hidentity⟩
    rw [he, sentBy_append, hsent]
    simp only [List.append_assoc, hmore']

/-- A session that is shown the only credentials in time, and then a request, asks the rules about
it. -/
theorem Greets.admits {early later : List Event} {methods opening octets more : Bytes} {r : Request}
    (h : Greets service c control early s) (hauth : service.authenticator = .only user password)
    (hshows : Shows user password methods opening) (hr : r.SpelledV5 octets)
    (hsent : sentBy control early = opening ++ octets ++ more) (ho : Orderly control.ending early)
    (hclock : elapsed early < service.requestLimit.toNat * 1000) (ht : control.Takes 4) :
    let request : Request := { r with identity := .user .userPass user, client? := c.client? }
    (s.trace service c out later).calls.head? =
      some (.rules request (service.rules request)) := by
  have ha := hshows.accepts hr
  rw [← hauth] at ha
  obtain ⟨before, after, rest, phase, hstands⟩ := h.stands_of_accepts ha hsent ho hclock ht
  have htrace := @Stands.trace service c out _ _ s after Plan.grounded_ofRequest hstands later
  obtain ⟨calls, hhead, -⟩ := htrace.calls_of_ofRequest rfl
  rw [hhead]
  rfl

/-- Where authentication is required, nobody is asked anything for a client, neither the rules nor
others, before it has offered to go by user name and password and has shown those of the
configuration; its request then bears the name. No client of SOCKS4 and none that does not offer the
method comes so far. A client that shows them in time, and then makes a request, does, if what it is
told can be written. -/
theorem authentication_gate {config : Config.Server} {server : Server}
    (hbuild : Server.build config = .ok server) (hr : config.protocol.authRequired = true) :
    ∃ user password, config.protocol.username? = some user ∧
      config.protocol.password? = some password ∧
      ∀ (rules : Rules) (c : Connection) (out : Surroundings) (control : Stream)
        (events : List Event),
        let service : Service := { server.service with rules := rules }
        let s := (start service c out control).trace service c out events
        (s.calls ≠ [] → ∃ methods opening more r, Shows user password methods opening ∧
          sentBy control events = opening ++ more ++ s.control.incoming ∧
          s.calls.head? = some (.rules r (rules r)) ∧ r.identity = .user .userPass user) ∧
        ((sentBy control events).head? = some 4 → s.calls = []) ∧
        (∀ methods rest, methods.length < 256 → 2 ∉ methods →
          sentBy control events = 5 :: (counted methods ++ rest) → s.calls = []) ∧
        ∀ early later methods opening octets more, ∀ r : Request, events = early ++ later →
          Shows user password methods opening → r.SpelledV5 octets →
          sentBy control early = opening ++ octets ++ more → Orderly control.ending early →
          elapsed early < config.protocol.requestLimit.toNat * 1000 → control.Takes 4 →
            let request : Request :=
              { r with identity := .user .userPass user, client? := c.client? }
            s.calls.head? = some (.rules request (rules request)) := by
  obtain ⟨hlimit, user, password, huser, hpassword, hauth⟩ :=
    Server.authenticator_of_build hbuild hr
  refine ⟨user, password, huser, hpassword, fun rules c out control events => ?_⟩
  intro service s
  have hg := greets_trace service c out control events
  have hshown := hg.shown hauth
  refine ⟨hshown, fun hhead => ?_, fun methods rest hfew hno hsent => ?_, ?_⟩
  · by_contra hcalls
    obtain ⟨methods, opening, more, r, hshows, hsent, -⟩ := hshown hcalls
    rw [hsent, hshows.spelled] at hhead
    exact absurd hhead (by simp)
  · by_contra hcalls
    obtain ⟨methods', opening, more, r, hshows, hsent', -⟩ := hshown hcalls
    rw [hsent', hshows.spelled] at hsent
    simp only [List.cons_append, List.append_assoc, List.cons.injEq, true_and] at hsent
    rw [← counted_append_inj hshows.few hfew hsent] at hno
    exact hno hshows.offered
  · rintro early later methods opening octets more r rfl hshows hspelled hsent ho hclock ht
    intro request
    have hearly := greets_trace service c out control early
    rw [← hlimit] at hclock
    have hadmits := @Greets.admits service c out control _ user password early later methods
      opening octets more r hearly hauth hshows hspelled hsent ho hclock ht
    rw [← trace_append] at hadmits
    exact hadmits

/-- A configuration that requires the password "p" of the user "u", with a limit for requests. -/
def guarded (requestLimit : UInt64) : Config.Server :=
  ⟨"", { Config.Protocol.default with
      authRequired := true
      username? := some "u"
      password? := some "p"
      requestLimit := requestLimit }, .default⟩

/-- The user "u" asks for port 80 of 127.0.0.1, thirty years after the connection was made, where
the limit is the longest there is. -/
theorem authentication_gate_user :
    let events : List Event := [.timePasses 946080010000,
      .clientSends [5, 1, 2, 1, 1, 117, 1, 112, 5, 1, 0, 1, 127, 0, 0, 1, 0, 80]]
    let config := guarded 18446744073709551615
    ∃ server, Server.build config = .ok server ∧ config.protocol.authRequired = true ∧
      let service : Service := { server.service with rules := fun _ => false }
      let s := (start service ⟨none, none⟩ .silent .idle).trace service ⟨none, none⟩ .silent events
      s.calls.head? = some (.rules ⟨.v5, .connect, .literal (.ofOctets 127 0 0 1) 80,
        .user .userPass "u", none⟩ false) := by
  intro events config
  refine ⟨_, rfl, rfl, ?_⟩
  obtain ⟨user, password, huser, hpassword, hgate⟩ := @authentication_gate config _ rfl rfl
  cases huser
  cases hpassword
  have hshows : Shows "u" "p" [2] [5, 1, 2, 1, 1, 117, 1, 112] :=
    ⟨by decide, by decide, by decide, by decide, by decide, rfl⟩
  have hspelled : Request.SpelledV5 ⟨.v5, .connect, .literal (.ofOctets 127 0 0 1) 80, .anonymous,
      none⟩ [5, 1, 0, 1, 127, 0, 0, 1, 0, 80] := .mk .connect (.v4 (IpAddress.quad 127 0 0 1) 80)
  exact (hgate (fun _ => false) ⟨none, none⟩ .silent .idle events).2.2.2 events [] [2] _ _ [] _
    (List.append_nil _).symm hshows hspelled rfl
    (orderly_cons (by decide) (orderly_cons (by decide) (orderly_nil _))) (by decide)
    (Stream.takes_of_faultless rfl 4)

end Session

end Socks
