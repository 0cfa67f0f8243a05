import Socks.Proofs.Session.Greeting
import Socks.Server

/-!
# The rules stand before every command

Whatever a client sends and whatever others answer, the rules are asked about a complete request
before anything else is done about it, once, and nothing is done that they do not allow.

Main statement: `Session.gated_by_rules`.
-/

namespace Socks

namespace Session

/-- What has become of a request `r` that was put to the rules, when `before` had been written and
`unread` is all that the client has sent after the request. -/
structure Gated (rules : Rules) (r : Request) (before unread : Bytes) (s : Session) : Prop where
  first : s.calls.head? = some (.rules r (rules r))
  once : ∀ r' allowed, .rules r' allowed ∉ s.calls.tail
  uses : ∀ call ∈ s.calls.tail, rules r = true ∧ r.command.Uses call
  sockets : s.socketsOpened ≤ 2
  denied : rules r = false →
    s.control.incoming = unread ∧ s.far? = none ∧
      ((s.result? = some (.error (.blocked (.request r))) ∧
          s.control.written = before ++ (Reply.bare r.version .ruleFailure).bytes) ∨
        ∃ e part, s.result? = some (.error (.transport e)) ∧ ¬s.control.Takes 1 ∧
          s.control.written = before ++ part ∧
          part <+: (Reply.bare r.version .ruleFailure).bytes ∧
          part ≠ (Reply.bare r.version .ruleFailure).bytes)

variable {service : Service} {c : Connection} {out : Surroundings} {rules : Rules} {s₀ s : Session}
  {events : List Event} {limit : UInt64} {here? : Option IpAddress} {r : Request}

theorem socketsOpened_le {more : List Call} {hosts : List String} {allowed : Bool}
    (h : s.calls = .rules r allowed :: (more ++ hosts.map Call.resolve)) :
    s.socketsOpened ≤ more.length := by
  unfold socketsOpened
  rw [h, List.countP_cons_of_neg (by simp), List.countP_append]
  have hlookups : ∀ opens : Call → Bool, (∀ host, opens (.resolve host) = false) →
      (hosts.map Call.resolve).countP opens = 0 := by
    intro opens hnot
    rw [List.countP_eq_zero]
    intro call hcall
    obtain ⟨host, -, rfl⟩ := List.mem_map.mp hcall
    simp [hnot host]
  rw [hlookups _ (by simp), Nat.add_zero]
  exact List.countP_le_length

/-- After the rules have been asked, a request leads to no call that they do not allow, and to none
that its command does not use. -/
theorem Stands.calls_of_ofRequest (h : Stands rules (.ofRequest limit here? r) s₀ events s)
    (h₀ : s₀.calls = []) :
    ∃ more, s.calls = .rules r (rules r) :: more ∧
      (∀ call ∈ more, rules r = true ∧ r.command.Uses call) ∧ s.socketsOpened ≤ 2 := by
  obtain ⟨cs, ms, met, q, hosts, hc, hq, hcalls, hhosts⟩ := h.calls
  rw [h₀, List.nil_append] at hcalls
  rcases hc.of_ofRequest with ⟨-, -, -, rfl⟩ | ⟨cs', rfl, hc'⟩
  · exact absurd rfl (hq r _)
  rw [List.cons_append, List.cons_append] at hcalls
  have hopened := socketsOpened_le hcalls
  refine ⟨_, hcalls, ?_⟩
  by_cases hr : rules r = true
  · rw [if_pos hr] at hc'
    obtain ⟨huses, hfew⟩ := hc'.uses_perform hhosts
    refine ⟨fun call hcall => ⟨hr, huses call hcall⟩, ?_⟩
    omega
  · rw [if_neg hr] at hc'
    obtain ⟨hnone, rfl⟩ := hc'.quiet_giveUp hhosts
    rw [hnone, List.length_nil] at hopened
    rw [hnone]
    refine ⟨fun call hcall => ?_, ?_⟩
    · cases hcall
    · omega

/-- A request that the rules deny gets one reply, and nothing else happens. -/
theorem Stands.denied (h : Stands rules (.ofRequest limit here? r) s₀ events s)
    (h₀ : s₀.far? = none) (hr : rules r = false) :
    s.control.incoming = s₀.control.incoming ++ heard events ∧ s.far? = none ∧
      ((s.result? = some (.error (.blocked (.request r))) ∧
          s.control.written =
            s₀.control.written ++ (Reply.bare r.version .ruleFailure).bytes) ∨
        ∃ e part, s.result? = some (.error (.transport e)) ∧ ¬s.control.Takes 1 ∧
          s.control.written = s₀.control.written ++ part ∧
          part <+: (Reply.bare r.version .ruleFailure).bytes ∧
          part ≠ (Reply.bare r.version .ruleFailure).bytes) := by
  -- Where the rules deny the request, its courses are those of giving up.
  have hcourse : ∀ {cs ms met q}, (Plan.ofRequest limit here? r).Course rules cs ms met q →
      (∀ r next, q ≠ .consult r next) → met = false ∧
        (ms = [] ∧ q = .giveUp r.version .ruleFailure (.blocked (.request r)) ∨
          ms = [.bare r.version .ruleFailure] ∧ q = .finish (.error (.blocked (.request r)))) := by
    intro cs ms met q hc hq
    rcases hc.of_ofRequest with ⟨-, -, -, rfl⟩ | ⟨cs', -, hc'⟩
    · exact absurd rfl (hq r _)
    · rw [if_neg (by simp [hr])] at hc'
      exact hc'.of_giveUp.2
  cases h with
  | waits hc ha hs =>
      obtain ⟨rfl, ⟨rfl, rfl⟩ | ⟨rfl, rfl⟩⟩ := hcourse hc (by rintro r next rfl; cases ha)
      · cases ha
      · cases ha
        rw [hs]
        exact ⟨rfl, h₀, .inl ⟨rfl, by simp [went, passed, Stream.wrote]⟩⟩
  | cut hc hp hne ht hs =>
      obtain ⟨rfl, ⟨rfl, hq⟩ | ⟨-, hq⟩⟩ := hcourse hc (by simp)
      · cases hq
        rw [hs] at ht ⊢
        refine ⟨rfl, h₀, .inr ⟨_, _, rfl, ht, ?_, hp, hne⟩⟩
        simp [went, passed, Stream.wrote]
      · cases hq
  | relays he hc hr =>
      obtain ⟨-, ⟨-, hq⟩ | ⟨-, hq⟩⟩ := hcourse hc (by simp) <;> cases hq
  | associates he hc ha =>
      obtain ⟨-, ⟨-, hq⟩ | ⟨-, hq⟩⟩ := hcourse hc (by simp) <;> cases hq

theorem not_uses_rules {command : Command} {r : Request} {allowed : Bool} :
    ¬command.Uses (.rules r allowed) := by
  cases command <;> exact id

theorem Stands.gated (h : Stands rules (.ofRequest limit here? r) s₀ events s)
    (hcalls : s₀.calls = []) (hfar : s₀.far? = none) :
    Gated rules r s₀.control.written (s₀.control.incoming ++ heard events) s := by
  obtain ⟨more, hmore, huses, hsockets⟩ := h.calls_of_ofRequest hcalls
  refine ⟨by rw [hmore]; rfl, fun r' allowed hmem => ?_, ?_, hsockets, h.denied hfar⟩
  · rw [hmore] at hmem
    exact not_uses_rules (huses _ hmem).2
  · rw [hmore]
    exact huses

end Session

/-- Which commands a configuration switches on. -/
def Config.Protocol.allows (config : Config.Protocol) : Command → Bool
  | .connect => config.allowConnect
  | .bind => config.allowBind
  | .associate => config.allowDatagrams

namespace Session

/-- Without rules of its own a session goes by the switches of its configuration. -/
theorem Gated.switch {config : Config.Protocol} {r : Request} {before unread : Bytes} {s : Session}
    (h : Gated (Service.ofConfig config).rules r before unread s) (hne : s.calls.tail ≠ []) :
    config.allows r.command = true := by
  obtain ⟨call, hcall⟩ := List.exists_mem_of_ne_nil _ hne
  have hr := (h.uses call hcall).1
  cases hc : r.command <;>
    simpa [Service.ofConfig, Permissions.rules, hc, Config.Protocol.allows] using hr

/-- The rules come first, on every connection and for every request that is known from the start:
they are asked about the complete request, once and before anybody else. A request that they deny
gets one reply, which says so, and leaves what follows it unread; after one that they allow only its
own command runs. Rules made from a configuration allow only what it switches on. -/
theorem gated_by_rules (service : Service) (c : Connection) (out : Surroundings) (control : Stream)
    (events : List Event) :
    (let s := (start service c out control).trace service c out events
     s.calls = [] ∨
      ∃ r hello said unread, Handshake.Accepts service.authenticator r hello said ∧
        sentBy control events = hello ++ unread ∧
        Gated service.rules { r with client? := c.client? } (control.written ++ said) unread s) ∧
    (∀ r, Gated service.rules r control.written (sentBy control events)
      ((ofRequest service c out control r).trace service c out events)) ∧
    ∀ config : Config.Protocol, service = .ofConfig config →
      ∀ r before unread s, Gated service.rules r before unread s → s.calls.tail ≠ [] →
        config.allows r.command = true := by
  refine ⟨?_, fun r => ?_, ?_⟩
  · rcases (greets_trace service c out control events).calls_or_stands with
      ⟨hcalls, -⟩ | ⟨before, after, r, hello, rest, said, phase, rfl, ha, hsent, hstands⟩
    · exact .inl hcalls
    · refine .inr ⟨r, hello, said, rest ++ heard after, ha, ?_, hstands.gated rfl rfl⟩
      rw [sentBy_append, hsent, List.append_assoc]
  · have h := @stands_trace service c out
      (.ofRequest service.bindLimit (c.server?.map Endpoint.ip) r) Plan.grounded_ofRequest
        (fresh control (.over (.ok ()))) events
    exact h.gated rfl rfl
  · rintro config rfl r before unread s h hne
    exact h.switch hne

/-- Unless told otherwise a server dials for its clients, and does not listen for them. -/
theorem gated_by_rules_default :
    let service := Service.ofConfig .default
    let request (command : Command) : Request :=
      ⟨.v4, command, .literal (.ofOctets 127 0 0 1) 80, .anonymous, none⟩
    let run (command : Command) : Session :=
      (ofRequest service ⟨none, none⟩ .silent .idle (request command)).trace service ⟨none, none⟩
        .silent [.clientSends [104, 105]]
    ((run .connect).calls.tail ≠ [] ∧ Config.Protocol.default.allows .connect = true) ∧
      service.rules (request .bind) = false ∧ (run .bind).control.incoming = [104, 105] := by
  intro service request run
  have hgate := gated_by_rules service ⟨none, none⟩ .silent .idle [.clientSends [104, 105]]
  have hcalled : (run .connect).calls.tail ≠ [] := by decide +kernel
  have hdenied : service.rules (request .bind) = false := rfl
  refine ⟨⟨hcalled, ?_⟩, hdenied, ?_⟩
  · exact hgate.2.2 .default rfl (request .connect) _ _ _ (hgate.2.1 _) hcalled
  · exact ((hgate.2.1 (request .bind)).denied hdenied).1

end Session

end Socks
