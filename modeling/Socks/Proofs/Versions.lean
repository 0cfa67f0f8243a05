import Socks.Proofs.Plan

/-!
# Plans in both versions

What a request, a reply, a failure, a call and a plan become in another version of the protocol.
The commands are planned alike in both versions: the plan of a request in another version is the
plan of the request, with its replies given in that version (`Plan.inVersion_ofRequest`). The two
forms of a reply are told by `Reply.bytes_inVersion_v5` and `Reply.bytes_inVersion_v4`.
-/

namespace Socks

/-- The request of a client that speaks this version. -/
def Request.inVersion (v : Version) (r : Request) : Request := { r with version := v }

/-- The reply to a client that speaks this version. -/
def Reply.inVersion (v : Version) (m : Reply) : Reply := { m with version := v }

/-- The denial of a request in this version. -/
def Denial.inVersion (v : Version) : Denial → Denial
  | .request r => .request (r.inVersion v)
  | d => d

/-- The failure in this version: only a denied request is told by its version. -/
def Failure.inVersion (v : Version) : Failure → Failure
  | .blocked d => .blocked (d.inVersion v)
  | f => f

@[simp] theorem Failure.kind_inVersion (v : Version) (f : Failure) :
    (f.inVersion v).kind = f.kind := by cases f <;> rfl

theorem Failure.inVersion_inVersion (v v' : Version) (f : Failure) :
    (f.inVersion v).inVersion v' = f.inVersion v' := by
  cases f with
  | blocked d => cases d <;> rfl
  | _ => rfl

/-- The result in this version. -/
def resultIn (v : Version) (result : Except Failure Unit) : Except Failure Unit :=
  result.mapError (Failure.inVersion v)

theorem resultIn_resultIn (v v' : Version) (result : Except Failure Unit) :
    resultIn v' (resultIn v result) = resultIn v' result := by
  cases result with
  | ok => rfl
  | error f => exact congrArg Except.error (f.inVersion_inVersion v v')

/-- The kind of a failure does not tell the version. -/
theorem kind_comp_resultIn (v : Version) :
    Except.mapError Failure.kind ∘ resultIn v = Except.mapError Failure.kind := by
  funext result
  cases result with
  | ok => rfl
  | error f => exact congrArg Except.error (f.kind_inVersion v)

/-- The call in this version: only the rules are shown a version. -/
def Call.inVersion (v : Version) : Call → Call
  | .rules r allowed => .rules (r.inVersion v) allowed
  | call => call

theorem Call.inVersion_inVersion (v v' : Version) (call : Call) :
    (call.inVersion v).inVersion v' = call.inVersion v' := by cases call <;> rfl

/-! ### The two forms of a reply -/

namespace Reply

variable (m : Reply)

/-- A SOCKS5 reply is the code of its status, then the literal address with the port. -/
theorem bytes_inVersion_v5 :
    (m.inVersion .v5).bytes =
      [5, m.status.code, 0] ++ Address.encodeLiteral m.address.ip? m.address.port := rfl

/-- A SOCKS4 reply grants what a SOCKS5 reply with code zero does, and rejects the rest. It has the
same port, and the same address if that is an IPv4 address. -/
theorem bytes_inVersion_v4 :
    (m.inVersion .v4).bytes =
      [0, if m.status.code = 0 then 0x5A else 0x5B] ++
        ((Block.ofWord m.address.port).bytes ++
          match m.address.ip? with
          | some (.v4 octets) => octets.bytes
          | _ => [0, 0, 0, 0]) := by
  have hgrant : (if m.status.code = 0 then 0x5A else 0x5B) = m.status.grantCode := by
    cases m.status <;> rfl
  rw [hgrant]
  rfl

end Reply

namespace Plan

/-- The plan with which a client of this version is served. -/
def inVersion (v : Version) : Plan → Plan
  | finish result => finish (resultIn v result)
  | consult r next => consult (r.inVersion v) fun allowed => (next allowed).inVersion v
  | reply m next => reply (m.inVersion v) (next.inVersion v)
  | resolve host next => resolve host fun answer => (next answer).inVersion v
  | dial destination next => dial destination fun answer => (next answer).inVersion v
  | listen place next => listen place fun answer => (next answer).inVersion v
  | openSocket place next => openSocket place fun answer => (next answer).inVersion v
  | accept limit next => accept limit fun answer => (next answer).inVersion v
  | relay => relay
  | associate sockets => associate sockets

variable {v : Version} {r : Request} {p : Plan} {met : Bool}

/-- What begins only when a far side is there does so in both versions. -/
theorem Grounded.inVersion (h : p.Grounded met) : (p.inVersion v).Grounded met := by
  induction p generalizing met with
  | finish result => trivial
  | consult r next ih => exact fun allowed => ih allowed (h allowed)
  | reply m next ih => exact ih h
  | resolve host next ih => exact fun answer => ih answer (h answer)
  | dial destination next ih =>
      exact ⟨fun here => ih _ (h.1 here), fun e => ih _ (h.2 e)⟩
  | listen place next ih => exact fun answer => ih answer (h answer)
  | openSocket place next ih => exact fun answer => ih answer (h answer)
  | accept limit next ih =>
      exact ⟨fun caller => ih _ (h.1 caller), ih _ h.2.1, fun e => ih _ (h.2.2 e)⟩
  | relay => exact h
  | associate sockets => trivial

theorem inVersion_dialing (destination : Endpoint) :
    (dialing r destination).inVersion v = dialing (r.inVersion v) destination := by
  simp only [dialing, inVersion]
  congr 1
  funext answer
  rcases answer with e | (e | here) <;> rfl

theorem inVersion_connect : (connect r).inVersion v = connect (r.inVersion v) := by
  have hroute : (r.inVersion v).destination.route = r.destination.route := rfl
  unfold connect
  rw [hroute]
  cases r.destination.route with
  | known destination => exact inVersion_dialing destination
  | lookup host port =>
      simp only [inVersion]
      congr 1
      funext answer
      cases answer with
      | ok ip => exact inVersion_dialing ⟨ip, port⟩
      | error e => rfl
  | nowhere => rfl

theorem inVersion_welcome (caller : Endpoint) :
    (welcome r caller).inVersion v = welcome (r.inVersion v) caller := by
  have hhost : (r.inVersion v).destination.literalHost? = r.destination.literalHost? := rfl
  unfold welcome
  rw [hhost]
  cases r.destination.literalHost? with
  | none => rfl
  | some expected => by_cases h : caller.ip = expected <;> simp only [h, if_true, if_false] <;> rfl

theorem inVersion_bind (limit : UInt64) (here? : Option IpAddress) :
    (bind limit here? r).inVersion v = bind limit here? (r.inVersion v) := by
  simp only [bind, inVersion]
  congr 1
  funext answer
  rcases answer with e | (e | bound)
  · rfl
  · rfl
  · simp only [inVersion]
    congr 2
    funext caller?
    rcases caller? with e | (_ | caller)
    · rfl
    · rfl
    · exact inVersion_welcome caller

theorem inVersion_datagrams (here? : Option IpAddress) :
    (datagrams here? r).inVersion v = datagrams here? (r.inVersion v) := by
  simp only [datagrams, inVersion]
  congr 1
  funext answer
  cases answer with
  | error e => rfl
  | ok inner =>
      simp only [inVersion]
      congr 1
      funext answer
      cases answer <;> rfl

/-- A request in another version is planned like the request. -/
theorem inVersion_ofRequest (limit : UInt64) (here? : Option IpAddress) (v : Version)
    (r : Request) :
    (ofRequest limit here? r).inVersion v = ofRequest limit here? (r.inVersion v) := by
  simp only [ofRequest, inVersion]
  congr 1
  funext allowed
  cases allowed with
  | false => rfl
  | true =>
      have hcommand : (r.inVersion v).command = r.command := rfl
      simp only [if_true, perform, hcommand]
      cases r.command with
      | connect => exact inVersion_connect
      | bind => exact inVersion_bind limit here?
      | associate => exact inVersion_datagrams here?

end Plan

end Socks
