import Socks.Address.Codec

/-!
# Replies

What the server tells the client about a command. A reply carries an address by number only, so
every reply can be encoded.
-/

namespace Socks

/-- A reply; no address is `0.0.0.0:0`. -/
structure Reply where
  version : Version
  status : Status
  bound? : Option Address
deriving DecidableEq

namespace Reply

/-- A reply without an address. -/
def bare (version : Version) (status : Status) : Reply := ⟨version, status, none⟩

/-- A reply that grants the command and tells where a socket is. -/
def granted (version : Version) (bound : Endpoint) : Reply :=
  ⟨version, .success, some (.ofEndpoint bound)⟩

/-- The literal address that a reply carries. -/
def address (r : Reply) : Address := { r.bound?.getD .unspecified with name := "" }

/-- What comes before the address. -/
def opening (r : Reply) : Bytes :=
  match r.version with
  | .v4 => [0, r.status.grantCode]
  | .v5 => [5, r.status.code, 0]

/-- The bytes of a reply. -/
def encode (r : Reply) : Except Failure Bytes := do
  return r.opening ++ (← r.address.encode r.version)

/-- The bytes of a reply, none if it had no form. -/
def bytes (r : Reply) : Bytes :=
  r.opening ++
    match r.version with
    | .v4 => r.address.encodeV4
    | .v5 => Address.encodeLiteral r.address.ip? r.address.port

/-- Every reply has a form. -/
theorem encode_eq_ok_bytes (r : Reply) : r.encode = .ok r.bytes := by
  obtain ⟨version, status, bound?⟩ := r
  cases version <;> rfl

end Reply

end Socks
