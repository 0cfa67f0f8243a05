import Socks.Buffer
import Socks.Dialogue

/-!
# Addresses on the wire

SOCKS4 writes port and IPv4 address. SOCKS5 writes a type byte, then four octets, sixteen octets or
a length and a name, then the port. Names go unchanged and need not be resolvable. Main statement:
what is written to a buffer piece by piece is the form of the address, or nothing (`on_write`).
-/

namespace Socks

/-- The most bytes of a domain name. -/
def maxDomainLength : Nat := 255

namespace Address

/-- The type byte of an IPv4 address. -/
def typeV4 : UInt8 := 1

/-- The type byte of a domain name. -/
def typeDomain : UInt8 := 3

/-- The type byte of an IPv6 address. -/
def typeV6 : UInt8 := 4

/-- Reads the SOCKS4 form. -/
def readV4 : Dialogue Address := do
  let port ← Dialogue.word
  let octets ← Dialogue.block 4
  return literal (.v4 octets) port

/-- Reads a name after its length byte. -/
def readName (length : UInt8) : Dialogue String := do
  if length = 0 then Dialogue.reject .emptyDomain
  else
    let name ← Dialogue.block length.toNat
    match Text.ofBytes? name.bytes with
    | some name => return name
    | none => Dialogue.reject .malformedDomain

/-- Reads what follows a type byte in the SOCKS5 form. -/
def readTyped (type : UInt8) : Dialogue Address := do
  if type = typeV4 then
    let octets ← Dialogue.block 4
    return literal (.v4 octets) (← Dialogue.word)
  else if type = typeV6 then
    let octets ← Dialogue.block 16
    return literal (.v6 octets) (← Dialogue.word)
  else if type = typeDomain then
    let name ← readName (← Dialogue.byte)
    return named name (← Dialogue.word)
  else Dialogue.fail (.addressTypeNotSupported type)

/-- Reads an address in the form of a version. -/
def read : Version → Dialogue Address
  | .v4 => readV4
  | .v5 => do readTyped (← Dialogue.byte)

/-- The SOCKS4 form; whatever is no IPv4 address is written `0.0.0.0`. -/
def encodeV4 (a : Address) : Bytes :=
  (Block.ofWord a.port).bytes ++
    match a.ip? with
    | some (.v4 octets) => octets.bytes
    | _ => (Block.zero 4).bytes

/-- The SOCKS5 form of a literal address; no address is written `0.0.0.0`. -/
def encodeLiteral (ip? : Option IpAddress) (port : UInt16) : Bytes :=
  (match ip? with
    | some (.v6 octets) => typeV6 :: octets.bytes
    | some (.v4 octets) => typeV4 :: octets.bytes
    | none => typeV4 :: (Block.zero 4).bytes) ++ (Block.ofWord port).bytes

/-- The SOCKS5 form; a name too long for its length byte has none. -/
def encodeV5 (a : Address) : Except Failure Bytes :=
  if a.name = "" then .ok (encodeLiteral a.ip? a.port)
  else
    let name := Text.toBytes a.name
    if name.length ≤ maxDomainLength then
      .ok (typeDomain :: UInt8.ofNat name.length :: name ++ (Block.ofWord a.port).bytes)
    else .error (.protocol (.domainTooLong name.length))

/-- The form of a version. -/
def encode (version : Version) (a : Address) : Except Failure Bytes :=
  match version with
  | .v4 => .ok a.encodeV4
  | .v5 => a.encodeV5

/-! ### Writing to a buffer -/

/-- Writes the SOCKS4 form. -/
def writeV4 (a : Address) : Filling Unit := do
  Filling.putWord a.port
  match a.ip? with
  | some (.v4 octets) => Filling.put octets.bytes
  | _ => Filling.put (Block.zero 4).bytes

/-- Writes a name after its type and its length; one that is too long is refused first. -/
def writeName (name : Bytes) : Filling Unit := do
  if maxDomainLength < name.length then throw (.protocol (.domainTooLong name.length))
  Filling.putByte typeDomain
  Filling.putByte (UInt8.ofNat name.length)
  Filling.put name

/-- Writes a literal address after its type; no address is written `0.0.0.0`. -/
def writeLiteral : Option IpAddress → Filling Unit
  | some (.v6 octets) => do
    Filling.putByte typeV6
    Filling.put octets.bytes
  | some (.v4 octets) => do
    Filling.putByte typeV4
    Filling.put octets.bytes
  | none => do
    Filling.putByte typeV4
    Filling.put (Block.zero 4).bytes

/-- Writes the SOCKS5 form. -/
def writeV5 (a : Address) : Filling Unit := do
  if a.name = "" then writeLiteral a.ip? else writeName (Text.toBytes a.name)
  Filling.putWord a.port

/-- Writes the form of a version. -/
def write (version : Version) (a : Address) : Filling Unit :=
  match version with
  | .v4 => a.writeV4
  | .v5 => a.writeV5

theorem on_writeV4 (a : Address) (buffer : Bytes) :
    a.writeV4.on buffer = (.ok (), buffer ++ a.encodeV4) := by
  simp only [writeV4, encodeV4, Filling.on_bind, Filling.on_putWord]
  split <;> simp

/-- A name that is too long is refused before anything is written. -/
theorem on_writeName (name buffer : Bytes) :
    (writeName name).on buffer =
      if name.length ≤ maxDomainLength then
        (.ok (), buffer ++ typeDomain :: UInt8.ofNat name.length :: name)
      else (.error (.protocol (.domainTooLong name.length)), buffer) := by
  by_cases hlong : maxDomainLength < name.length
  · simp [writeName, hlong, Nat.not_le.mpr hlong]
  · simp [writeName, hlong, Nat.not_lt.mp hlong, Filling.on_bind]

theorem on_writeLiteral (ip? : Option IpAddress) (port : UInt16) (buffer : Bytes) :
    (writeLiteral ip? >>= fun _ => Filling.putWord port).on buffer =
      (.ok (), buffer ++ encodeLiteral ip? port) := by
  rcases ip? with _ | ⟨octets⟩ | ⟨octets⟩ <;>
    simp [writeLiteral, encodeLiteral, Filling.on_bind]

/-- What is written is the form of the address, at the end of the buffer; where it has no form,
nothing is written. -/
theorem on_write (version : Version) (a : Address) (buffer : Bytes) :
    (a.write version).on buffer =
      match a.encode version with
      | .ok bytes => (.ok (), buffer ++ bytes)
      | .error f => (.error f, buffer) := by
  cases version with
  | v4 => exact on_writeV4 a buffer
  | v5 =>
    unfold write writeV5 encode encodeV5
    by_cases hname : a.name = ""
    · simp only [hname, if_true]
      exact on_writeLiteral a.ip? a.port buffer
    · simp only [hname, if_false, Filling.on_bind, on_writeName]
      by_cases hlong : (Text.toBytes a.name).length ≤ maxDomainLength
      · simp [hlong]
      · simp [hlong]

end Address

end Socks
