import Socks.Address.Codec

/-!
# Reading requests

SOCKS4: command, port, address, user name up to a zero byte, and a host name up to a zero byte
when the address announces one. SOCKS5: version, command, a zero byte, address. The command byte is
judged last, when the whole request has been read.
-/

namespace Socks.Request

/-- The most bytes of a SOCKS4 text before its zero byte. -/
def maxFieldLength : Nat := 255

/-- Reads bytes up to a zero byte, which is left out; `room` more bytes are taken. -/
def readUntilZero (field : String) : Nat → Dialogue Bytes
  | 0 => do
    let b ← Dialogue.byte
    if b = 0 then return [] else Dialogue.reject (.fieldTooLong field)
  | room + 1 => do
    let b ← Dialogue.byte
    if b = 0 then return [] else return b :: (← readUntilZero field room)

/-- Reads a text that ends in a zero byte. -/
def readText (field : String) : Dialogue String := do
  match Text.ofBytes? (← readUntilZero field maxFieldLength) with
  | some text => return text
  | none => Dialogue.reject (.malformedField field)

/-- Reads the host name that an address announces, and puts it in the place of the address. -/
def readAnnounced (a : Address) : Dialogue Address := do
  if a.announcesName then
    let host ← readText "hostname"
    if host = "" then Dialogue.reject .emptyHostname else return .named host a.port
  else return a

/-- The command of a byte, or the failure to know it. -/
def judge (version : Version) (b : UInt8) : Dialogue Command :=
  match Command.ofByte? version b with
  | some c => pure c
  | none => Dialogue.fail (.commandNotSupported b)

/-- Reads a SOCKS4 request after its version byte. -/
def readV4 : Dialogue Request := do
  let code ← Dialogue.byte
  let address ← Address.read .v4
  let user ← readText "user-id"
  let destination ← readAnnounced address
  let command ← judge .v4 code
  let identity := if user = "" then .anonymous else .user .noAuth user
  return ⟨.v4, command, destination, identity, none⟩

/-- Reads the three bytes that open a SOCKS5 request and gives the command byte. -/
def readHeader : Dialogue UInt8 := do
  let header ← Dialogue.block 3
  match header.bytes with
  | [version, code, reserved] =>
    if version ≠ 5 then Dialogue.fail (.unsupportedVersion version)
    else if reserved ≠ 0 then Dialogue.reject (.reservedByte reserved)
    else return code
  | _ => Dialogue.fail (.transport .endOfBlock)

/-- Reads a SOCKS5 request. -/
def readV5 : Dialogue Request := do
  let code ← readHeader
  let destination ← Address.read .v5
  let command ← judge .v5 code
  return ⟨.v5, command, destination, .anonymous, none⟩

/-- Reads a request of a version. -/
def read : Version → Dialogue Request
  | .v4 => readV4
  | .v5 => readV5

end Socks.Request
