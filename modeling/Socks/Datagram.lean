import Socks.Address.Codec

/-!
# Datagrams of an association

A datagram between client and server carries a header: two zero bytes, a fragment number and the
address of the far side. A header that is cut short makes the datagram malformed, whatever was
being read.
-/

namespace Socks

/-- The most bytes of a datagram. -/
def maxDatagramLength : Nat := 65535

/-- A datagram with its header taken apart. -/
structure Datagram where
  fragment : UInt8
  address : Address
  payload : Bytes
deriving DecidableEq

namespace Datagram

/-- A datagram that is no fragment. -/
def whole (address : Address) (payload : Bytes) : Datagram := ⟨0, address, payload⟩

/-- Whether the datagram is a fragment. -/
def isFragment (d : Datagram) : Bool := d.fragment != 0

/-- The end of a datagram inside its address is a fault of the datagram. -/
def cutShort : Failure → Failure
  | .transport e =>
    if e.kind = .unexpectedEof then .protocol .shortDatagramAddress else .transport e
  | f => f

/-- Takes a datagram apart. -/
def parse : Bytes → Except Failure Datagram
  | high :: low :: fragment :: rest =>
    let reserved := (Block.mk [high, low] rfl).word
    if reserved ≠ 0 then .error (.protocol (.reservedWord reserved))
    else
      let o := (Address.read .v5).eval rest
      match o.result with
      | .ok address => .ok ⟨fragment, address, o.rest⟩
      | .error f => .error (cutShort f)
  | _ => .error (.protocol .shortDatagramHeader)

/-- Puts a datagram together. -/
def encode (d : Datagram) : Except Failure Bytes := do
  return 0 :: 0 :: d.fragment :: (← d.address.encodeV5) ++ d.payload

end Datagram

end Socks
