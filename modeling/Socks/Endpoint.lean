import Socks.IpAddress.Literal

/-!
# Endpoints

An endpoint is an address and a port: one end of a connection, or a socket.
-/

namespace Socks

/-- An address with a port. -/
structure Endpoint where
  ip : IpAddress
  port : UInt16
deriving DecidableEq

namespace Endpoint

/-- Address and port, a colon between; an IPv6 address stands in brackets. -/
def toText (e : Endpoint) : String :=
  match e.ip with
  | .v4 _ => e.ip.toText ++ ":" ++ Numeral.text 10 e.port.toNat
  | .v6 _ => "[" ++ e.ip.toText ++ "]:" ++ Numeral.text 10 e.port.toNat

/-- A decimal port that fits in sixteen bits. -/
def port? (text : List Char) : Option UInt16 :=
  match Numeral.parse? 10 text with
  | some n => if n < 65536 then some (UInt16.ofNat n) else none
  | none => none

/-- The number of an IPv6 zone after a percent sign, if there is one; it is read and left out. -/
def skipZone (text : List Char) : Option (List Char) :=
  match text with
  | '%' :: rest =>
    match Numeral.span 10 rest with
    | ([], _) => none
    | (digits, rest) => if Numeral.value 10 digits < 4294967296 then some rest else none
  | _ => some text

/-- The endpoint that a text writes, as `toText` does; leading zeros in the port do not matter. -/
def parse? (text : String) : Option Endpoint :=
  match text.toList with
  | '[' :: rest => do
    let (ip, rest) ← IpAddress.scanColons rest
    let rest ← skipZone rest
    let rest ← IpAddress.scanChar ']' rest
    let rest ← IpAddress.scanChar ':' rest
    return ⟨ip, ← port? rest⟩
  | cs => do
    let (octets, rest) ← IpAddress.scanDotted cs
    let rest ← IpAddress.scanChar ':' rest
    return ⟨.v4 octets, ← port? rest⟩

end Endpoint

end Socks
