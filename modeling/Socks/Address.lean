import Socks.Endpoint

/-!
# Addresses of requests and replies

Where a request wants to go, or where a reply says a socket is: a host name or a literal address,
with a port.
-/

namespace Socks

/-- A destination or bound address. The empty name is no name; a name goes before a literal. -/
structure Address where
  name : String
  ip? : Option IpAddress
  port : UInt16
deriving DecidableEq

namespace Address

/-- A host name and a port. -/
def named (name : String) (port : UInt16) : Address := ⟨name, none, port⟩

/-- A literal address and a port. -/
def literal (ip : IpAddress) (port : UInt16) : Address := ⟨"", some ip, port⟩

/-- The address of a socket. -/
def ofEndpoint (e : Endpoint) : Address := literal e.ip e.port

/-- The address that stands for none. -/
def unspecified : Address := ⟨"", none, 0⟩

/-- The socket that a literal address names. -/
def endpoint? (a : Address) : Option Endpoint :=
  if a.name = "" then a.ip?.map fun ip => ⟨ip, a.port⟩ else none

/-- The literal address, unless it names no host. -/
def literalHost? (a : Address) : Option IpAddress :=
  (a.endpoint?.map Endpoint.ip).filter fun ip => !ip.isUnspecified

/-- Host and port, the host by name if there is one. -/
def hostText (a : Address) : String :=
  if a.name = "" then (Endpoint.mk (a.ip?.getD .anyV4) a.port).toText
  else a.name ++ ":" ++ Numeral.text 10 a.port.toNat

/-- Host and port; a host with both name and literal shows both. -/
def toText (a : Address) : String :=
  match a.ip? with
  | some ip =>
    if a.name = "" then a.hostText
    else a.name ++ " (" ++ ip.toText ++ "):" ++ Numeral.text 10 a.port.toNat
  | none => a.hostText

/-- Whether the literal is one of `0.0.0.1` to `0.0.0.255`, by which a SOCKS4 request announces
that a host name follows. -/
def announcesName (a : Address) : Bool :=
  match a.ip? with
  | some (.v4 o) => o.bytes.take 3 == [0, 0, 0] && o.bytes.drop 3 != [0]
  | _ => false

end Address

end Socks
