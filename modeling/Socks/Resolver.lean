import Socks.IoError
import Socks.IpAddress.Literal

/-!
# Resolving names without a network

A name that writes an address is that address. All other names would have to be asked for.
-/

namespace Socks.Resolver

/-- The error of a name that cannot be asked for. -/
def zeroByte : IoError := ⟨.invalidInput, "file name contained an unexpected NUL byte"⟩

/-- The error of a name that nobody knows. -/
def unknown (host : String) : IoError := ⟨.notFound, "no addresses found for " ++ host⟩

/-- The address of a name, nobody being asked. -/
def resolve (host : String) : Except IoError IpAddress :=
  match IpAddress.parse? host with
  | some ip => .ok ip
  | none => .error (if '\x00' ∈ host.toList then zeroByte else unknown host)

end Socks.Resolver
