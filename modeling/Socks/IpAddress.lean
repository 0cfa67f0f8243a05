import Socks.Bytes
import Socks.Numeral

/-!
# Internet addresses

An address is four octets or sixteen. Its text is dotted decimal, or groups of hexadecimal digits
with the longest run of at least two zero groups written `::`, the first of them on a tie; only an
address that maps an IPv4 address ends in dotted decimal.
-/

namespace Socks

/-- An IPv4 or IPv6 address. -/
inductive IpAddress where
  | v4 (octets : Block 4)
  | v6 (octets : Block 16)
deriving DecidableEq

namespace IpAddress

/-- The octets of an address, in network order. -/
def octets : IpAddress → Bytes
  | v4 o => o.bytes
  | v6 o => o.bytes

/-- The address `0.0.0.0`. -/
def anyV4 : IpAddress := v4 (Block.zero 4)

/-- The address `::`. -/
def anyV6 : IpAddress := v6 (Block.zero 16)

/-- The address that stands for every local address of the same family. -/
def wildcard : IpAddress → IpAddress
  | v4 _ => anyV4
  | v6 _ => anyV6

/-- Whether an address names no host. -/
def isUnspecified (ip : IpAddress) : Bool := ip == ip.wildcard

/-- Whether sixteen octets map an IPv4 address. -/
def mapsV4 (octets : Block 16) : Bool := octets.bytes.take 12 == List.replicate 10 0 ++ [255, 255]

/-- Whether a socket at the first address takes what comes to the second: the same address, or all
addresses; all IPv6 addresses include all IPv4 ones. -/
def covers : IpAddress → IpAddress → Bool
  | v4 a, v4 b => a == Block.zero 4 || a == b
  | v4 _, v6 _ => false
  | v6 a, v4 _ => a == Block.zero 16
  | v6 a, v6 b => a == Block.zero 16 || a == b

/-- Four octets as a block. -/
def quad (a b c d : UInt8) : Block 4 := ⟨[a, b, c, d], rfl⟩

/-- An address of four octets. -/
def ofOctets (a b c d : UInt8) : IpAddress := v4 (quad a b c d)

/-- Octets taken in pairs, each pair a number with the high octet first. -/
def groups : Bytes → List Nat
  | high :: low :: rest => (high.toNat * 256 + low.toNat) :: groups rest
  | _ => []

/-- How many zeros stand at the front. -/
def leadingZeros : List Nat → Nat
  | 0 :: rest => leadingZeros rest + 1
  | _ => 0

/-- Start and length of the longest run of zeros, the first of several. -/
def longestZeros : List Nat → Nat × Nat
  | [] => (0, 0)
  | g :: rest =>
    let here := leadingZeros (g :: rest)
    let (start, length) := longestZeros rest
    if length ≤ here then (0, here) else (start + 1, length)

/-- Numbers written in a base and joined by a separator. -/
def joined (base : Nat) (separator : String) (ns : List Nat) : String :=
  separator.intercalate (ns.map (Numeral.text base))

/-- Four octets in dotted decimal. -/
def dotted (octets : Bytes) : String := joined 10 "." (octets.map UInt8.toNat)

/-- Eight groups in hexadecimal, a run of two or more zeros left out. -/
def colons (gs : List Nat) : String :=
  let (start, length) := longestZeros gs
  if 2 ≤ length then
    joined 16 ":" (gs.take start) ++ "::" ++ joined 16 ":" (gs.drop (start + length))
  else joined 16 ":" gs

/-- The text of an address. -/
def toText : IpAddress → String
  | v4 o => dotted o.bytes
  | v6 o =>
    if mapsV4 o then
      "::ffff:" ++ dotted (o.bytes.drop 12)
    else colons (groups o.bytes)

end IpAddress

end Socks
