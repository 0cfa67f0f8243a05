import Socks.IpAddress

/-!
# Reading address literals

The texts that write an address: four decimal octets without leading zeros, or up to eight groups
of one to four hexadecimal digits, one `::` standing for the groups left out and the last two
groups possibly in dotted decimal.
-/

namespace Socks.IpAddress

/-- A decimal octet: at most three digits, no leading zero. -/
def scanOctet (text : List Char) : Option (UInt8 × List Char) :=
  match Numeral.span 10 text with
  | ([], _) => none
  | (digits, rest) =>
    let n := Numeral.value 10 digits
    if digits.length ≤ 3 ∧ n < 256 ∧ (digits.length = 1 ∨ digits.head? ≠ some 0) then
      some (UInt8.ofNat n, rest)
    else none

/-- A given character. -/
def scanChar (c : Char) : List Char → Option (List Char)
  | d :: rest => if d = c then some rest else none
  | [] => none

/-- Four octets with dots between. -/
def scanDotted (text : List Char) : Option (Block 4 × List Char) := do
  let (a, text) ← scanOctet text
  let text ← scanChar '.' text
  let (b, text) ← scanOctet text
  let text ← scanChar '.' text
  let (c, text) ← scanOctet text
  let text ← scanChar '.' text
  let (d, text) ← scanOctet text
  return (quad a b c d, text)

/-- A group of one to four hexadecimal digits. -/
def scanGroup (text : List Char) : Option (Nat × List Char) :=
  match Numeral.span 16 text with
  | ([], _) => none
  | (digits, rest) => if digits.length ≤ 4 then some (Numeral.value 16 digits, rest) else none

/-- A run of groups, and whether its last two are in dotted decimal. -/
structure Run where
  groups : List Nat
  dotted : Bool

/-- At most `room` groups with colons between; `first` when no colon comes before the next. Dotted
decimal takes the room of two groups and ends the run. -/
def scanRun (first : Bool) : Nat → List Char → Run × List Char
  | 0, text => (⟨[], false⟩, text)
  | room + 1, text =>
    let here := if first then some text else scanChar ':' text
    match if 0 < room then here.bind scanDotted else none with
    | some (octets, rest) => (⟨IpAddress.groups octets.bytes, true⟩, rest)
    | none =>
      match here.bind scanGroup with
      | some (g, rest) =>
        let (run, rest) := scanRun false room rest
        (⟨g :: run.groups, run.dotted⟩, rest)
      | none => (⟨[], false⟩, text)

/-- The address of eight groups. -/
def ofGroups (gs : List Nat) : Option IpAddress :=
  let bytes := gs.flatMap fun g => [UInt8.ofNat (g / 256), UInt8.ofNat (g % 256)]
  if h : bytes.length = 16 then some (v6 ⟨bytes, h⟩) else none

/-- Eight groups, or fewer around one `::`; dotted decimal may not come before it. -/
def scanColons (text : List Char) : Option (IpAddress × List Char) := do
  let (front, text) := scanRun true 8 text
  if front.groups.length = 8 then
    return (← ofGroups front.groups, text)
  else if front.dotted then none
  else
    let text ← scanChar ':' text
    let text ← scanChar ':' text
    let (back, text) := scanRun true (7 - front.groups.length) text
    let missing := 8 - front.groups.length - back.groups.length
    return (← ofGroups (front.groups ++ List.replicate missing 0 ++ back.groups), text)

/-- The address that a text writes. -/
def parse? (text : String) : Option IpAddress :=
  match scanDotted text.toList, scanColons text.toList with
  | some (octets, []), _ => some (v4 octets)
  | _, some (ip, []) => some ip
  | _, _ => none

end Socks.IpAddress
