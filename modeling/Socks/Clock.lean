/-!
# Time

The clock counts milliseconds from the start of a connection. A time limit is a whole number of
seconds.
-/

namespace Socks.Clock

/-- The moment at which a limit set at `now` has passed. -/
def deadline (now : Nat) (limit : UInt64) : Nat := now + limit.toNat * 1000

/-- The text of a whole number of seconds. -/
def secondsText (seconds : UInt64) : String :=
  if seconds = 0 then "0ns" else Nat.repr seconds.toNat ++ "s"

end Socks.Clock
