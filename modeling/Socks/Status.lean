import Socks.IoError

/-!
# Reply statuses

The outcome of a command as a reply reports it, its code, and the status that stands for a failed
outbound connection.
-/

namespace Socks

/-- The outcome that a reply reports. -/
inductive Status where
  | success | serverFailure | ruleFailure | networkUnreachable | hostUnreachable
  | connectionRefused | ttlExpired | commandNotSupported | addressTypeNotSupported
deriving DecidableEq

namespace Status

/-- The name of a status. -/
def name : Status → String
  | success => "Success"
  | serverFailure => "ServerFailure"
  | ruleFailure => "RuleFailure"
  | networkUnreachable => "NetworkUnreachable"
  | hostUnreachable => "HostUnreachable"
  | connectionRefused => "ConnectionRefused"
  | ttlExpired => "TtlExpired"
  | commandNotSupported => "CommandNotSupported"
  | addressTypeNotSupported => "AddrTypeNotSupported"

/-- The code of a status in a SOCKS5 reply. -/
def code : Status → UInt8
  | success => 0
  | serverFailure => 1
  | ruleFailure => 2
  | networkUnreachable => 3
  | hostUnreachable => 4
  | connectionRefused => 5
  | ttlExpired => 6
  | commandNotSupported => 7
  | addressTypeNotSupported => 8

/-- Every status, in the order of the codes. -/
def all : List Status :=
  [success, serverFailure, ruleFailure, networkUnreachable, hostUnreachable, connectionRefused,
   ttlExpired, commandNotSupported, addressTypeNotSupported]

/-- The status with a given code. -/
def ofCode? (code : UInt8) : Option Status := all.find? fun s => s.code == code

theorem ofCode?_code (s : Status) : ofCode? s.code = some s := by cases s <;> rfl

/-- A SOCKS4 reply only tells granted from rejected. -/
def grantCode : Status → UInt8
  | success => 0x5A
  | _ => 0x5B

/-- The status that reports a failed outbound connection. -/
def ofDialError (e : IoError) : Status :=
  match e.kind with
  | .connectionRefused => connectionRefused
  | .networkUnreachable => networkUnreachable
  | .timedOut => ttlExpired
  | _ => hostUnreachable

end Status

end Socks
