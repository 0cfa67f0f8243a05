import Socks.Clock
import Socks.Request
import Socks.Status

/-!
# Failures

Why serving a control connection ends without success. Each failure is a cause; its wording, the
input or output error inside it and the reply status it is owed are functions of the cause.
-/

namespace Socks

/-- What is wrong with a message. -/
inductive ProtocolFault where
  | emptyDomain
  | malformedDomain
  | domainTooLong (length : Nat)
  | fieldTooLong (field : String)
  | malformedField (field : String)
  | emptyHostname
  | reservedByte (value : UInt8)
  | shortDatagramHeader
  | shortDatagramAddress
  | reservedWord (value : UInt16)
  | unknownReplyCode (code : UInt8)
  | noDestination
  | other (text : String)
deriving DecidableEq

/-- A word as four hexadecimal digits. -/
def hexWord (w : UInt16) : String :=
  String.ofList ((Nat.toDigits 16 (w.toNat + 0x10000)).drop 1)

namespace ProtocolFault

/-- The wording of a fault. -/
def message : ProtocolFault → String
  | emptyDomain => "empty domain name"
  | malformedDomain => "invalid UTF-8 in domain name"
  | domainTooLong length => "domain name too long: " ++ Nat.repr length ++ " bytes"
  | fieldTooLong field => field ++ " too long"
  | malformedField field => "invalid UTF-8 in " ++ field
  | emptyHostname => "empty SOCKS4a hostname"
  | reservedByte value => "reserved byte must be zero, got " ++ Nat.repr value.toNat
  | shortDatagramHeader => "UDP datagram too short for header"
  | shortDatagramAddress => "UDP datagram too short for address"
  | reservedWord value => "invalid UDP reserved field: 0x" ++ hexWord value
  | unknownReplyCode code => "unknown reply code: " ++ Nat.repr code.toNat
  | noDestination => "destination has no address"
  | other text => text

end ProtocolFault

/-- Why a client is not let in. -/
inductive AuthFault where
  | noMethods
  | noAcceptableMethod (offered : Bytes)
  | unknownExchange (version : UInt8)
  | malformedCredentials
  | emptyUsername
  | wrongCredentials (username : String)
  | cannotAuthenticate (version : Version)
  | other (text : String)
deriving DecidableEq

namespace AuthFault

/-- The wording of a fault. -/
def message : AuthFault → String
  | noMethods => "no authentication methods provided"
  | noAcceptableMethod offered =>
    "no acceptable authentication method, client offered [" ++
      ", ".intercalate (offered.map fun b => Nat.repr b.toNat) ++ "]"
  | unknownExchange version => "invalid auth version: " ++ Nat.repr version.toNat
  | malformedCredentials => "invalid UTF-8 in credentials"
  | emptyUsername => "invalid username length: 0"
  | wrongCredentials username => "invalid credentials for user: " ++ username
  | cannotAuthenticate version => version.name ++ " clients cannot authenticate"
  | other text => text

end AuthFault

/-- What was not permitted. -/
inductive Denial where
  | request (request : Request)
  | peer (peer : Endpoint) (expected : IpAddress)
  | other (text : String)
deriving DecidableEq

namespace Denial

/-- What was denied, in words. -/
def message : Denial → String
  | .request r => r.toText
  | .peer caller expected => "BIND peer " ++ caller.toText ++ " is not " ++ expected.toText
  | .other text => text

end Denial

/-- Why a command could not be carried out. -/
inductive CommandFault where
  | noListener (error : IoError)
  | nobodyConnected (bound : Endpoint) (limit : UInt64)
  | noRelaySockets (error : IoError)
  | other (text : String)
deriving DecidableEq

namespace CommandFault

/-- The wording of a fault. -/
def message : CommandFault → String
  | noListener error => "failed to open BIND listener: " ++ error.text
  | nobodyConnected bound limit =>
    "no inbound connection on " ++ bound.toText ++ " within " ++ Clock.secondsText limit
  | noRelaySockets error => "failed to bind UDP relay: " ++ error.text
  | other text => text

end CommandFault

/-- Why serving a control connection failed. -/
inductive Failure where
  | transport (error : IoError)
  | unsupportedVersion (byte : UInt8)
  | protocol (fault : ProtocolFault)
  | addressTypeNotSupported (byte : UInt8)
  | commandNotSupported (byte : UInt8)
  | authentication (fault : AuthFault)
  | blocked (denial : Denial)
  | unresolved (host : String) (error : IoError)
  | unreachable (destination : String) (error : IoError)
  | command (fault : CommandFault)
deriving DecidableEq

namespace Failure

/-- The name of the kind of failure. -/
def kind : Failure → String
  | transport _ => "Transport"
  | unsupportedVersion _ => "UnsupportedVersion"
  | protocol _ => "Protocol"
  | addressTypeNotSupported _ => "AddrTypeNotSupported"
  | commandNotSupported _ => "CommandNotSupported"
  | authentication _ => "AuthenticationFailed"
  | blocked _ => "BlockedByRules"
  | unresolved _ _ => "Resolve"
  | unreachable _ _ => "Connect"
  | command _ => "CommandExecution"

/-- The wording of a failure. -/
def message : Failure → String
  | transport error => "transport error: " ++ error.text
  | unsupportedVersion byte => "unsupported SOCKS version: " ++ Nat.repr byte.toNat
  | protocol fault => "protocol error: " ++ fault.message
  | addressTypeNotSupported byte => "address type not supported: " ++ Nat.repr byte.toNat
  | commandNotSupported byte => "command not supported: " ++ Nat.repr byte.toNat
  | authentication fault => "authentication failed: " ++ fault.message
  | blocked denial => denial.message ++ ": blocked by rules"
  | unresolved host error => "failed to resolve destination " ++ host ++ ": " ++ error.text
  | unreachable destination error => "failed to connect to " ++ destination ++ ": " ++ error.text
  | command fault => "command execution failed: " ++ fault.message

/-- The input or output error behind a failure. -/
def ioError? : Failure → Option IoError
  | transport error => some error
  | unresolved _ error => some error
  | unreachable _ error => some error
  | _ => none

/-- The reply that a request which failed in this way is owed; only requests that were read but
are not understood get one. -/
def replyStatus? : Failure → Option Status
  | addressTypeNotSupported _ => some .addressTypeNotSupported
  | commandNotSupported _ => some .commandNotSupported
  | protocol _ => some .serverFailure
  | _ => none

end Failure

namespace Version

/-- The version that a byte opens, or the failure to know it. -/
def ofByte (b : UInt8) : Except Failure Version :=
  match ofByte? b with
  | some v => .ok v
  | none => .error (.unsupportedVersion b)

end Version

namespace Status

/-- The status with a given code, or the failure to know it. -/
def ofCode (code : UInt8) : Except Failure Status :=
  match ofCode? code with
  | some s => .ok s
  | none => .error (.protocol (.unknownReplyCode code))

end Status

end Socks
