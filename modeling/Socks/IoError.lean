/-!
# Input and output errors

What a read, a write, a look-up or the opening of a socket fails with: a kind from a fixed list,
and the text that describes the failure.
-/

namespace Socks

namespace IoError

/-- The kinds of input and output errors. -/
inductive Kind where
  | notFound | permissionDenied | connectionRefused | connectionReset | hostUnreachable
  | networkUnreachable | connectionAborted | notConnected | addrInUse | addrNotAvailable
  | networkDown | brokenPipe | alreadyExists | wouldBlock | notADirectory | isADirectory
  | directoryNotEmpty | readOnlyFilesystem | staleNetworkFileHandle | invalidInput | invalidData
  | timedOut | writeZero | storageFull | notSeekable | quotaExceeded | fileTooLarge
  | resourceBusy | executableFileBusy | deadlock | crossesDevices | tooManyLinks
  | invalidFilename | argumentListTooLong | interrupted | unsupported | unexpectedEof
  | outOfMemory | inProgress | other
deriving DecidableEq

namespace Kind

/-- The name of a kind. -/
def name : Kind → String
  | notFound => "NotFound"
  | permissionDenied => "PermissionDenied"
  | connectionRefused => "ConnectionRefused"
  | connectionReset => "ConnectionReset"
  | hostUnreachable => "HostUnreachable"
  | networkUnreachable => "NetworkUnreachable"
  | connectionAborted => "ConnectionAborted"
  | notConnected => "NotConnected"
  | addrInUse => "AddrInUse"
  | addrNotAvailable => "AddrNotAvailable"
  | networkDown => "NetworkDown"
  | brokenPipe => "BrokenPipe"
  | alreadyExists => "AlreadyExists"
  | wouldBlock => "WouldBlock"
  | notADirectory => "NotADirectory"
  | isADirectory => "IsADirectory"
  | directoryNotEmpty => "DirectoryNotEmpty"
  | readOnlyFilesystem => "ReadOnlyFilesystem"
  | staleNetworkFileHandle => "StaleNetworkFileHandle"
  | invalidInput => "InvalidInput"
  | invalidData => "InvalidData"
  | timedOut => "TimedOut"
  | writeZero => "WriteZero"
  | storageFull => "StorageFull"
  | notSeekable => "NotSeekable"
  | quotaExceeded => "QuotaExceeded"
  | fileTooLarge => "FileTooLarge"
  | resourceBusy => "ResourceBusy"
  | executableFileBusy => "ExecutableFileBusy"
  | deadlock => "Deadlock"
  | crossesDevices => "CrossesDevices"
  | tooManyLinks => "TooManyLinks"
  | invalidFilename => "InvalidFilename"
  | argumentListTooLong => "ArgumentListTooLong"
  | interrupted => "Interrupted"
  | unsupported => "Unsupported"
  | unexpectedEof => "UnexpectedEof"
  | outOfMemory => "OutOfMemory"
  | inProgress => "InProgress"
  | other => "Other"

/-- Every kind. -/
def all : List Kind :=
  [.notFound, .permissionDenied, .connectionRefused, .connectionReset, .hostUnreachable,
   .networkUnreachable, .connectionAborted, .notConnected, .addrInUse, .addrNotAvailable,
   .networkDown, .brokenPipe, .alreadyExists, .wouldBlock, .notADirectory, .isADirectory,
   .directoryNotEmpty, .readOnlyFilesystem, .staleNetworkFileHandle, .invalidInput,
   .invalidData, .timedOut, .writeZero, .storageFull, .notSeekable, .quotaExceeded,
   .fileTooLarge, .resourceBusy, .executableFileBusy, .deadlock, .crossesDevices, .tooManyLinks,
   .invalidFilename, .argumentListTooLong, .interrupted, .unsupported, .unexpectedEof,
   .outOfMemory, .inProgress, .other]

/-- The kind of a given name. -/
def ofName? (name : String) : Option Kind := all.find? fun k => k.name == name

/-- The kind of an error that the operating system numbers. -/
def ofNumber (number : Nat) : Kind :=
  match number with
  | 1 | 13 => permissionDenied
  | 2 => notFound
  | 4 => interrupted
  | 11 => wouldBlock
  | 12 => outOfMemory
  | 21 => isADirectory
  | 22 => invalidInput
  | 32 => brokenPipe
  | 98 => addrInUse
  | 99 => addrNotAvailable
  | 100 => networkDown
  | 101 => networkUnreachable
  | 103 => connectionAborted
  | 104 => connectionReset
  | 107 => notConnected
  | 110 => timedOut
  | 111 => connectionRefused
  | 113 => hostUnreachable
  | _ => other

end Kind

end IoError

/-- An input or output error. -/
structure IoError where
  kind : IoError.Kind
  text : String
deriving DecidableEq

namespace IoError

/-- A number was cut short by the end of the input. -/
def endOfNumber : IoError := ⟨.unexpectedEof, "unexpected end of file"⟩

/-- A block of bytes was cut short by the end of the input. -/
def endOfBlock : IoError := ⟨.unexpectedEof, "early eof"⟩

/-- An error that the operating system numbers and describes. -/
def ofSystem (number : Nat) (description : String) : IoError :=
  ⟨.ofNumber number, description ++ " (os error " ++ Nat.repr number ++ ")"⟩

/-- The other side reset the connection. -/
def connectionReset : IoError := ⟨.connectionReset, "Connection reset by peer (os error 104)"⟩

/-- Nobody listens at the destination. -/
def connectionRefused : IoError := ⟨.connectionRefused, "Connection refused (os error 111)"⟩

/-- No route leads to the destination. -/
def networkUnreachable : IoError := ⟨.networkUnreachable, "Network is unreachable (os error 101)"⟩

/-- The address belongs to no interface of this host. -/
def addrNotAvailable : IoError :=
  ⟨.addrNotAvailable, "Cannot assign requested address (os error 99)"⟩

/-- Another socket listens at the address. -/
def addrInUse : IoError := ⟨.addrInUse, "Address already in use (os error 98)"⟩

end IoError

end Socks
