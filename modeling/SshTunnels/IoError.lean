/-!
# Input and output errors

An operation on a file or a connection fails with a code of the operating system, or with a kind of
failure alone, or with a kind and a text of its own.
-/

namespace SshTunnels

/-- The kinds of failure. -/
inductive IoKind where
  | notFound
  | permissionDenied
  | connectionRefused
  | connectionReset
  | hostUnreachable
  | networkUnreachable
  | connectionAborted
  | notConnected
  | addrInUse
  | addrNotAvailable
  | brokenPipe
  | alreadyExists
  | wouldBlock
  | invalidInput
  | invalidData
  | timedOut
  | writeZero
  | interrupted
  | unsupported
  | unexpectedEof
  | outOfMemory
  | other
  deriving DecidableEq, Repr

/-- The failure in words. -/
def IoKind.text : IoKind → String
  | .notFound => "entity not found"
  | .permissionDenied => "permission denied"
  | .connectionRefused => "connection refused"
  | .connectionReset => "connection reset"
  | .hostUnreachable => "host unreachable"
  | .networkUnreachable => "network unreachable"
  | .connectionAborted => "connection aborted"
  | .notConnected => "not connected"
  | .addrInUse => "address in use"
  | .addrNotAvailable => "address not available"
  | .brokenPipe => "broken pipe"
  | .alreadyExists => "entity already exists"
  | .wouldBlock => "operation would block"
  | .invalidInput => "invalid input parameter"
  | .invalidData => "invalid data"
  | .timedOut => "timed out"
  | .writeZero => "write zero"
  | .interrupted => "operation interrupted"
  | .unsupported => "unsupported"
  | .unexpectedEof => "unexpected end of file"
  | .outOfMemory => "out of memory"
  | .other => "other error"

/-- The name of a kind. -/
def IoKind.name : IoKind → String
  | .notFound => "NotFound"
  | .permissionDenied => "PermissionDenied"
  | .connectionRefused => "ConnectionRefused"
  | .connectionReset => "ConnectionReset"
  | .hostUnreachable => "HostUnreachable"
  | .networkUnreachable => "NetworkUnreachable"
  | .connectionAborted => "ConnectionAborted"
  | .notConnected => "NotConnected"
  | .addrInUse => "AddrInUse"
  | .addrNotAvailable => "AddrNotAvailable"
  | .brokenPipe => "BrokenPipe"
  | .alreadyExists => "AlreadyExists"
  | .wouldBlock => "WouldBlock"
  | .invalidInput => "InvalidInput"
  | .invalidData => "InvalidData"
  | .timedOut => "TimedOut"
  | .writeZero => "WriteZero"
  | .interrupted => "Interrupted"
  | .unsupported => "Unsupported"
  | .unexpectedEof => "UnexpectedEof"
  | .outOfMemory => "OutOfMemory"
  | .other => "Other"

/-- All kinds. -/
def IoKind.all : List IoKind :=
  [.notFound, .permissionDenied, .connectionRefused, .connectionReset, .hostUnreachable,
    .networkUnreachable, .connectionAborted, .notConnected, .addrInUse, .addrNotAvailable,
    .brokenPipe, .alreadyExists, .wouldBlock, .invalidInput, .invalidData, .timedOut, .writeZero,
    .interrupted, .unsupported, .unexpectedEof, .outOfMemory, .other]

/-- The kind of a name. -/
def IoKind.ofName? (name : String) : Option IoKind :=
  IoKind.all.find? (·.name == name)

/-- The peer has gone: the stream is over, which is no fault of ours. -/
def IoKind.isGracefulClose : IoKind → Bool
  | .brokenPipe | .notConnected | .connectionReset | .connectionAborted => true
  | _ => false

/-- The codes of the operating system that the program meets. -/
inductive OsCode where
  | noSuchFile
  | permissionDenied
  | fileExists
  | notDirectory
  | isDirectory
  | addressInUse
  | cannotAssignAddress
  | networkUnreachable
  | connectionReset
  | connectionRefused
  deriving DecidableEq, Repr

namespace OsCode

/-- The code's number. -/
def number : OsCode → Nat
  | .noSuchFile => 2
  | .permissionDenied => 13
  | .fileExists => 17
  | .notDirectory => 20
  | .isDirectory => 21
  | .addressInUse => 98
  | .cannotAssignAddress => 99
  | .networkUnreachable => 101
  | .connectionReset => 104
  | .connectionRefused => 111

/-- The code in words. -/
def text : OsCode → String
  | .noSuchFile => "No such file or directory"
  | .permissionDenied => "Permission denied"
  | .fileExists => "File exists"
  | .notDirectory => "Not a directory"
  | .isDirectory => "Is a directory"
  | .addressInUse => "Address already in use"
  | .cannotAssignAddress => "Cannot assign requested address"
  | .networkUnreachable => "Network is unreachable"
  | .connectionReset => "Connection reset by peer"
  | .connectionRefused => "Connection refused"

/-- The kind of failure. -/
def kind : OsCode → IoKind
  | .noSuchFile => .notFound
  | .permissionDenied => .permissionDenied
  | .fileExists => .alreadyExists
  | .notDirectory => .other
  | .isDirectory => .other
  | .addressInUse => .addrInUse
  | .cannotAssignAddress => .addrNotAvailable
  | .networkUnreachable => .networkUnreachable
  | .connectionReset => .connectionReset
  | .connectionRefused => .connectionRefused

end OsCode

/-- A failed operation. -/
inductive IoError where
  | system (code : OsCode)
  | plain (kind : IoKind)
  | custom (kind : IoKind) (text : String)
  deriving DecidableEq, Repr

namespace IoError

/-- The kind of failure. -/
def kind : IoError → IoKind
  | .system code => code.kind
  | .plain kind => kind
  | .custom kind _ => kind

/-- The failure in words. -/
def message : IoError → String
  | .system code => s!"{code.text} (os error {code.number})"
  | .plain kind => kind.text
  | .custom _ text => text

end IoError
end SshTunnels
