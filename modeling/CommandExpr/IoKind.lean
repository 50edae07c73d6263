/-!
# Kinds of input and output failure

A coarse classification of what went wrong with a file or a descriptor, with the words shown for it.
-/

namespace CommandExpr

/-- What went wrong with a file or a descriptor, coarsely. -/
inductive IoKind where
  | uncategorized
  | permissionDenied
  | notFound
  | interrupted
  | inputOutputError
  | argumentListTooLong
  | wouldBlock
  | outOfMemory
  | resourceBusy
  | alreadyExists
  | crossesDevices
  | notADirectory
  | isADirectory
  | invalidInput
  | tooManyOpenFiles
  | executableFileBusy
  | fileTooLarge
  | storageFull
  | notSeekable
  | readOnlyFilesystem
  | tooManyLinks
  | brokenPipe
  | deadlock
  | invalidFilename
  | unsupported
  | directoryNotEmpty
  | filesystemLoop
  | addrInUse
  | addrNotAvailable
  | networkDown
  | networkUnreachable
  | connectionAborted
  | connectionReset
  | notConnected
  | timedOut
  | connectionRefused
  | hostUnreachable
  | inProgress
  | staleNetworkFileHandle
  | quotaExceeded
  | invalidData
  | writeZero
  | unexpectedEof
  | other
  deriving DecidableEq

namespace IoKind

/-- The words shown for a kind. -/
def text : IoKind → String
  | .uncategorized => "uncategorized error"
  | .permissionDenied => "permission denied"
  | .notFound => "entity not found"
  | .interrupted => "operation interrupted"
  | .inputOutputError => "input/output error"
  | .argumentListTooLong => "argument list too long"
  | .wouldBlock => "operation would block"
  | .outOfMemory => "out of memory"
  | .resourceBusy => "resource busy"
  | .alreadyExists => "entity already exists"
  | .crossesDevices => "cross-device link or rename"
  | .notADirectory => "not a directory"
  | .isADirectory => "is a directory"
  | .invalidInput => "invalid input parameter"
  | .tooManyOpenFiles => "too many open files"
  | .executableFileBusy => "executable file busy"
  | .fileTooLarge => "file too large"
  | .storageFull => "no storage space"
  | .notSeekable => "seek on unseekable file"
  | .readOnlyFilesystem => "read-only filesystem or storage medium"
  | .tooManyLinks => "too many links"
  | .brokenPipe => "broken pipe"
  | .deadlock => "deadlock"
  | .invalidFilename => "invalid filename"
  | .unsupported => "unsupported"
  | .directoryNotEmpty => "directory not empty"
  | .filesystemLoop => "filesystem loop or indirection limit (e.g. symlink loop)"
  | .addrInUse => "address in use"
  | .addrNotAvailable => "address not available"
  | .networkDown => "network down"
  | .networkUnreachable => "network unreachable"
  | .connectionAborted => "connection aborted"
  | .connectionReset => "connection reset"
  | .notConnected => "not connected"
  | .timedOut => "timed out"
  | .connectionRefused => "connection refused"
  | .hostUnreachable => "host unreachable"
  | .inProgress => "in progress"
  | .staleNetworkFileHandle => "stale network file handle"
  | .quotaExceeded => "quota exceeded"
  | .invalidData => "invalid data"
  | .writeZero => "write zero"
  | .unexpectedEof => "unexpected end of file"
  | .other => "other error"

/-- The name by which a kind is known outside. -/
def name : IoKind → String
  | .uncategorized => "Uncategorized"
  | .permissionDenied => "PermissionDenied"
  | .notFound => "NotFound"
  | .interrupted => "Interrupted"
  | .inputOutputError => "InputOutputError"
  | .argumentListTooLong => "ArgumentListTooLong"
  | .wouldBlock => "WouldBlock"
  | .outOfMemory => "OutOfMemory"
  | .resourceBusy => "ResourceBusy"
  | .alreadyExists => "AlreadyExists"
  | .crossesDevices => "CrossesDevices"
  | .notADirectory => "NotADirectory"
  | .isADirectory => "IsADirectory"
  | .invalidInput => "InvalidInput"
  | .tooManyOpenFiles => "TooManyOpenFiles"
  | .executableFileBusy => "ExecutableFileBusy"
  | .fileTooLarge => "FileTooLarge"
  | .storageFull => "StorageFull"
  | .notSeekable => "NotSeekable"
  | .readOnlyFilesystem => "ReadOnlyFilesystem"
  | .tooManyLinks => "TooManyLinks"
  | .brokenPipe => "BrokenPipe"
  | .deadlock => "Deadlock"
  | .invalidFilename => "InvalidFilename"
  | .unsupported => "Unsupported"
  | .directoryNotEmpty => "DirectoryNotEmpty"
  | .filesystemLoop => "FilesystemLoop"
  | .addrInUse => "AddrInUse"
  | .addrNotAvailable => "AddrNotAvailable"
  | .networkDown => "NetworkDown"
  | .networkUnreachable => "NetworkUnreachable"
  | .connectionAborted => "ConnectionAborted"
  | .connectionReset => "ConnectionReset"
  | .notConnected => "NotConnected"
  | .timedOut => "TimedOut"
  | .connectionRefused => "ConnectionRefused"
  | .hostUnreachable => "HostUnreachable"
  | .inProgress => "InProgress"
  | .staleNetworkFileHandle => "StaleNetworkFileHandle"
  | .quotaExceeded => "QuotaExceeded"
  | .invalidData => "InvalidData"
  | .writeZero => "WriteZero"
  | .unexpectedEof => "UnexpectedEof"
  | .other => "Other"

/-- Every kind. -/
def all : List IoKind := [
  .uncategorized, .permissionDenied, .notFound, .interrupted,
  .inputOutputError, .argumentListTooLong, .wouldBlock, .outOfMemory,
  .resourceBusy, .alreadyExists, .crossesDevices, .notADirectory,
  .isADirectory, .invalidInput, .tooManyOpenFiles, .executableFileBusy,
  .fileTooLarge, .storageFull, .notSeekable, .readOnlyFilesystem,
  .tooManyLinks, .brokenPipe, .deadlock, .invalidFilename,
  .unsupported, .directoryNotEmpty, .filesystemLoop, .addrInUse,
  .addrNotAvailable, .networkDown, .networkUnreachable, .connectionAborted,
  .connectionReset, .notConnected, .timedOut, .connectionRefused,
  .hostUnreachable, .inProgress, .staleNetworkFileHandle, .quotaExceeded,
  .invalidData, .writeZero, .unexpectedEof, .other]

theorem mem_all (k : IoKind) : k ∈ all := by cases k <;> decide

/-- The kind with the given name. -/
def ofName? (name : String) : Option IoKind := all.find? (·.name = name)

end IoKind

end CommandExpr
