import CommandExpr.Bytes
import CommandExpr.IoKind
import CommandExpr.Power

/-!
# Operating system error codes

The codes of Linux from 0 to 133, each with its symbolic name, a short description, the kind of
failure it is counted as, and the system's own message. Two numbers in the range and all numbers
outside it name no error; they are represented by the code 0.

## Main definitions

* `Errno` — a code that names an error, or 0
* `Errno.ofCode` — the error with a given number
* `Errno.toBytes`, `Errno.ofBytes?` — a code as four bytes, least significant first
-/

namespace CommandExpr

/-- What is known about one error code. -/
structure ErrnoRow where
  /-- Symbolic name. -/
  name : String
  /-- Short description. -/
  desc : String
  /-- The kind of failure it is counted as. -/
  kind : IoKind
  /-- The system's own message. -/
  message : String

/-- What is known about the codes from 0 on, in order. -/
def errnoTable : Array ErrnoRow := #[
  ⟨"UnknownErrno", "Unknown errno", .uncategorized, "Success"⟩,
  ⟨"EPERM", "Operation not permitted", .permissionDenied, "Operation not permitted"⟩,
  ⟨"ENOENT", "No such file or directory", .notFound, "No such file or directory"⟩,
  ⟨"ESRCH", "No such process", .uncategorized, "No such process"⟩,
  ⟨"EINTR", "Interrupted system call", .interrupted, "Interrupted system call"⟩,
  ⟨"EIO", "I/O error", .inputOutputError, "Input/output error"⟩,
  ⟨"ENXIO", "No such device or address", .uncategorized, "No such device or address"⟩,
  ⟨"E2BIG", "Argument list too long", .argumentListTooLong, "Argument list too long"⟩,
  ⟨"ENOEXEC", "Exec format error", .uncategorized, "Exec format error"⟩,
  ⟨"EBADF", "Bad file number", .uncategorized, "Bad file descriptor"⟩,
  ⟨"ECHILD", "No child processes", .uncategorized, "No child processes"⟩,
  ⟨"EAGAIN", "Try again", .wouldBlock, "Resource temporarily unavailable"⟩,
  ⟨"ENOMEM", "Out of memory", .outOfMemory, "Cannot allocate memory"⟩,
  ⟨"EACCES", "Permission denied", .permissionDenied, "Permission denied"⟩,
  ⟨"EFAULT", "Bad address", .uncategorized, "Bad address"⟩,
  ⟨"ENOTBLK", "Block device required", .uncategorized, "Block device required"⟩,
  ⟨"EBUSY", "Device or resource busy", .resourceBusy, "Device or resource busy"⟩,
  ⟨"EEXIST", "File exists", .alreadyExists, "File exists"⟩,
  ⟨"EXDEV", "Cross-device link", .crossesDevices, "Invalid cross-device link"⟩,
  ⟨"ENODEV", "No such device", .uncategorized, "No such device"⟩,
  ⟨"ENOTDIR", "Not a directory", .notADirectory, "Not a directory"⟩,
  ⟨"EISDIR", "Is a directory", .isADirectory, "Is a directory"⟩,
  ⟨"EINVAL", "Invalid argument", .invalidInput, "Invalid argument"⟩,
  ⟨"ENFILE", "File table overflow", .tooManyOpenFiles, "Too many open files in system"⟩,
  ⟨"EMFILE", "Too many open files", .tooManyOpenFiles, "Too many open files"⟩,
  ⟨"ENOTTY", "Not a typewriter", .uncategorized, "Inappropriate ioctl for device"⟩,
  ⟨"ETXTBSY", "Text file busy", .executableFileBusy, "Text file busy"⟩,
  ⟨"EFBIG", "File too large", .fileTooLarge, "File too large"⟩,
  ⟨"ENOSPC", "No space left on device", .storageFull, "No space left on device"⟩,
  ⟨"ESPIPE", "Illegal seek", .notSeekable, "Illegal seek"⟩,
  ⟨"EROFS", "Read-only file system", .readOnlyFilesystem, "Read-only file system"⟩,
  ⟨"EMLINK", "Too many links", .tooManyLinks, "Too many links"⟩,
  ⟨"EPIPE", "Broken pipe", .brokenPipe, "Broken pipe"⟩,
  ⟨"EDOM", "Math argument out of domain of func", .uncategorized,
    "Numerical argument out of domain"⟩,
  ⟨"ERANGE", "Math result not representable", .uncategorized, "Numerical result out of range"⟩,
  ⟨"EDEADLK", "Resource deadlock would occur", .deadlock, "Resource deadlock avoided"⟩,
  ⟨"ENAMETOOLONG", "File name too long", .invalidFilename, "File name too long"⟩,
  ⟨"ENOLCK", "No record locks available", .uncategorized, "No locks available"⟩,
  ⟨"ENOSYS", "Function not implemented", .unsupported, "Function not implemented"⟩,
  ⟨"ENOTEMPTY", "Directory not empty", .directoryNotEmpty, "Directory not empty"⟩,
  ⟨"ELOOP", "Too many symbolic links encountered", .filesystemLoop,
    "Too many levels of symbolic links"⟩,
  ⟨"UnknownErrno", "Unknown errno", .uncategorized, "Unknown error 41"⟩,
  ⟨"ENOMSG", "No message of desired type", .uncategorized, "No message of desired type"⟩,
  ⟨"EIDRM", "Identifier removed", .uncategorized, "Identifier removed"⟩,
  ⟨"ECHRNG", "Channel number out of range", .uncategorized, "Channel number out of range"⟩,
  ⟨"EL2NSYNC", "Level 2 not synchronized", .uncategorized, "Level 2 not synchronized"⟩,
  ⟨"EL3HLT", "Level 3 halted", .uncategorized, "Level 3 halted"⟩,
  ⟨"EL3RST", "Level 3 reset", .uncategorized, "Level 3 reset"⟩,
  ⟨"ELNRNG", "Link number out of range", .uncategorized, "Link number out of range"⟩,
  ⟨"EUNATCH", "Protocol driver not attached", .uncategorized, "Protocol driver not attached"⟩,
  ⟨"ENOCSI", "No CSI structure available", .uncategorized, "No CSI structure available"⟩,
  ⟨"EL2HLT", "Level 2 halted", .uncategorized, "Level 2 halted"⟩,
  ⟨"EBADE", "Invalid exchange", .uncategorized, "Invalid exchange"⟩,
  ⟨"EBADR", "Invalid request descriptor", .uncategorized, "Invalid request descriptor"⟩,
  ⟨"EXFULL", "Exchange full", .uncategorized, "Exchange full"⟩,
  ⟨"ENOANO", "No anode", .uncategorized, "No anode"⟩,
  ⟨"EBADRQC", "Invalid request code", .uncategorized, "Invalid request code"⟩,
  ⟨"EBADSLT", "Invalid slot", .uncategorized, "Invalid slot"⟩,
  ⟨"UnknownErrno", "Unknown errno", .uncategorized, "Unknown error 58"⟩,
  ⟨"EBFONT", "Bad font file format", .uncategorized, "Bad font file format"⟩,
  ⟨"ENOSTR", "Device not a stream", .uncategorized, "Device not a stream"⟩,
  ⟨"ENODATA", "No data available", .uncategorized, "No data available"⟩,
  ⟨"ETIME", "Timer expired", .uncategorized, "Timer expired"⟩,
  ⟨"ENOSR", "Out of streams resources", .uncategorized, "Out of streams resources"⟩,
  ⟨"ENONET", "Machine is not on the network", .uncategorized, "Machine is not on the network"⟩,
  ⟨"ENOPKG", "Package not installed", .uncategorized, "Package not installed"⟩,
  ⟨"EREMOTE", "Object is remote", .uncategorized, "Object is remote"⟩,
  ⟨"ENOLINK", "Link has been severed", .uncategorized, "Link has been severed"⟩,
  ⟨"EADV", "Advertise error", .uncategorized, "Advertise error"⟩,
  ⟨"ESRMNT", "Srmount error", .uncategorized, "Srmount error"⟩,
  ⟨"ECOMM", "Communication error on send", .uncategorized, "Communication error on send"⟩,
  ⟨"EPROTO", "Protocol error", .uncategorized, "Protocol error"⟩,
  ⟨"EMULTIHOP", "Multihop attempted", .uncategorized, "Multihop attempted"⟩,
  ⟨"EDOTDOT", "RFS specific error", .uncategorized, "RFS specific error"⟩,
  ⟨"EBADMSG", "Not a data message", .uncategorized, "Bad message"⟩,
  ⟨"EOVERFLOW", "Value too large for defined data type", .uncategorized,
    "Value too large for defined data type"⟩,
  ⟨"ENOTUNIQ", "Name not unique on network", .uncategorized, "Name not unique on network"⟩,
  ⟨"EBADFD", "File descriptor in bad state", .uncategorized, "File descriptor in bad state"⟩,
  ⟨"EREMCHG", "Remote address changed", .uncategorized, "Remote address changed"⟩,
  ⟨"ELIBACC", "Can not access a needed shared library", .uncategorized,
    "Can not access a needed shared library"⟩,
  ⟨"ELIBBAD", "Accessing a corrupted shared library", .uncategorized,
    "Accessing a corrupted shared library"⟩,
  ⟨"ELIBSCN", ".lib section in a.out corrupted", .uncategorized, ".lib section in a.out corrupted"⟩,
  ⟨"ELIBMAX", "Attempting to link in too many shared libraries", .uncategorized,
    "Attempting to link in too many shared libraries"⟩,
  ⟨"ELIBEXEC", "Cannot exec a shared library directly", .uncategorized,
    "Cannot exec a shared library directly"⟩,
  ⟨"EILSEQ", "Illegal byte sequence", .uncategorized,
    "Invalid or incomplete multibyte or wide character"⟩,
  ⟨"ERESTART", "Interrupted system call should be restarted", .uncategorized,
    "Interrupted system call should be restarted"⟩,
  ⟨"ESTRPIPE", "Streams pipe error", .uncategorized, "Streams pipe error"⟩,
  ⟨"EUSERS", "Too many users", .uncategorized, "Too many users"⟩,
  ⟨"ENOTSOCK", "Socket operation on non-socket", .uncategorized, "Socket operation on non-socket"⟩,
  ⟨"EDESTADDRREQ", "Destination address required", .uncategorized, "Destination address required"⟩,
  ⟨"EMSGSIZE", "Message too long", .uncategorized, "Message too long"⟩,
  ⟨"EPROTOTYPE", "Protocol wrong type for socket", .uncategorized,
    "Protocol wrong type for socket"⟩,
  ⟨"ENOPROTOOPT", "Protocol not available", .uncategorized, "Protocol not available"⟩,
  ⟨"EPROTONOSUPPORT", "Protocol not supported", .uncategorized, "Protocol not supported"⟩,
  ⟨"ESOCKTNOSUPPORT", "Socket type not supported", .uncategorized, "Socket type not supported"⟩,
  ⟨"EOPNOTSUPP", "Operation not supported on transport endpoint", .unsupported,
    "Operation not supported"⟩,
  ⟨"EPFNOSUPPORT", "Protocol family not supported", .uncategorized,
    "Protocol family not supported"⟩,
  ⟨"EAFNOSUPPORT", "Address family not supported by protocol", .uncategorized,
    "Address family not supported by protocol"⟩,
  ⟨"EADDRINUSE", "Address already in use", .addrInUse, "Address already in use"⟩,
  ⟨"EADDRNOTAVAIL", "Cannot assign requested address", .addrNotAvailable,
    "Cannot assign requested address"⟩,
  ⟨"ENETDOWN", "Network is down", .networkDown, "Network is down"⟩,
  ⟨"ENETUNREACH", "Network is unreachable", .networkUnreachable, "Network is unreachable"⟩,
  ⟨"ENETRESET", "Network dropped connection because of reset", .uncategorized,
    "Network dropped connection on reset"⟩,
  ⟨"ECONNABORTED", "Software caused connection abort", .connectionAborted,
    "Software caused connection abort"⟩,
  ⟨"ECONNRESET", "Connection reset by peer", .connectionReset, "Connection reset by peer"⟩,
  ⟨"ENOBUFS", "No buffer space available", .uncategorized, "No buffer space available"⟩,
  ⟨"EISCONN", "Transport endpoint is already connected", .uncategorized,
    "Transport endpoint is already connected"⟩,
  ⟨"ENOTCONN", "Transport endpoint is not connected", .notConnected,
    "Transport endpoint is not connected"⟩,
  ⟨"ESHUTDOWN", "Cannot send after transport endpoint shutdown", .uncategorized,
    "Cannot send after transport endpoint shutdown"⟩,
  ⟨"ETOOMANYREFS", "Too many references: cannot splice", .uncategorized,
    "Too many references: cannot splice"⟩,
  ⟨"ETIMEDOUT", "Connection timed out", .timedOut, "Connection timed out"⟩,
  ⟨"ECONNREFUSED", "Connection refused", .connectionRefused, "Connection refused"⟩,
  ⟨"EHOSTDOWN", "Host is down", .uncategorized, "Host is down"⟩,
  ⟨"EHOSTUNREACH", "No route to host", .hostUnreachable, "No route to host"⟩,
  ⟨"EALREADY", "Operation already in progress", .uncategorized, "Operation already in progress"⟩,
  ⟨"EINPROGRESS", "Operation now in progress", .inProgress, "Operation now in progress"⟩,
  ⟨"ESTALE", "Stale file handle", .staleNetworkFileHandle, "Stale file handle"⟩,
  ⟨"EUCLEAN", "Structure needs cleaning", .uncategorized, "Structure needs cleaning"⟩,
  ⟨"ENOTNAM", "Not a XENIX named type file", .uncategorized, "Not a XENIX named type file"⟩,
  ⟨"ENAVAIL", "No XENIX semaphores available", .uncategorized, "No XENIX semaphores available"⟩,
  ⟨"EISNAM", "Is a named type file", .uncategorized, "Is a named type file"⟩,
  ⟨"EREMOTEIO", "Remote I/O error", .uncategorized, "Remote I/O error"⟩,
  ⟨"EDQUOT", "Quota exceeded", .quotaExceeded, "Disk quota exceeded"⟩,
  ⟨"ENOMEDIUM", "No medium found", .uncategorized, "No medium found"⟩,
  ⟨"EMEDIUMTYPE", "Wrong medium type", .uncategorized, "Wrong medium type"⟩,
  ⟨"ECANCELED", "Operation canceled", .uncategorized, "Operation canceled"⟩,
  ⟨"ENOKEY", "Required key not available", .uncategorized, "Required key not available"⟩,
  ⟨"EKEYEXPIRED", "Key has expired", .uncategorized, "Key has expired"⟩,
  ⟨"EKEYREVOKED", "Key has been revoked", .uncategorized, "Key has been revoked"⟩,
  ⟨"EKEYREJECTED", "Key was rejected by service", .uncategorized, "Key was rejected by service"⟩,
  ⟨"EOWNERDEAD", "Owner died", .uncategorized, "Owner died"⟩,
  ⟨"ENOTRECOVERABLE", "State not recoverable", .uncategorized, "State not recoverable"⟩,
  ⟨"ERFKILL", "Operation not possible due to RF-kill", .uncategorized,
    "Operation not possible due to RF-kill"⟩,
  ⟨"EHWPOISON", "Memory page has hardware error", .uncategorized, "Memory page has hardware error"⟩]

/-- The first number past the table. -/
def errnoCount : Nat := 134

/-- Does the number name an error? -/
def isErrorCode (n : Nat) : Bool := 0 < n && n < errnoCount && n ≠ 41 && n ≠ 58

/-- An error code of the operating system: a number that names an error, or 0 for an unknown one. -/
structure Errno where
  /-- The number. -/
  code : Nat
  valid : code = 0 ∨ isErrorCode code = true := by decide
  deriving DecidableEq

namespace Errno

/-- An error that the table does not name. -/
def unknown : Errno := ⟨0, .inl rfl⟩

/-- The error with the given number. -/
def ofCode (n : Int) : Errno :=
  match n with
  | .ofNat k => if h : isErrorCode k = true then ⟨k, .inr h⟩ else unknown
  | .negSucc _ => unknown

/-- What is known about an error. -/
def row (e : Errno) : ErrnoRow := errnoTable.getD e.code ⟨"", "", .uncategorized, ""⟩

/-- The symbolic name. -/
def name (e : Errno) : String := e.row.name

/-- The short description. -/
def desc (e : Errno) : String := e.row.desc

/-- The name and the description. -/
def display (e : Errno) : String := s!"{e.name}: {e.desc}"

/-- The error with the given symbolic name. -/
def ofName? (name : String) : Option Errno :=
  ((List.range errnoCount).map fun n : Nat => ofCode n).find? (·.name = name)

/-- How many bytes carry a code from one program to another. -/
def byteCount : Nat := 4

/-- The code as four bytes, least significant first. -/
def toBytes (e : Errno) : Bytes :=
  [UInt8.ofNat e.code, UInt8.ofNat (e.code / 2 ^ 8), UInt8.ofNat (e.code / 2 ^ 16),
    UInt8.ofNat (e.code / 2 ^ 24)]

/-- The error whose code four bytes carry, read as a signed number with its least significant byte
first. -/
def ofBytes? : Bytes → Option Errno
  | [a, b, c, d] =>
    let n : Nat := a.toNat + b.toNat * 2 ^ 8 + c.toNat * 2 ^ 16 + d.toNat * 2 ^ 24
    some (ofCode (if n < 2 ^ 31 then (n : Int) else n - 2 ^ 32))
  | _ => none

theorem length_toBytes (e : Errno) : e.toBytes.length = byteCount := rfl

/-- It is not allowed to anybody. -/
def notPermitted : Errno := ⟨1, by decide⟩

/-- No such file or directory. -/
def notFound : Errno := ⟨2, by decide⟩

/-- No such process. -/
def noSuchProcess : Errno := ⟨3, by decide⟩

/-- A call was interrupted by a signal. -/
def interrupted : Errno := ⟨4, by decide⟩

/-- An argument, or all together, is too long. -/
def argumentListTooLong : Errno := ⟨7, by decide⟩

/-- An executable file of no known form. -/
def execFormat : Errno := ⟨8, by decide⟩

/-- A descriptor is not open for this use. -/
def badDescriptor : Errno := ⟨9, by decide⟩

/-- The process has no such child to wait for. -/
def noChild : Errno := ⟨10, by decide⟩

/-- There is no device behind a name. -/
def noSuchDevice : Errno := ⟨6, by decide⟩

/-- Permission is denied. -/
def accessDenied : Errno := ⟨13, by decide⟩

/-- It is in use. -/
def busy : Errno := ⟨16, by decide⟩

/-- The name is taken. -/
def alreadyExists : Errno := ⟨17, by decide⟩

/-- A part of a path is no directory. -/
def notDirectory : Errno := ⟨20, by decide⟩

/-- The path names a directory. -/
def isDirectory : Errno := ⟨21, by decide⟩

/-- An argument makes no sense here. -/
def invalidArgument : Errno := ⟨22, by decide⟩

/-- The device is full. -/
def noSpace : Errno := ⟨28, by decide⟩

/-- Nobody reads from the pipe any more. -/
def brokenPipe : Errno := ⟨32, by decide⟩

/-- A name is too long. -/
def nameTooLong : Errno := ⟨36, by decide⟩

/-- The directory is not empty. -/
def notEmpty : Errno := ⟨39, by decide⟩

/-- Too many symbolic links on the way. -/
def linkLoop : Errno := ⟨40, by decide⟩

end Errno

end CommandExpr
