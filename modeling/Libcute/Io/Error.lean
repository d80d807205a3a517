/-!
# Errors of files and streams

`cu_Io_Error` with all its kinds, and the kinds that the error numbers of the
operating system are reported as.  The numbers are those of Linux.
-/

namespace Libcute.Io.Error

/-- `cu_Io_ErrorKind` -/
inductive ErrorKind where
  | notFound
  | permissionDenied
  | connectionRefused
  | connectionReset
  | connectionAborted
  | notConnected
  | addrInUse
  | addrNotAvailable
  | brokenPipe
  | wouldBlock
  | invalidInput
  | invalidData
  | timedOut
  | interrupted
  | unexpectedEof
  | unsupported
  | outOfMemory
  | other
deriving DecidableEq, Repr

/-- `cu_Io_Error` -/
structure IoError where
  kind : ErrorKind
  errnum : Option Nat
deriving DecidableEq, Repr

def invalidInput : IoError := ⟨.invalidInput, none⟩

def unexpectedEof : IoError := ⟨.unexpectedEof, none⟩

def outOfMemory : IoError := ⟨.outOfMemory, none⟩

/-- `EINVAL` -/
def einval : Nat := 22

/-- `EOVERFLOW` -/
def eoverflow : Nat := 75

/-- `cu_Io_Error_from_errno` -/
def fromErrno (errorCode : Nat) : IoError :=
  let kind : ErrorKind :=
    match errorCode with
    | 2 => .notFound
    | 13 => .permissionDenied
    | 1 => .permissionDenied
    | 111 => .connectionRefused
    | 104 => .connectionReset
    | 103 => .connectionAborted
    | 107 => .notConnected
    | 98 => .addrInUse
    | 99 => .addrNotAvailable
    | 32 => .brokenPipe
    | 11 => .wouldBlock
    | 22 => .invalidInput
    | 110 => .timedOut
    | 4 => .interrupted
    | 12 => .outOfMemory
    | _ => .other
  ⟨kind, some errorCode⟩

end Libcute.Io.Error
