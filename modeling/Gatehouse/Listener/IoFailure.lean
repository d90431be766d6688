import Gatehouse.Text.Digits
import Gatehouse.Text.Quoted
/-!
# Failures of input and output

A failure has a kind and a text. Some kinds are transient: accepting again is expected to
succeed.
-/

namespace Gatehouse

open Gatehouse.Text

inductive IoKind where
  | notFound
  | permissionDenied
  | connectionRefused
  | connectionReset
  | hostUnreachable
  | networkUnreachable
  | connectionAborted
  | notConnected
  | addrInUse
  | addrNotAvailable
  | networkDown
  | brokenPipe
  | alreadyExists
  | wouldBlock
  | invalidInput
  | invalidData
  | timedOut
  | writeZero
  | interrupted
  | unsupported
  | unexpectedEof
  | outOfMemory
  | notADirectory
  | isADirectory
  | directoryNotEmpty
  | readOnlyFilesystem
  | filesystemLoop
  | staleNetworkFileHandle
  | storageFull
  | notSeekable
  | quotaExceeded
  | fileTooLarge
  | resourceBusy
  | executableFileBusy
  | deadlock
  | crossesDevices
  | tooManyLinks
  | invalidFilename
  | argumentListTooLong
  | inProgress
  | other
  | uncategorized
deriving DecidableEq, Inhabited

namespace IoKind

/-- Every kind with its name. -/
def names : List (IoKind × String) :=
  [(.notFound, "NotFound"), (.permissionDenied, "PermissionDenied"),
   (.connectionRefused, "ConnectionRefused"), (.connectionReset, "ConnectionReset"),
   (.hostUnreachable, "HostUnreachable"), (.networkUnreachable, "NetworkUnreachable"),
   (.connectionAborted, "ConnectionAborted"), (.notConnected, "NotConnected"),
   (.addrInUse, "AddrInUse"), (.addrNotAvailable, "AddrNotAvailable"),
   (.networkDown, "NetworkDown"), (.brokenPipe, "BrokenPipe"),
   (.alreadyExists, "AlreadyExists"), (.wouldBlock, "WouldBlock"),
   (.invalidInput, "InvalidInput"), (.invalidData, "InvalidData"), (.timedOut, "TimedOut"),
   (.writeZero, "WriteZero"), (.interrupted, "Interrupted"), (.unsupported, "Unsupported"),
   (.unexpectedEof, "UnexpectedEof"), (.outOfMemory, "OutOfMemory"),
   (.notADirectory, "NotADirectory"), (.isADirectory, "IsADirectory"),
   (.directoryNotEmpty, "DirectoryNotEmpty"), (.readOnlyFilesystem, "ReadOnlyFilesystem"),
   (.filesystemLoop, "FilesystemLoop"), (.staleNetworkFileHandle, "StaleNetworkFileHandle"),
   (.storageFull, "StorageFull"), (.notSeekable, "NotSeekable"),
   (.quotaExceeded, "QuotaExceeded"), (.fileTooLarge, "FileTooLarge"),
   (.resourceBusy, "ResourceBusy"), (.executableFileBusy, "ExecutableFileBusy"),
   (.deadlock, "Deadlock"), (.crossesDevices, "CrossesDevices"), (.tooManyLinks, "TooManyLinks"),
   (.invalidFilename, "InvalidFilename"), (.argumentListTooLong, "ArgumentListTooLong"),
   (.inProgress, "InProgress"), (.other, "Other"), (.uncategorized, "Uncategorized")]

def name (kind : IoKind) : String := ((names.find? fun row => row.1 = kind).map (·.2)).getD ""

def ofName? (name : String) : Option IoKind :=
  (names.find? fun row => row.2 = name).map (·.1)

/-- The kind of a system error number. -/
def ofCode : Nat → IoKind
  | 1 => .permissionDenied
  | 2 => .notFound
  | 4 => .interrupted
  | 7 => .argumentListTooLong
  | 11 => .wouldBlock
  | 12 => .outOfMemory
  | 13 => .permissionDenied
  | 16 => .resourceBusy
  | 17 => .alreadyExists
  | 18 => .crossesDevices
  | 20 => .notADirectory
  | 21 => .isADirectory
  | 22 => .invalidInput
  | 26 => .executableFileBusy
  | 27 => .fileTooLarge
  | 28 => .storageFull
  | 29 => .notSeekable
  | 30 => .readOnlyFilesystem
  | 31 => .tooManyLinks
  | 32 => .brokenPipe
  | 35 => .deadlock
  | 36 => .invalidFilename
  | 38 => .unsupported
  | 39 => .directoryNotEmpty
  | 40 => .filesystemLoop
  | 95 => .unsupported
  | 98 => .addrInUse
  | 99 => .addrNotAvailable
  | 100 => .networkDown
  | 101 => .networkUnreachable
  | 103 => .connectionAborted
  | 104 => .connectionReset
  | 107 => .notConnected
  | 110 => .timedOut
  | 111 => .connectionRefused
  | 113 => .hostUnreachable
  | 115 => .inProgress
  | 116 => .staleNetworkFileHandle
  | 122 => .quotaExceeded
  | _ => .uncategorized

/-- Failures after which accepting again is expected to succeed. -/
def isTransient : IoKind → Bool
  | .timedOut | .wouldBlock | .interrupted | .connectionAborted | .connectionReset => true
  | _ => false

end IoKind

/-- A failure: one with a text of its own, or one that the system reports by number. -/
inductive IoFailure where
  | custom (kind : IoKind) (text : String)
  | system (code : Nat) (text : String)
deriving DecidableEq

namespace IoFailure

def kind : IoFailure → IoKind
  | .custom kind _ => kind
  | .system code _ => .ofCode code

def isTransient (e : IoFailure) : Bool := e.kind.isTransient

def message : IoFailure → String
  | .custom _ text => text
  | .system code text => text ++ " (os error " ++ decimal code ++ ")"

/-- A failure with all its parts, for the log. -/
def details : IoFailure → String
  | .custom kind text => "Custom \x7b kind: " ++ kind.name ++ ", error: " ++ quoted text ++ " \x7d"
  | .system code text =>
    "Os \x7b code: " ++ decimal code ++ ", kind: " ++ (IoKind.ofCode code).name ++
      ", message: " ++ quoted text ++ " \x7d"

def noSuchFile : IoFailure := .system 2 "No such file or directory"

end IoFailure

end Gatehouse
