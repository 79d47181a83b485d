import TraceLog.Number.Format

/-!
# TraceLog.Store.Fault

Why a call on files failed.

`SystemFault` is what keeps a call from being made, with the kind it belongs to
and its text; what the system itself reports has a number.  `IoFault` also
admits a fault of a component outside the system, which brings a kind and a
text of its own.
-/

namespace TraceLog

/-- The kinds of faults. -/
inductive IoKind where
  | notFound
  | permissionDenied
  | alreadyExists
  | notADirectory
  | isADirectory
  | directoryNotEmpty
  | resourceBusy
  | invalidInput
  | invalidFilename
  | storageFull
  | other
  deriving DecidableEq, Repr

/-- The name of a kind. -/
def IoKind.name : IoKind → String
  | .notFound => "NotFound"
  | .permissionDenied => "PermissionDenied"
  | .alreadyExists => "AlreadyExists"
  | .notADirectory => "NotADirectory"
  | .isADirectory => "IsADirectory"
  | .directoryNotEmpty => "DirectoryNotEmpty"
  | .resourceBusy => "ResourceBusy"
  | .invalidInput => "InvalidInput"
  | .invalidFilename => "InvalidFilename"
  | .storageFull => "StorageFull"
  | .other => "Other"

/-- What keeps a call from being made. -/
inductive SystemFault where
  /-- No entry of this name. -/
  | missing
  /-- The call is not permitted. -/
  | denied
  /-- The name is taken. -/
  | taken
  /-- A name on the way is no directory. -/
  | throughFile
  /-- A directory stands where a file is wanted. -/
  | directory
  /-- A directory that has entries would be replaced. -/
  | occupied
  /-- A directory is in use under this name. -/
  | busy
  /-- A directory would be moved into itself. -/
  | intoItself
  /-- A name or the whole path has more bytes than the system takes. -/
  | tooLong
  /-- The path holds a NUL, so it cannot be handed to the system. -/
  | nulInside
  /-- The device takes no more. -/
  | full
  deriving DecidableEq, Repr

namespace SystemFault

/-- The kind of a fault. -/
def kind : SystemFault → IoKind
  | .missing => .notFound
  | .denied => .permissionDenied
  | .taken => .alreadyExists
  | .throughFile => .notADirectory
  | .directory => .isADirectory
  | .occupied => .directoryNotEmpty
  | .busy => .resourceBusy
  | .intoItself => .invalidInput
  | .tooLong => .invalidFilename
  | .nulInside => .invalidInput
  | .full => .storageFull

/-- The number under which the system reports a fault; none if the system has
not been asked. -/
def number? : SystemFault → Option Nat
  | .missing => some 2
  | .denied => some 13
  | .taken => some 17
  | .throughFile => some 20
  | .directory => some 21
  | .occupied => some 39
  | .busy => some 16
  | .intoItself => some 22
  | .tooLong => some 36
  | .nulInside => none
  | .full => some 28

/-- What a fault is called. -/
def title : SystemFault → String
  | .missing => "No such file or directory"
  | .denied => "Permission denied"
  | .taken => "File exists"
  | .throughFile => "Not a directory"
  | .directory => "Is a directory"
  | .occupied => "Directory not empty"
  | .busy => "Device or resource busy"
  | .intoItself => "Invalid argument"
  | .tooLong => "File name too long"
  | .nulInside => "file name contained an unexpected NUL byte"
  | .full => "No space left on device"

/-- The message of a fault, with its number if it has one. -/
def message (fault : SystemFault) : String :=
  match fault.number? with
  | some n => fault.title ++ " (os error " ++ String.ofList (decimal n) ++ ")"
  | none => fault.title

end SystemFault

/-- Why a call on files failed. -/
inductive IoFault where
  /-- The system refused it. -/
  | system (fault : SystemFault)
  /-- A component outside the system refused it. -/
  | custom (kind : IoKind) (message : String)
  deriving DecidableEq, Repr

namespace IoFault

/-- The kind of a fault. -/
def kind : IoFault → IoKind
  | .system fault => fault.kind
  | .custom kind _ => kind

/-- The number under which the system reports a fault, if it is one of the
system's. -/
def number? : IoFault → Option Nat
  | .system fault => fault.number?
  | .custom _ _ => none

/-- The message of a fault. -/
def message : IoFault → String
  | .system fault => fault.message
  | .custom _ message => message

end IoFault

end TraceLog
