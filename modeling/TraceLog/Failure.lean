import TraceLog.Json.Fault
import TraceLog.Payload.Encode
import TraceLog.Settings.Tracing
import TraceLog.Store.Fault
import TraceLog.Text.Report

/-!
# TraceLog.Failure

Why something could not be recorded.

A failure says what stage it comes from; those of the stages below keep their
cause.  `Failure.message` is the text that is shown, and `Failure.cause?` the
text of the cause alone.
-/

namespace TraceLog

/-- Why a document could not be read or written. -/
inductive DocumentFault where
  /-- A text could not be read. -/
  | reading (fault : Json.Fault)
  /-- A payload has no form as a document. -/
  | encoding (fault : EncodeFault)
  /-- A component outside the library reports a fault. -/
  | reported (report : Text.Report)
  deriving DecidableEq, Repr

/-- The message of a fault. -/
def DocumentFault.message : DocumentFault → String
  | .reading fault => fault.message
  | .encoding fault => fault.message
  | .reported report => report.message

/-- Why something could not be recorded. -/
inductive Failure where
  /-- The settings are wrong. -/
  | config (fault : ConfigFault)
  /-- The files could not be prepared. -/
  | init (path : String) (fault : IoFault)
  /-- Files could not be written or replaced. -/
  | io (fault : IoFault)
  /-- A payload could not be encoded. -/
  | serialization (fault : DocumentFault)
  /-- Data do not fill a shape. -/
  | shape (fault : ShapeFault)
  /-- A record would take more than one line. -/
  | embeddedNewline
  deriving DecidableEq, Repr

namespace Failure

/-- The message of a failure. -/
def message : Failure → String
  | .config fault => "Configuration error: " ++ fault.message
  | .init path fault => "Failed to initialize trace file " ++ path ++ ": " ++ fault.message
  | .io fault => "IO error: " ++ fault.message
  | .serialization fault => "Serialization error: " ++ fault.message
  | .shape fault => fault.message
  | .embeddedNewline => "Encoded trace record contains a newline"

/-- Whether the failure comes from files and not from a payload. -/
def isIo : Failure → Bool
  | .init _ _ => true
  | .io _ => true
  | _ => false

/-- The message of the cause, if the failure has one of its own. -/
def cause? : Failure → Option String
  | .init _ fault => some fault.message
  | .io fault => some fault.message
  | .serialization fault => some fault.message
  | _ => none

end Failure

end TraceLog
