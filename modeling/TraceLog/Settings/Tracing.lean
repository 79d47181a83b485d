import TraceLog.Schema.Form
import TraceLog.Store.Path

/-!
# TraceLog.Settings.Tracing

The settings of a recorder.

Every setting has a default, so a document may leave out any of them.
`Tracing.validate` checks what an enabled recorder depends on, and reports the
first setting that is wrong.
-/

namespace TraceLog

/-- Why settings are refused. -/
inductive ConfigFault where
  /-- The path is empty. -/
  | emptyPath
  /-- The path names no file. -/
  | noFileName (path : String)
  /-- The size is no number, not finite or negative. -/
  | badSize (size : Binary64)
  /-- Not even the active file would be kept. -/
  | noFiles
  /-- A component outside the library refuses its settings. -/
  | other (message : String)
  deriving DecidableEq, Repr

/-- The message of a fault. -/
def ConfigFault.message : ConfigFault → String
  | .emptyPath => "trace_file_path must not be empty"
  | .noFileName path => "trace_file_path " ++ path ++ " does not name a file"
  | .badSize size =>
    "trace_max_file_size_mb must be a non-negative number, got " ++
      String.ofList (NumberFormat.plain.render size)
  | .noFiles => "trace_max_files must be at least 1"
  | .other message => message

/-- The settings of a recorder. -/
structure Tracing where
  /-- Whether anything is recorded. -/
  enabled : Bool
  /-- The active file. -/
  path : String
  /-- The size in MiB from which the active file is replaced. -/
  maxFileSize : Binary64
  /-- How many files are kept, the active one included. -/
  maxFiles : UInt64
  /-- The time in milliseconds between flushes. -/
  flushInterval : UInt64
  /-- How many records are kept waiting; no limit if zero. -/
  maxBuffered : UInt64
  deriving DecidableEq, Repr

namespace Tracing

/-- The active file, unless settings say otherwise. -/
def defaultPath : String := "./flexkv_trace.log"

/-- Nothing is recorded. -/
def disabled : Tracing where
  enabled := false
  path := defaultPath
  maxFileSize := ⟨0x4090000000000000⟩
  maxFiles := 5
  flushInterval := 1000
  maxBuffered := 8192

instance : Inhabited Tracing := ⟨disabled⟩

/-- Records go to this file. -/
def toFile (path : String) : Tracing := { disabled with enabled := true, path }

/-- The settings with another size. -/
def withMaxFileSize (t : Tracing) (size : Binary64) : Tracing := { t with maxFileSize := size }

/-- The settings with another number of files. -/
def withMaxFiles (t : Tracing) (files : UInt64) : Tracing := { t with maxFiles := files }

/-- The settings with another interval. -/
def withFlushInterval (t : Tracing) (interval : UInt64) : Tracing :=
  { t with flushInterval := interval }

/-- The settings with another limit of waiting records. -/
def withMaxBuffered (t : Tracing) (records : UInt64) : Tracing := { t with maxBuffered := records }

/-- Checks the settings that an enabled recorder depends on. -/
def validate (t : Tracing) : Except ConfigFault Unit :=
  if t.path = "" then .error .emptyPath
  else if (Path.fileName? t.path).isNone then .error (.noFileName t.path)
  else if !t.maxFileSize.isFinite || t.maxFileSize.numLt ⟨0⟩ then .error (.badSize t.maxFileSize)
  else if t.maxFiles = 0 then .error .noFiles
  else .ok ()

/-- The form of the settings; what a document leaves out is as in
`disabled`. -/
def form : Form Tracing :=
  ((RecordForm.form "TracerConfig" <|
    .cons "enable_trace" .bool <|
    .cons "trace_file_path" .path <|
    .cons "trace_max_file_size_mb" .float <|
    .cons "trace_max_files" .size <|
    .cons "trace_flush_interval_ms" .wide <|
    .cons "trace_max_buffered_records" .size .nil).via
    (fun t => (t.enabled, t.path, t.maxFileSize, t.maxFiles, t.flushInterval, t.maxBuffered, ()))
    (fun (enabled, path, maxFileSize, maxFiles, flushInterval, maxBuffered, _) =>
      ⟨enabled, path, maxFileSize, maxFiles, flushInterval, maxBuffered⟩)
    (fun _ => rfl) (fun _ => rfl)).orElse disabled

end Tracing

end TraceLog
