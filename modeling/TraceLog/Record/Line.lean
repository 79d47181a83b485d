import TraceLog.Failure
import TraceLog.Json.Render
import TraceLog.Record.Request
import TraceLog.Record.Snapshot
import TraceLog.Record.Timestamp
import TraceLog.Record.Wait
import TraceLog.Schema.Choice
import TraceLog.Schema.Read

/-!
# TraceLog.Record.Line

Records and the lines they are written as.

A record is stamped with the time, the kind of event and the component that
emits it, and carries data.  It is written as an object in one line; data that
would break the line are refused.
-/

namespace TraceLog

/-- The kinds of events. -/
inductive EventKind where
  | config
  | request
  | wait
  deriving DecidableEq, Repr

namespace EventKind

/-- The name in records. -/
def name : EventKind → String
  | .config => "config"
  | .request => "request"
  | .wait => "wait"

instance : Named EventKind where
  all := [.config, .request, .wait]
  name := name
  mem_all := by intro a; cases a <;> decide
  name_injective := by intro a b; cases a <;> cases b <;> decide

/-- A kind as its name. -/
def form : Form EventKind := Named.form

end EventKind

/-- What a record carries. -/
inductive RecordData where
  | snapshot (s : ConfigSnapshot)
  | wait (w : Wait)
  | payload (p : Payload)
  /-- The text of a document, as it is. -/
  | verbatim (text : List Char)

/-- The text of what a record carries. -/
def RecordData.encode : RecordData → Except EncodeFault (List Char)
  | .snapshot s => .ok (ConfigSnapshot.form.render s)
  | .wait w => .ok (Wait.form.render w)
  | .payload p => p.encode
  | .verbatim text => .ok text

/-- A record of the trace. -/
structure Record where
  timestamp : Timestamp
  kind : EventKind
  data : RecordData

namespace Record

/-- The component that emits the records. -/
def component : String := "KVManager"

/-- A record of the settings of the host. -/
def config (time : Timestamp) (model : ModelSettings) (cache : CacheSettings)
    (layout : Option LayoutSettings) : Record :=
  ⟨time, .config, .snapshot (.of model cache layout)⟩

/-- A record of a request. -/
def request (time : Timestamp) (r : Request) : Record := ⟨time, .request, .payload r.data⟩

/-- A record of a wait. -/
def wait (time : Timestamp) (w : Wait) : Record := ⟨time, .wait, .wait w⟩

/-- The text of a record around that of its data. -/
def envelope (r : Record) (data : List Char) : List Char :=
  Json.enclose
    [ Json.renderField "timestamp" ('"' :: (r.timestamp.render ++ ['"'])),
      Json.renderField "event_type" (Json.quote r.kind.name),
      Json.renderField "component" (Json.quote component),
      Json.renderField "data" data ]

/-- Whether a character ends a line. -/
def breaksLine (c : Char) : Bool := c == '\n' || c == '\r'

/-- The line of a record. -/
def toLine (r : Record) : Except Failure String :=
  match r.data.encode with
  | .error fault => .error (.serialization (.encoding fault))
  | .ok data =>
    let line := r.envelope data
    if line.any breaksLine then .error .embeddedNewline else .ok (String.ofList line)

/-- `toLine`, unless the time has no text; it comes first in the line, so
nothing else is looked at then. -/
def toLine? (r : Record) : Option (Except Failure String) :=
  if r.timestamp.Writable then some r.toLine else none

end Record

end TraceLog
