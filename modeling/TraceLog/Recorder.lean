import TraceLog.Buffer.Basic
import TraceLog.Record.Line
import TraceLog.Store.Generations

/-!
# TraceLog.Recorder

What records events.

A recorder encodes an event before anything else, so an event that cannot be
encoded leaves everything as it was.  The line then waits in the buffer, which
hands its batches to the trace file.  A recorder that is not enabled does
nothing at all.

* `Recorder.of` — makes a recorder and proves that its file can be written;
* `Recorder.config`, `Recorder.request`, `Recorder.wait` — record an event;
* `Recorder.flush` — writes what waits;
* `Recorder.close` — writes what waits, for the last time.
-/

namespace TraceLog

/-- A trace file that is written to, and the lines that wait for it. -/
structure Session where
  /-- The path as it was given. -/
  path : String
  file : Generations
  buffer : Buffer

/-- What records events; nothing is recorded without a session. -/
structure Recorder where
  session : Option Session

/-- Batches go to the active file. -/
def Generations.sink (g : Generations) : Sink Disk := fun batch disk =>
  match g.write batch disk with
  | (.ok (), disk) => (.accepted, disk)
  | (.error fault, disk) => (.refused (.io (.system fault)), disk)

namespace Recorder

/-- The recorder that does nothing. -/
def disabled : Recorder := ⟨none⟩

/-- Whether anything is recorded. -/
def isEnabled (r : Recorder) : Bool := r.session.isSome

/-- The active file. -/
def path? (r : Recorder) : Option String := r.session.map (·.path)

/-- What the buffer has done. -/
def stats? (r : Recorder) : Option Stats := r.session.map (·.buffer.stats)

/-- Makes the directory of the active file, replaces a large file of an
earlier session, and opens the file once to prove that it can be written. -/
def prepare (path : String) (file : Generations) : FileAction Unit := do
  FileAction.makeParent path
  let _ ← file.rotateIfLarge
  let _ ← file.openActive

/-- Makes a recorder. -/
def of (t : Tracing) (now : Nat) (disk : Disk) : Except Failure Recorder × Disk :=
  if !t.enabled then (.ok disabled, disk)
  else match t.validate with
    | .error fault => (.error (.config fault), disk)
    | .ok () =>
      let file := Generations.ofTracing t
      match prepare t.path file disk with
      | (.error fault, disk) => (.error (.init t.path (.system fault)), disk)
      | (.ok (), disk) =>
        let buffer := Buffer.empty t.flushInterval.toNat t.maxBuffered.toNat now
        (.ok ⟨some ⟨t.path, file, buffer⟩⟩, disk)

/-- Records an event, unless nothing is recorded. -/
def add (record : Record) (clock : Clock) (r : Recorder) (disk : Disk) :
    Except Failure Unit × Recorder × Disk :=
  match r.session with
  | none => (.ok (), r, disk)
  | some s =>
    match record.toLine with
    | .error failure => (.error failure, r, disk)
    | .ok line =>
      let (_, buffer, disk) := s.buffer.append s.file.sink clock line disk
      (.ok (), ⟨some { s with buffer }⟩, disk)

/-- Records the settings of the host. -/
def config (time : Timestamp) (model : ModelSettings) (cache : CacheSettings)
    (layout : Option LayoutSettings) :
    Clock → Recorder → Disk → Except Failure Unit × Recorder × Disk :=
  add (.config time model cache layout)

/-- Records a request. -/
def request (time : Timestamp) (request : Request) :
    Clock → Recorder → Disk → Except Failure Unit × Recorder × Disk :=
  add (.request time request)

/-- `request`, unless a list would have to be built that cannot exist.  A
recorder that is not enabled builds nothing. -/
def request? (time : Timestamp) (request : Request) (clock : Clock) (r : Recorder) (disk : Disk) :
    Option (Except Failure Unit × Recorder × Disk) :=
  match r.session with
  | none => some (.ok (), r, disk)
  | some _ =>
    if request.buildable then some (Recorder.request time request clock r disk) else none

/-- Records a wait. -/
def wait (time : Timestamp) (wait : Wait) :
    Clock → Recorder → Disk → Except Failure Unit × Recorder × Disk :=
  add (.wait time wait)

/-- Writes the lines that wait. -/
def flush (clock : Clock) (r : Recorder) (disk : Disk) : Drain × Recorder × Disk :=
  match r.session with
  | none => (.written 0, r, disk)
  | some s =>
    let (drain, buffer, disk) := s.buffer.forceDrain s.file.sink clock disk
    (drain, ⟨some { s with buffer }⟩, disk)

/-- Writes the lines that wait, for the last time; a fault is of no account
any more. -/
def close (clock : Clock) (r : Recorder) (disk : Disk) : Disk := (r.flush clock disk).2.2

/-- A recorder in messages. -/
def describe (r : Recorder) : String :=
  "FlexKvTracer \x7b enabled: " ++ (if r.isEnabled then "true" else "false") ++
    ", trace_file_path: " ++
    (match r.path? with
      | some path => "Some(" ++ Text.quoted path ++ ")"
      | none => "None") ++ " \x7d"

end Recorder

end TraceLog
