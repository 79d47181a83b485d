import TraceLog.Number.Binary64
import TraceLog.Settings.Tracing
import TraceLog.Store.Disk

/-!
# TraceLog.Store.Generations

A trace file and the generations before it.

Records go to the active file.  Once it is large enough, it becomes generation
`1`, generation `1` becomes generation `2`, and so on; the oldest one that is
kept is discarded.  The oldest generations move first, so none is overwritten
before it has moved.

* `Generations.rotateIfLarge` — replaces the active file once it is large;
* `Generations.write` — adds a batch of lines, after replacing the file if
  that can be done.
-/

namespace TraceLog

/-- A trace file and how its generations are kept. -/
structure Generations where
  /-- The active file. -/
  path : String
  /-- How many files are kept, the active one included. -/
  count : Nat
  /-- The size in MiB from which the active file is replaced. -/
  threshold : Binary64
  /-- The active file is always kept. -/
  count_pos : 1 ≤ count

namespace Generations

/-- Generations of a file; at least the active file is kept. -/
def of (path : String) (count : UInt64) (threshold : Binary64) : Generations :=
  ⟨path, max count.toNat 1, threshold, Nat.le_max_right _ _⟩

/-- The generations that settings ask for. -/
def ofTracing (t : Tracing) : Generations := of t.path t.maxFiles t.maxFileSize

/-- The path of a generation; `0` is the active file. -/
def pathOf (g : Generations) (index : Nat) : String := Path.generation g.path index

/-- The files that exist, the active one first. -/
def existing (g : Generations) : FileAction (List String) :=
  ((List.range g.count).map g.pathOf).filterM FileAction.exists?

/-- Opens the active file, and creates it if it is missing. -/
def openActive (g : Generations) : FileAction Place := FileAction.openForAppend g.path

/-- The bytes of one MiB, `2 ^ 20`. -/
def mebibyte : Nat := 1048576

/-- Whether an active file of so many bytes is replaced: it is not empty, and
its size in MiB is not below the threshold. -/
def isLarge (g : Generations) (size : Nat) : Bool :=
  size != 0 && !g.threshold.exceedsRatio size mebibyte

/-- Moves generation `index` on, or discards it if it is the oldest one that
is kept. -/
def advance (g : Generations) (index : Nat) : FileAction Unit := do
  if ← FileAction.exists? (g.pathOf index) then
    if index = g.count - 1 then FileAction.remove (g.pathOf index)
    else FileAction.rename (g.pathOf index) (g.pathOf (index + 1))

/-- Moves the generations from `index` down to `1` on, the oldest first. -/
def advanceFrom (g : Generations) : (index : Nat) → FileAction Unit
  | 0 => pure ()
  | index + 1 => do
    g.advance (index + 1)
    g.advanceFrom index

/-- Makes the active file the newest generation; discards it if only the
active file is kept. -/
def rotate (g : Generations) : FileAction Unit := do
  if g.count = 1 then FileAction.remove g.path
  else do
    g.advanceFrom (g.count - 1)
    FileAction.rename g.path (g.pathOf 1)

/-- Replaces the active file if it is large, and tells whether it was. -/
def rotateIfLarge (g : Generations) : FileAction Bool := do
  match ← Disk.outcome (FileAction.length g.path) with
  | .error .missing => pure false
  | .error fault => throw fault
  | .ok size =>
    if g.isLarge size then do
      g.rotate
      pure true
    else pure false

/-- Lines as they stand in a file, each ended by a line feed. -/
def ended (lines : List String) : String := (lines.map (· ++ "\n")).foldr (· ++ ·) ""

/-- Writes a text at the end of an open file.  Should only a part of it arrive,
the line it ends in is closed. -/
def appendWhole (file : Place) (text : String) : FileAction Unit := do
  let start ← FileAction.lengthOf file
  match ← Disk.outcome (FileAction.append file text) with
  | .ok () => pure ()
  | .error fault => do
    let grown ← Disk.outcome (FileAction.lengthOf file)
    let partly := match grown with
      | .ok length => decide (start < length)
      | .error _ => true
    if partly then do
      let _ ← Disk.outcome (FileAction.append file "\n")
    throw fault

/-- Adds a batch of lines to the active file.  The file is replaced first if
it is large; a fault there does not keep the batch from being written. -/
def write (g : Generations) (batch : List String) : FileAction Unit := do
  if batch.isEmpty then pure ()
  else do
    let _ ← Disk.outcome g.rotateIfLarge
    let file ← g.openActive
    appendWhole file (ended batch)

end Generations

end TraceLog
