import TraceLog.Schema.Form

/-!
# TraceLog.Record.Wait

A wait for tasks.
-/

namespace TraceLog

/-- The tasks that are waited for. -/
abbrev TaskIds := List Int64

/-- Tasks as the list of their numbers. -/
def TaskIds.form : Form TaskIds := .list .signed

/-- A wait for tasks. -/
structure Wait where
  /-- What kind of wait it is. -/
  kind : String
  tasks : TaskIds
  /-- The group of layers, if the wait is for one. -/
  layerGroup : Option Int64
  deriving DecidableEq, Repr

/-- The form of a wait. -/
def Wait.form : Form Wait :=
  (RecordForm.form "WaitEvent" <|
    .cons "wait_type" .text <|
    .cons "task_ids" TaskIds.form <|
    .cons "layer_group_id" (.optional .signed) .nil).via
    (fun w => (w.kind, w.tasks, w.layerGroup, ()))
    (fun (kind, tasks, layerGroup, _) => ⟨kind, tasks, layerGroup⟩)
    (fun _ => rfl) (fun _ => rfl)

end TraceLog
