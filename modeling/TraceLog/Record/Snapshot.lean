import TraceLog.Settings.Cache
import TraceLog.Settings.Model

/-!
# TraceLog.Record.Snapshot

What the trace records of the settings of the host.

The kinds of layouts and the type of the elements are recorded by the names
they have in the trace; everything else is recorded as it is set.
-/

namespace TraceLog

/-- The settings of the host, as the trace records them. -/
structure ConfigSnapshot where
  model : ModelSnapshot
  cache : CacheSnapshot
  layout : Option LayoutSnapshot

namespace ConfigSnapshot

/-- The form of a snapshot. -/
def form : Form ConfigSnapshot :=
  (RecordForm.form "ConfigSnapshot" <|
    .cons "model_config" ModelSnapshot.form <|
    .cons "cache_config" CacheSnapshot.form <|
    .cons "gpu_layout" (.optional LayoutSnapshot.form) .nil).via
    (fun s => (s.model, s.cache, s.layout, ()))
    (fun (model, cache, layout, _) => ⟨model, cache, layout⟩)
    (fun _ => rfl) (fun _ => rfl)

/-- The snapshot of settings. -/
def of (model : ModelSettings) (cache : CacheSettings) (layout : Option LayoutSettings) :
    ConfigSnapshot :=
  ⟨model.snapshot, cache.snapshot, layout.map LayoutSettings.snapshot⟩

end ConfigSnapshot

end TraceLog
