import TraceLog.Schema.Choice

/-!
# TraceLog.Settings.Layout

How a tier of the cache is laid out in memory.

`LayoutKind` is the order of the dimensions, and `Layout` the dimensions of
the tier on the accelerator.  `Layout` leaves open how the kind is given:
settings name it as a type, the trace by its text.
-/

namespace TraceLog

/-- The order of the dimensions of a tier. -/
inductive LayoutKind where
  /-- Layers outermost. -/
  | layerWise
  /-- Blocks outermost. -/
  | blockWise
  deriving DecidableEq, Repr

/-- Layers are outermost unless settings say otherwise. -/
instance : Inhabited LayoutKind := ⟨.layerWise⟩

namespace LayoutKind

/-- The name in settings and messages. -/
def name : LayoutKind → String
  | .layerWise => "LAYERWISE"
  | .blockWise => "BLOCKWISE"

/-- The name in the trace. -/
def traceName (k : LayoutKind) : String := "KVCacheLayoutType." ++ k.name

instance : Named LayoutKind where
  all := [.layerWise, .blockWise]
  name := name
  mem_all := by intro a; cases a <;> decide
  name_injective := by intro a b; cases a <;> cases b <;> decide

/-- A kind as its name. -/
def form : Form LayoutKind := Named.form

end LayoutKind

/-- The dimensions of a tier, its kind given as a `κ`. -/
structure Layout (κ : Type) where
  kind : κ
  layers : UInt64
  blocks : UInt64
  tokensPerBlock : UInt64
  heads : UInt64
  headSize : UInt64
  latentAttention : Bool
  deriving DecidableEq, Repr

namespace Layout

variable {κ τ : Type}

/-- The dimensions with the kind given in another way. -/
def map (f : κ → τ) (l : Layout κ) : Layout τ := { l with kind := f l.kind }

/-- The dimensions as a record of this name. -/
def form (name : String) (kind : Form κ) : Form (Layout κ) :=
  (RecordForm.form name <|
    .cons "type" kind <|
    .cons "num_layer" .size <|
    .cons "num_block" .size <|
    .cons "tokens_per_block" .size <|
    .cons "num_head" .size <|
    .cons "head_size" .size <|
    .cons "is_mla" .bool .nil).via
    (fun l => (l.kind, l.layers, l.blocks, l.tokensPerBlock, l.heads, l.headSize,
      l.latentAttention, ()))
    (fun (kind, layers, blocks, tokensPerBlock, heads, headSize, latent, _) =>
      ⟨kind, layers, blocks, tokensPerBlock, heads, headSize, latent⟩)
    (fun _ => rfl) (fun _ => rfl)

end Layout

/-- A layout in the settings of the host. -/
abbrev LayoutSettings := Layout LayoutKind

/-- The form of the settings. -/
def LayoutSettings.form : Form LayoutSettings := Layout.form "KvCacheLayout" LayoutKind.form

/-- A layout in the trace. -/
abbrev LayoutSnapshot := Layout String

/-- The form of the snapshot. -/
def LayoutSnapshot.form : Form LayoutSnapshot := Layout.form "GpuLayoutSnapshot" .text

/-- The layout as the trace records it. -/
def LayoutSettings.snapshot (l : LayoutSettings) : LayoutSnapshot := l.map LayoutKind.traceName

end TraceLog
