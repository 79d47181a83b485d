import TraceLog.Schema.Choice

/-!
# TraceLog.Settings.Model

The model whose cache is managed.

`ElementType` is what the cache holds; it has one name in settings, one in
messages and one in the trace.  `Model` leaves open how the element type is
given: settings name it as a type, the trace by its text.
-/

namespace TraceLog

/-- The type of the elements of the cache. -/
inductive ElementType where
  | float16
  | bfloat16
  | float32
  | float8e4m3
  | int8
  deriving DecidableEq, Repr

namespace ElementType

/-- The name in settings. -/
def name : ElementType → String
  | .float16 => "float16"
  | .bfloat16 => "bfloat16"
  | .float32 => "float32"
  | .float8e4m3 => "float8e4m3"
  | .int8 => "int8"

/-- The name in messages, which says more of the eight-bit format. -/
def display : ElementType → String
  | .float8e4m3 => "float8_e4m3fn"
  | t => t.name

/-- The name in the trace. -/
def traceName (t : ElementType) : String := "torch." ++ t.display

instance : Named ElementType where
  all := [.float16, .bfloat16, .float32, .float8e4m3, .int8]
  name := name
  mem_all := by intro a; cases a <;> decide
  name_injective := by intro a b; cases a <;> cases b <;> decide

/-- An element type as its name. -/
def form : Form ElementType := Named.form

end ElementType

/-- The shape of a model, its element type given as an `ε`. -/
structure Model (ε : Type) where
  layers : UInt64
  kvHeads : UInt64
  headSize : UInt64
  latentAttention : Bool
  elementType : ε
  tensorParallel : UInt64
  dataParallel : UInt64
  deriving DecidableEq, Repr

namespace Model

variable {ε ζ : Type}

/-- The model with its element type given in another way. -/
def map (f : ε → ζ) (m : Model ε) : Model ζ := { m with elementType := f m.elementType }

/-- A model as a record of this name. -/
def form (name : String) (elementType : Form ε) : Form (Model ε) :=
  (RecordForm.form name <|
    .cons "num_layers" .size <|
    .cons "num_kv_heads" .size <|
    .cons "head_size" .size <|
    .cons "use_mla" .bool <|
    .cons "dtype" elementType <|
    .cons "tp_size" .size <|
    .cons "dp_size" .size .nil).via
    (fun m => (m.layers, m.kvHeads, m.headSize, m.latentAttention, m.elementType,
      m.tensorParallel, m.dataParallel, ()))
    (fun (layers, kvHeads, headSize, latent, elementType, tensor, data, _) =>
      ⟨layers, kvHeads, headSize, latent, elementType, tensor, data⟩)
    (fun _ => rfl) (fun _ => rfl)

end Model

/-- The model in the settings of the host. -/
abbrev ModelSettings := Model ElementType

/-- The form of the settings. -/
def ModelSettings.form : Form ModelSettings := Model.form "ModelConfig" ElementType.form

instance : Inhabited ModelSettings := ⟨⟨1, 1, 1, false, .bfloat16, 1, 1⟩⟩

/-- The model in the trace. -/
abbrev ModelSnapshot := Model String

/-- The form of the snapshot. -/
def ModelSnapshot.form : Form ModelSnapshot := Model.form "ModelConfigSnapshot" .text

/-- The model as the trace records it. -/
def ModelSettings.snapshot (m : ModelSettings) : ModelSnapshot := m.map ElementType.traceName

end TraceLog
