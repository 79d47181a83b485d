import TraceLog.Payload.Basic

/-!
# TraceLog.Payload.Tensor

Dense arrays whose data fill their shape.

`Tensor.of?` checks that, `Tensor.ofList` makes an array of one dimension.
-/

namespace TraceLog

/-- Data in row-major order, with a shape. -/
structure Tensor (α : Type) where
  shape : Shape
  data : List α
  deriving DecidableEq, Repr

namespace Tensor

variable {α : Type}

/-- The tensor of a shape over data that fill it exactly. -/
def of? (shape : Shape) (data : List α) : Except ShapeFault (Tensor α) :=
  match shape.count? with
  | none => .error (.overflow shape)
  | some expected =>
    if expected = data.length then .ok ⟨shape, data⟩
    else .error (.mismatch shape expected data.length)

/-- The tensor of one dimension over the data. -/
def ofList (data : List α) : Tensor α := ⟨[UInt64.ofNat data.length], data⟩

/-- Equality under a comparison of the data. -/
def same (eq : α → α → Bool) (a b : Tensor α) : Bool :=
  a.shape == b.shape && sameData a.data b.data
where
  /-- Equality of the data. -/
  sameData : List α → List α → Bool
    | [], [] => true
    | x :: xs, y :: ys => eq x y && sameData xs ys
    | _, _ => false

/-- The tensor as an array in a payload. -/
def toPayload (convert : α → Payload) (handle : Nat) (t : Tensor α) : Payload :=
  .array handle t.shape (t.data.map convert)

end Tensor

end TraceLog
