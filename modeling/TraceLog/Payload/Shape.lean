import TraceLog.Number.Format

/-!
# TraceLog.Payload.Shape

The dimensions of an array, outermost first, and the number of elements they
call for.

`Shape.count?` multiplies in 64 bits: it stops at the first partial product
that does not fit, but a dimension of zero makes the count zero wherever it
stands.  `Shape.product` is the same number without the limit of 64 bits.
-/

namespace TraceLog

/-- The dimensions of an array, outermost first. -/
abbrev Shape := List UInt64

/-- Why data do not form an array of a shape. -/
inductive ShapeFault where
  /-- The shape calls for another number of elements. -/
  | mismatch (shape : Shape) (expected actual : Nat)
  /-- The shape calls for more elements than 64 bits can count. -/
  | overflow (shape : Shape)
  deriving DecidableEq, Repr

namespace Shape

/-- The product of all dimensions. -/
def product : Shape → Nat
  | [] => 1
  | dim :: dims => dim.toNat * product dims

/-- A product, if it fits 64 bits. -/
def times? (a b : Nat) : Option Nat := if a * b < 18446744073709551616 then some (a * b) else none

/-- The partial products of the dimensions, each of which has to fit. -/
def countFrom? (count : Nat) : Shape → Option Nat
  | [] => some count
  | dim :: dims =>
    match times? count dim.toNat with
    | some count => countFrom? count dims
    | none => none

/-- The number of elements of a shape, `none` if 64 bits cannot count them. -/
def count? (shape : Shape) : Option Nat :=
  if shape.contains 0 then some 0 else countFrom? 1 shape

/-- The dimensions in brackets. -/
def describe (shape : Shape) : String :=
  "[" ++ ", ".intercalate (shape.map fun dim => String.ofList (decimal dim.toNat)) ++ "]"

/-- The most entries one list can have: an entry takes 32 bytes, and a block
of memory has at most `2 ^ 63 - 1`. -/
def maxEntries : Nat := 9223372036854775807 / 32

/-- Whether the lists of this shape can be built.  Lists inside an empty list
are never asked for. -/
def buildable : Shape → Bool
  | [] => true
  | dim :: dims => decide (dim.toNat ≤ maxEntries) && (dim == 0 || buildable dims)

end Shape

/-- The message of a fault. -/
def ShapeFault.message : ShapeFault → String
  | .mismatch shape expected actual =>
    "Shape " ++ shape.describe ++ " needs " ++ String.ofList (decimal expected) ++
      " elements, got " ++ String.ofList (decimal actual)
  | .overflow shape => "Shape " ++ shape.describe ++ " overflows the element count"

end TraceLog
