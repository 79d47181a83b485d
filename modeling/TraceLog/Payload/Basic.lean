import TraceLog.Entries
import TraceLog.Number.Binary64
import TraceLog.Payload.Shape

/-!
# TraceLog.Payload.Basic

The values a record carries.

A payload is a tree of scalars, lists and maps, in which arrays may stand: a
shape with its elements in row-major order.  Arrays come from the host and are
shared, so each has a `handle`, and copies of an array have the same handle.
Nothing makes the shape of an array agree with the number of its elements.

* `Payload.isNormalized` — no array is left anywhere in the tree;
* `Payload.same` — equality of payloads, in which floating-point numbers
  compare as numbers and an array equals every copy of itself;
* `Payload.Ordered` — every map lists its keys in ascending order.
-/

namespace TraceLog

/-- A value carried by a record. -/
inductive Payload where
  | null
  | bool (b : Bool)
  | int (n : Int64)
  | uint (n : UInt64)
  | float (x : Binary64)
  | str (s : String)
  | list (items : List Payload)
  | map (entries : List (String × Payload))
  | array (handle : Nat) (shape : Shape) (elements : List Payload)

namespace Payload

instance : Inhabited Payload := ⟨.null⟩

/-- The shape of an array. -/
def shape? : Payload → Option Shape
  | .array _ shape _ => some shape
  | _ => none

mutual

/-- No array is left in the tree. -/
def isNormalized : Payload → Bool
  | .array _ _ _ => false
  | .list items => allNormalized items
  | .map entries => valuesNormalized entries
  | .null | .bool _ | .int _ | .uint _ | .float _ | .str _ => true

/-- No array is left in any of the items. -/
def allNormalized : List Payload → Bool
  | [] => true
  | item :: rest => item.isNormalized && allNormalized rest

/-- No array is left in any value of the entries. -/
def valuesNormalized : List (String × Payload) → Bool
  | [] => true
  | (_, value) :: rest => value.isNormalized && valuesNormalized rest

end

mutual

/-- Equality of payloads.  Different kinds never mix, floating-point numbers
compare as numbers, and arrays are equal if they are copies of one array or
agree in shape and elements. -/
def same : Payload → Payload → Bool
  | .null, .null => true
  | .bool a, .bool b => a == b
  | .int a, .int b => a == b
  | .uint a, .uint b => a == b
  | .float a, .float b => a.numEq b
  | .str a, .str b => a == b
  | .list a, .list b => allSame a b
  | .map a, .map b => entriesSame a b
  | .array h s a, .array h' s' b => h == h' || (s == s' && allSame a b)
  | _, _ => false

/-- Equality of lists of payloads. -/
def allSame : List Payload → List Payload → Bool
  | [], [] => true
  | a :: as, b :: bs => a.same b && allSame as bs
  | _, _ => false

/-- Equality of entries: the keys agree, and so do the values. -/
def entriesSame : List (String × Payload) → List (String × Payload) → Bool
  | [], [] => true
  | (k, a) :: as, (l, b) :: bs => k == l && a.same b && entriesSame as bs
  | _, _ => false

end

mutual

/-- Every map lists its keys in ascending order. -/
def Ordered : Payload → Prop
  | .list items => OrderedItems items
  | .map entries => Entries.Ascending entries ∧ OrderedValues entries
  | .array _ _ elements => OrderedItems elements
  | .null | .bool _ | .int _ | .uint _ | .float _ | .str _ => True

/-- `Ordered` for every item. -/
def OrderedItems : List Payload → Prop
  | [] => True
  | item :: rest => item.Ordered ∧ OrderedItems rest

/-- `Ordered` for every value of the entries. -/
def OrderedValues : List (String × Payload) → Prop
  | [] => True
  | (_, value) :: rest => value.Ordered ∧ OrderedValues rest

end

end Payload

end TraceLog
