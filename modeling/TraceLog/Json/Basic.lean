import TraceLog.Entries
import TraceLog.Number.Binary64

/-!
# TraceLog.Json.Basic

JSON documents.

A number is an integer that fits 64 bits, signed or unsigned, or a finite
floating-point number: `Number` admits nothing else, so every document can be
written.  The fields of an object are a list; documents that were read, and
those with `Json.Ordered`, list them in ascending order of their names.
-/

namespace TraceLog

/-- A number that can stand in a document.  The integers are those from
`-2 ^ 63` to below `2 ^ 64`. -/
inductive Number where
  | integer (n : Int) (inRange : -9223372036854775808 ≤ n ∧ n < 18446744073709551616)
  | float (x : Binary64) (finite : x.isFinite = true)
  deriving DecidableEq, Repr

namespace Number

/-- A signed 64-bit integer as a number. -/
def ofInt64 (n : Int64) : Number :=
  .integer n.toInt ⟨n.le_toInt, Int.lt_trans n.toInt_lt (by decide)⟩

/-- An unsigned 64-bit integer as a number. -/
def ofUInt64 (n : UInt64) : Number :=
  .integer n.toNat ⟨by omega, by have := n.toNat_lt; omega⟩

/-- An unsigned 32-bit integer as a number. -/
def ofUInt32 (n : UInt32) : Number :=
  .integer n.toNat ⟨by omega, by have := n.toNat_lt; omega⟩

end Number

/-- A JSON document. -/
inductive Json where
  | null
  | bool (b : Bool)
  | number (n : Number)
  | string (s : String)
  | array (items : List Json)
  | object (fields : List (String × Json))

namespace Json

instance : Inhabited Json := ⟨.null⟩

/-- A floating-point number as a document; the numbers that are not finite
have no form of their own and become `null`. -/
def ofFloat (x : Binary64) : Json :=
  if h : x.isFinite = true then .number (.float x h) else .null

/-! ## Ordered documents -/

mutual

/-- The document with the fields of every object in ascending order, the last
of equal names winning. -/
def sorted : Json → Json
  | .array items => .array (sortedItems items)
  | .object fields => .object (sortedFields fields)
  | .null => .null
  | .bool b => .bool b
  | .number n => .number n
  | .string s => .string s

/-- `sorted` on every item. -/
def sortedItems : List Json → List Json
  | [] => []
  | item :: rest => item.sorted :: sortedItems rest

/-- `sorted` on every field, and the fields in order. -/
def sortedFields (fields : List (String × Json)) : List (String × Json) :=
  Entries.ofPairs (sortedValues fields)

/-- `sorted` on every value of the fields. -/
def sortedValues : List (String × Json) → List (String × Json)
  | [] => []
  | (name, value) :: rest => (name, value.sorted) :: sortedValues rest

end

mutual

/-- Every object lists its fields in ascending order. -/
def Ordered : Json → Prop
  | .array items => OrderedItems items
  | .object fields => Entries.Ascending fields ∧ OrderedValues fields
  | .null => True
  | .bool _ => True
  | .number _ => True
  | .string _ => True

/-- `Ordered` for every item. -/
def OrderedItems : List Json → Prop
  | [] => True
  | item :: rest => item.Ordered ∧ OrderedItems rest

/-- `Ordered` for every value of the fields. -/
def OrderedValues : List (String × Json) → Prop
  | [] => True
  | (_, value) :: rest => value.Ordered ∧ OrderedValues rest

end

mutual

/-- How many arrays and objects are nested in one another. -/
def depth : Json → Nat
  | .array items => depthItems items + 1
  | .object fields => depthValues fields + 1
  | .null => 0
  | .bool _ => 0
  | .number _ => 0
  | .string _ => 0

/-- The greatest depth of the items. -/
def depthItems : List Json → Nat
  | [] => 0
  | item :: rest => max item.depth (depthItems rest)

/-- The greatest depth of the values of the fields. -/
def depthValues : List (String × Json) → Nat
  | [] => 0
  | (_, value) :: rest => max value.depth (depthValues rest)

end

end Json

end TraceLog
