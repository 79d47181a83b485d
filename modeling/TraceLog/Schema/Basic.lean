import TraceLog.Json.Basic

/-!
# TraceLog.Schema.Basic

Shapes of documents.

A `Schema` says what a document has to look like, `Schema.Val` is the type of
the values it describes, and `Schema.toJson` writes such a value: the fields
of a record in the order of their declaration, the absent value as `null`, and
a number that is not finite as `null` too.
-/

namespace TraceLog

/-- The integer types of fields. -/
inductive Word where
  /-- Unsigned, 64 bits, counting things in memory. -/
  | size
  /-- Unsigned, 64 bits. -/
  | wide
  /-- Unsigned, 32 bits. -/
  | half
  /-- Signed, 64 bits. -/
  | signed
  deriving DecidableEq, Repr

namespace Word

/-- The name of the type in messages. -/
def label : Word → String
  | .size => "usize"
  | .wide => "u64"
  | .half => "u32"
  | .signed => "i64"

/-- The values of the type. -/
def Val : Word → Type
  | .size => UInt64
  | .wide => UInt64
  | .half => UInt32
  | .signed => Int64

/-- The least integer of the type. -/
def least : Word → Int
  | .signed => -9223372036854775808
  | _ => 0

/-- The least integer above those of the type. -/
def bound : Word → Int
  | .size => 18446744073709551616
  | .wide => 18446744073709551616
  | .half => 4294967296
  | .signed => 9223372036854775808

/-- An integer as a value of the type, its bits beyond the width dropped. -/
def ofInt : (w : Word) → Int → w.Val
  | .size, n => UInt64.ofNat n.toNat
  | .wide, n => UInt64.ofNat n.toNat
  | .half, n => UInt32.ofNat n.toNat
  | .signed, n => Int64.ofInt n

/-- An integer as a value of the type, if it fits. -/
def ofInt? (w : Word) (n : Int) : Option w.Val :=
  if w.least ≤ n ∧ n < w.bound then some (w.ofInt n) else none

/-- A value of the type as a number. -/
def toNumber : (w : Word) → w.Val → Number
  | .size, (n : UInt64) => .ofUInt64 n
  | .wide, (n : UInt64) => .ofUInt64 n
  | .half, (n : UInt32) => .ofUInt32 n
  | .signed, (n : Int64) => .ofInt64 n

end Word

mutual

/-- What a document has to look like. -/
inductive Schema where
  | bool
  | word (w : Word)
  | float
  | text
  | path
  /-- One of some names. -/
  | choice (names : List String)
  /-- A value or `null`. -/
  | optional (s : Schema)
  | list (s : Schema)
  /-- An object of any documents. -/
  | documents
  | record (name : String) (fields : Fields)

/-- The fields of a record, in order. -/
inductive Fields where
  | nil
  | cons (name : String) (s : Schema) (rest : Fields)

end

mutual

/-- The values a schema describes. -/
def Schema.Val : Schema → Type
  | .bool => Bool
  | .word w => w.Val
  | .float => Binary64
  | .text => String
  | .path => String
  | .choice names => { s : String // s ∈ names }
  | .optional s => Option s.Val
  | .list s => List s.Val
  | .documents => Entries Json
  | .record _ fields => fields.Val

/-- The values of the fields of a record. -/
def Fields.Val : Fields → Type
  | .nil => Unit
  | .cons _ s rest => s.Val × rest.Val

end

/-- The number of fields. -/
def Fields.length : Fields → Nat
  | .nil => 0
  | .cons _ _ rest => rest.length + 1

mutual

/-- A value as a document. -/
def Schema.toJson : (s : Schema) → s.Val → Json
  | .bool, (b : Bool) => .bool b
  | .word w, n => .number (w.toNumber n)
  | .float, (x : Binary64) => .ofFloat x
  | .text, (t : String) => .string t
  | .path, (t : String) => .string t
  | .choice _, c => .string c.val
  | .optional _, none => .null
  | .optional s, some v => s.toJson v
  | .list s, vs => .array (List.map s.toJson vs)
  | .documents, (entries : Entries Json) => .object entries
  | .record _ fields, v => .object (fields.toFields v)

/-- The values of the fields, under their names. -/
def Fields.toFields : (fields : Fields) → fields.Val → List (String × Json)
  | .nil, _ => []
  | .cons name s rest, (v, vs) => (name, s.toJson v) :: rest.toFields vs

end

end TraceLog
