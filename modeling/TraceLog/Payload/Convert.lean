import TraceLog.Payload.Encode

/-!
# TraceLog.Payload.Convert

Payloads from other values.

An integer is signed wherever it fits; only the numbers above the signed range
are unsigned.  `Payload.ofJson` takes a document over, and
`Payload.reread` takes a payload through its document.
-/

namespace TraceLog.Payload

/-- An unsigned integer. -/
def ofUInt64 (n : UInt64) : Payload :=
  if n.toNat < 9223372036854775808 then .int (Int64.ofNat n.toNat) else .uint n

/-- A number of a document. -/
def ofNumber : Number → Payload
  | .integer n _ =>
    if n < 9223372036854775808 then .int (Int64.ofInt n) else .uint (UInt64.ofNat n.toNat)
  | .float x _ => .float x

/-- A value that may be absent. -/
def ofOption {α : Type} (convert : α → Payload) : Option α → Payload
  | none => .null
  | some a => convert a

/-- A list of values. -/
def ofList {α : Type} (convert : α → Payload) (items : List α) : Payload :=
  .list (items.map convert)

/-- Values under keys; the last of equal keys wins. -/
def ofPairs {α : Type} (convert : α → Payload) (pairs : List (String × α)) : Payload :=
  .map (Entries.ofPairs (pairs.map fun pair => (pair.1, convert pair.2)))

/-- The dimensions of an array as a list. -/
def ofShape (shape : Shape) : Payload := ofList ofUInt64 shape

mutual

/-- A document as a payload. -/
def ofJson : Json → Payload
  | .null => .null
  | .bool b => .bool b
  | .number n => ofNumber n
  | .string s => .str s
  | .array items => .list (ofItems items)
  | .object fields => .map (ofFields fields)

/-- Documents as payloads. -/
def ofItems : List Json → List Payload
  | [] => []
  | item :: rest => ofJson item :: ofItems rest

/-- Fields as entries. -/
def ofFields : List (String × Json) → List (String × Payload)
  | [] => []
  | (key, value) :: rest => (key, ofJson value) :: ofFields rest

end

/-- The payload of the document of a payload. -/
def reread (payload : Payload) : Except EncodeFault Payload := payload.toJson.map ofJson

end TraceLog.Payload
