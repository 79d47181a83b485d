import TraceLog.Json.Render
import TraceLog.Payload.Basic

/-!
# TraceLog.Payload.Encode

Payloads as JSON documents.

A floating-point number that is not finite and an array have no form as a
document.  The tree is walked in the order of its text, and the first of them
is the fault that is reported.
-/

namespace TraceLog

/-- Why a payload has no form as a document. -/
inductive EncodeFault where
  /-- A number that is not finite. -/
  | nonFinite (x : Binary64)
  /-- An array, which normalization left in place. -/
  | leftArray (shape : Shape)
  deriving DecidableEq, Repr

/-- The message of a fault. -/
def EncodeFault.message : EncodeFault → String
  | .nonFinite x =>
    "non-finite float " ++ String.ofList (NumberFormat.plain.render x) ++
      " has no JSON representation"
  | .leftArray shape =>
    "array-like value with shape " ++ shape.describe ++ " could not be normalized"

namespace Payload

mutual

/-- The payload as a document. -/
def toJson : Payload → Except EncodeFault Json
  | .null => .ok .null
  | .bool b => .ok (.bool b)
  | .int n => .ok (.number (.ofInt64 n))
  | .uint n => .ok (.number (.ofUInt64 n))
  | .float x => if h : x.isFinite = true then .ok (.number (.float x h)) else .error (.nonFinite x)
  | .str s => .ok (.string s)
  | .list items => do .ok (.array (← itemsToJson items))
  | .map entries => do .ok (.object (← entriesToJson entries))
  | .array _ shape _ => .error (.leftArray shape)

/-- The items as documents. -/
def itemsToJson : List Payload → Except EncodeFault (List Json)
  | [] => .ok []
  | item :: rest => do
    let item ← item.toJson
    let rest ← itemsToJson rest
    .ok (item :: rest)

/-- The entries as fields. -/
def entriesToJson : List (String × Payload) → Except EncodeFault (List (String × Json))
  | [] => .ok []
  | (key, value) :: rest => do
    let value ← value.toJson
    let rest ← entriesToJson rest
    .ok ((key, value) :: rest)

end

/-- The text of a payload. -/
def encode (payload : Payload) : Except EncodeFault (List Char) := payload.toJson.map Json.render

end Payload

end TraceLog
