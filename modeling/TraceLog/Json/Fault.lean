import TraceLog.Json.Basic
import TraceLog.Number.Format
import TraceLog.Text.Quoted

/-!
# TraceLog.Json.Fault

Why a text could not be read.

A text can end too early, be no JSON at all, or be JSON of the wrong shape.
Texts are read as a stream, so the first fault in the order of the text is the
one that is reported, whichever of the three it is.
-/

namespace TraceLog.Json

/-- What stands in the text where something else was expected. -/
inductive Found where
  | null
  | bool (b : Bool)
  | number (n : Number)
  | string (s : String)
  | sequence
  | map
  deriving DecidableEq, Repr

/-- How a document differs from the shape that was expected. -/
inductive Mismatch where
  /-- A value of the wrong kind. -/
  | kind (found : Found) (expected : String)
  /-- An integer that the expected type cannot hold. -/
  | range (n : Int) (expected : String)
  /-- A field that is required and absent. -/
  | missingField (name : String)
  /-- A field that is given twice. -/
  | duplicateField (name : String)
  /-- A name that is none of the choices. -/
  | unknownVariant (name : String) (choices : List String)
  /-- A sequence with too few elements for a record. -/
  | length (length : Nat) (record : String) (fields : Nat)
  deriving DecidableEq, Repr

/-- Why a text could not be read. -/
inductive Fault where
  /-- The text ends before the value does. -/
  | cutShort
  /-- The text is not JSON, or not JSON that is admitted here. -/
  | malformed
  /-- The text is JSON of the wrong shape. -/
  | mismatch (m : Mismatch)
  deriving DecidableEq, Repr

/-! ## Messages -/

/-- What was found, in a message. -/
def Found.describe : Found → String
  | .null => "null"
  | .bool b => "boolean `" ++ (if b then "true" else "false") ++ "`"
  | .number (.integer n _) => "integer `" ++ String.ofList (signedDecimal n) ++ "`"
  | .number (.float x _) =>
    "floating point `" ++ String.ofList (NumberFormat.data.render x) ++ "`"
  | .string s => "string " ++ Text.quoted s
  | .sequence => "sequence"
  | .map => "map"

/-- The choices, in a message. -/
def describeChoices : List String → String
  | [] => "there are no variants"
  | [a] => "expected `" ++ a ++ "`"
  | [a, b] => "expected `" ++ a ++ "` or `" ++ b ++ "`"
  | choices => "expected one of " ++ ", ".intercalate (choices.map fun c => "`" ++ c ++ "`")

/-- The message of a mismatch. -/
def Mismatch.message : Mismatch → String
  | .kind found expected => "invalid type: " ++ found.describe ++ ", expected " ++ expected
  | .range n expected =>
    "invalid value: integer `" ++ String.ofList (signedDecimal n) ++ "`, expected " ++ expected
  | .missingField name => "missing field `" ++ name ++ "`"
  | .duplicateField name => "duplicate field `" ++ name ++ "`"
  | .unknownVariant name choices =>
    "unknown variant `" ++ name ++ "`, " ++ describeChoices choices
  | .length n record fields =>
    "invalid length " ++ String.ofList (decimal n) ++ ", expected struct " ++ record ++ " with " ++
      String.ofList (decimal fields) ++ (if fields = 1 then " element" else " elements")

/-- The message of a fault. -/
def Fault.message : Fault → String
  | .cutShort => "unexpected end of text"
  | .malformed => "malformed text"
  | .mismatch m => m.message

end TraceLog.Json
