import TraceLog.Json.Read
import TraceLog.Json.Render
import TraceLog.Schema.Form

/-!
# TraceLog.Schema.Read

Reading values of a schema.

Texts are read as a stream, so a value of the wrong kind is reported before
anything that stands behind it.  A record is read from an object, whose fields
come in any order and whose unknown fields are passed over, or from an array
of its fields in order.  A name is read from a string, or from an object that
gives `null` under it.

* `Schema.read` — a value of a schema, with the levels of nesting left;
* `Fields.read` — a record, with values for the fields left out;
* `Form.read` — a whole text as a value of a type.
-/

namespace TraceLog

open Json (Fault Mismatch Found Reader)
open Json.Reader

namespace Json.Reader

variable {α : Type}

/-! ## Scalars -/

/-- Reports the value in front as one of the wrong kind.  Scalars are read to
their end first, and a fault in them comes before this one. -/
def unexpected (p : Precision) (expected : String) : Reader α
  | [] => .error .cutShort
  | 'n' :: cs => do
    let _ ← word ['u', 'l', 'l'] () cs
    .error (.mismatch (.kind .null expected))
  | 't' :: cs => do
    let _ ← word ['r', 'u', 'e'] () cs
    .error (.mismatch (.kind (.bool true) expected))
  | 'f' :: cs => do
    let _ ← word ['a', 'l', 's', 'e'] () cs
    .error (.mismatch (.kind (.bool false) expected))
  | '"' :: cs => do
    let (s, _) ← string cs
    .error (.mismatch (.kind (.string s) expected))
  | '[' :: _ => .error (.mismatch (.kind .sequence expected))
  | '{' :: _ => .error (.mismatch (.kind .map expected))
  | c :: cs =>
    if startsNumber c then do
      let (n, _) ← number p (c :: cs)
      .error (.mismatch (.kind (.number n) expected))
    else .error .malformed

/-- A truth value. -/
def bool (p : Precision) (cs : List Char) : Except Fault (Bool × List Char) :=
  match skipBlank cs with
  | 't' :: cs => word ['r', 'u', 'e'] true cs
  | 'f' :: cs => word ['a', 'l', 's', 'e'] false cs
  | cs => unexpected p "a boolean" cs

/-- An integer of a type. -/
def integer (p : Precision) (w : Word) (cs : List Char) : Except Fault (w.Val × List Char) :=
  match skipBlank cs with
  | c :: cs =>
    if startsNumber c then do
      let (n, cs) ← number p (c :: cs)
      match n with
      | .integer n _ =>
        match w.ofInt? n with
        | some v => .ok (v, cs)
        | none => .error (.mismatch (.range n w.label))
      | .float _ _ => .error (.mismatch (.kind (.number n) w.label))
    else unexpected p w.label (c :: cs)
  | [] => .error .cutShort

/-- A floating-point number; an integer stands for the number nearest to it. -/
def float (p : Precision) (cs : List Char) : Except Fault (Binary64 × List Char) :=
  match skipBlank cs with
  | c :: cs =>
    if startsNumber c then do
      let (n, cs) ← number p (c :: cs)
      match n with
      | .integer n _ => .ok (Binary64.ofInt n, cs)
      | .float x _ => .ok (x, cs)
    else unexpected p "f64" (c :: cs)
  | [] => .error .cutShort

/-- A string. -/
def text (p : Precision) (expected : String) (cs : List Char) : Except Fault (String × List Char) :=
  match skipBlank cs with
  | '"' :: cs => string cs
  | cs => unexpected p expected cs

/-- `null`. -/
def unit (p : Precision) (cs : List Char) : Except Fault (Unit × List Char) :=
  match skipBlank cs with
  | 'n' :: cs => word ['u', 'l', 'l'] () cs
  | cs => unexpected p "unit" cs

/-- A string that is one of the names, its opening quotation mark read. -/
def oneOf (names : List String) (cs : List Char) :
    Except Fault ({ s : String // s ∈ names } × List Char) := do
  let (s, cs) ← string cs
  if h : s ∈ names then .ok (⟨s, h⟩, cs)
  else .error (.mismatch (.unknownVariant s names))

/-- One of the names, as a string or over `null`. -/
def choice (p : Precision) (names : List String) (depth : Nat) (cs : List Char) :
    Except Fault ({ s : String // s ∈ names } × List Char) :=
  match skipBlank cs with
  | [] => .error .cutShort
  | '"' :: cs => oneOf names cs
  | '{' :: cs => if depth = 0 then .error .malformed else overNull cs
  | _ => .error .malformed
where
  /-- A name over `null`, the opening brace read.  What is no string is no
  name. -/
  overNull (cs : List Char) : Except Fault ({ s : String // s ∈ names } × List Char) :=
    match skipBlank cs with
    | [] => .error .cutShort
    | '"' :: cs => do
      let (v, cs) ← oneOf names cs
      let (_, cs) ← colon cs
      let (_, cs) ← unit p cs
      match skipBlank cs with
      | [] => .error .cutShort
      | '}' :: cs => .ok (v, cs)
      | _ => .error .malformed
    | _ => .error .malformed

/-- A value or `null`. -/
def optional (value : Reader α) (cs : List Char) : Except Fault (Option α × List Char) :=
  match skipBlank cs with
  | 'n' :: cs => word ['u', 'l', 'l'] none cs
  | cs => do
    let (v, cs) ← value cs
    .ok (some v, cs)

/-- A value between marks, which takes one level of nesting, from the opening
mark on. -/
def enclosed (p : Precision) (mark : Char) (expected : String) (inside : Nat → Reader α)
    (depth : Nat) (cs : List Char) : Except Fault (α × List Char) :=
  match skipBlank cs with
  | [] => .error .cutShort
  | c :: cs =>
    if c = mark then
      match depth with
      | 0 => .error .malformed
      | depth + 1 => inside depth cs
    else unexpected p expected (c :: cs)

/-- Where the elements of a record stand: in front of the next one, or behind
the last one. -/
inductive Element where
  | next (rest : List Char)
  | done (rest : List Char)

/-- Passes over the separator in front of an element. -/
def element (first : Bool) (cs : List Char) : Except Fault Element :=
  match skipBlank cs with
  | [] => .error .cutShort
  | ']' :: cs => .ok (.done cs)
  | cs =>
    if first then .ok (.next cs)
    else match cs with
      | ',' :: cs =>
        match skipBlank cs with
        | [] => .error .cutShort
        | ']' :: _ => .error .malformed
        | cs => .ok (.next cs)
      | _ => .error .malformed

/-- The closing bracket behind all elements of a record. -/
def closing (value : α) (cs : List Char) : Except Fault (α × List Char) :=
  match skipBlank cs with
  | [] => .error .cutShort
  | ']' :: cs => .ok (value, cs)
  | _ => .error .malformed

end Json.Reader

/-! ## Records being read -/

/-- The fields that have been read so far. -/
def Fields.Partial : Fields → Type
  | .nil => Unit
  | .cons _ s rest => Option s.Val × rest.Partial

/-- No field has been read. -/
def Fields.none : (fields : Fields) → fields.Partial
  | .nil => ()
  | .cons _ _ rest => (Option.none, rest.none)

/-- The value of a field that may be left out. -/
def Schema.absent? : (s : Schema) → Option s.Val
  | .optional _ => some Option.none
  | _ => Option.none

/-- The record, once all fields of the text have been read.  The first field
that is missing is reported. -/
def Fields.complete : (fields : Fields) → (fallback : Option fields.Val) → fields.Partial →
    Except Fault fields.Val
  | .nil, _, _ => .ok ()
  | .cons name s rest, fallback, (read, more) => do
    let v ← match read, fallback, s.absent? with
      | some v, _, _ => .ok v
      | Option.none, some (v, _), _ => .ok v
      | Option.none, Option.none, some v => .ok v
      | Option.none, Option.none, Option.none => .error (.mismatch (.missingField name))
    let vs ← rest.complete (fallback.map (·.2)) more
    .ok (v, vs)

/-! ## Values -/

/-- A record, by readers of the elements of an array and of the fields of an
object, given the levels of nesting that are left inside. -/
def Json.Reader.record {α : Type} (p : Precision) (name : String)
    (elements fields : Nat → Reader α) (depth : Nat) (cs : List Char) :
    Except Fault (α × List Char) :=
  match skipBlank cs, depth with
  | '[' :: _, 0 => .error .malformed
  | '{' :: _, 0 => .error .malformed
  | '[' :: cs, depth + 1 => elements depth cs
  | '{' :: cs, depth + 1 => fields depth cs
  | cs, _ => unexpected p ("struct " ++ name) cs

/-- The fields of an object in the order of the text, by a reader of the value
under a key; `complete` settles those left out. -/
def Json.Reader.fieldsOf {α σ : Type} (value : String → σ → Reader σ) (start : σ)
    (complete : σ → Except Fault α) (cs : List Char) : Except Fault (α × List Char) := do
  let (read, cs) ← Json.Reader.fields (keyed value) start cs
  let v ← complete read
  .ok (v, cs)
where
  /-- A field: its key, and what the key says of its value. -/
  keyed (value : String → σ → Reader σ) (read : σ) : Reader σ := fun cs => do
    let (key, cs) ← name cs
    value key read cs

mutual

/-- A value of a schema, with at most `depth` levels of nesting. -/
def Schema.read (p : Precision) : (s : Schema) → (depth : Nat) → Reader s.Val
  | .bool, _, cs => Json.Reader.bool p cs
  | .word w, _, cs => integer p w cs
  | .float, _, cs => Json.Reader.float p cs
  | .text, _, cs => Json.Reader.text p "a string" cs
  | .path, _, cs => Json.Reader.text p "path string" cs
  | .choice names, depth, cs => Json.Reader.choice p names depth cs
  | .optional s, depth, cs => Json.Reader.optional (s.read p depth) cs
  | .list s, depth, cs =>
    Json.Reader.enclosed p '[' "a sequence" (fun depth => items (s.read p depth)) depth cs
  | .documents, depth, cs =>
    Json.Reader.enclosed p '{' "a map"
      (fun depth => Json.Reader.fields (anyField (value p depth)) []) depth cs
  | .record name fields, depth, cs =>
    Json.Reader.record p name
      (fields.readElements p name 0 fields.length Option.none)
      (fun depth => Json.Reader.fieldsOf (fields.readValue p depth) fields.none
        (fields.complete Option.none))
      depth cs

/-- The value under a key, added to those read before.  A field that has been
read already is reported before its value is looked at. -/
def Fields.readValue (p : Precision) : (fields : Fields) → (depth : Nat) → (key : String) →
    fields.Partial → Reader fields.Partial
  | .nil, _, _, read, cs => do
    let (_, cs) ← colon cs
    let (_, cs) ← skip cs
    .ok (read, cs)
  | .cons name s rest, depth, key, (v, more), cs =>
    if key = name then
      match v with
      | some _ => .error (.mismatch (.duplicateField name))
      | Option.none => do
        let (_, cs) ← colon cs
        let (v, cs) ← s.read p depth cs
        .ok ((some v, more), cs)
    else do
      let (more, cs) ← rest.readValue p depth key more cs
      .ok ((v, more), cs)

/-- The elements of an array as fields in order, from field `index` of
`total`. -/
def Fields.readElements (p : Precision) : (fields : Fields) → (record : String) →
    (index total : Nat) → (fallback : Option fields.Val) → (depth : Nat) → Reader fields.Val
  | .nil, _, _, _, _, _, cs => closing () cs
  | .cons _ s rest, record, index, total, fallback, depth, cs => do
    match ← element (index == 0) cs with
    | .next cs =>
      let (v, cs) ← s.read p depth cs
      let (vs, cs) ← rest.readElements p record (index + 1) total (fallback.map (·.2)) depth cs
      .ok ((v, vs), cs)
    | .done cs =>
      match fallback with
      | some v => .ok (v, cs)
      | Option.none => .error (.mismatch (.length index record total))

end

/-- A record, with values for the fields that the text leaves out. -/
def Fields.read (p : Precision) (fields : Fields) (name : String)
    (fallback : Option fields.Val) : (depth : Nat) → Reader fields.Val :=
  Json.Reader.record p name
    (fields.readElements p name 0 fields.length fallback)
    (fun depth => Json.Reader.fieldsOf (fields.readValue p depth) fields.none
      (fields.complete fallback))

/-- A value of a schema; a record may have values for the fields that the text
leaves out. -/
def Schema.readOr (p : Precision) : (s : Schema) → (fallback : Option s.Val) → (depth : Nat) →
    Reader s.Val
  | .record name fields, fallback, depth, cs => fields.read p name fallback depth cs
  | s, _, depth, cs => s.read p depth cs

namespace Form

variable {α : Type}

/-- Reads a whole text. -/
def read (f : Form α) (text : String) (p : Precision := .bestEffort) : Except Fault α :=
  (Json.readWith (f.schema.readOr p (f.fallback.map f.toVal) Json.nestingLimit) text).map f.ofVal

/-- The compact text of a value. -/
def render (f : Form α) (a : α) : List Char := (f.toJson a).render

end Form

end TraceLog
