import TraceLog.Schema.Basic

/-!
# TraceLog.Schema.Form

Types that are written and read by a schema.

A `Form` ties a type to a schema by a one-to-one map between its values and
those of the schema, and for some records it has values for the fields that a
document leaves out.  Forms are put together from those of the parts:

* `Form.size`, `Form.text`, … — the scalars;
* `Form.optional` / `Form.list` — values of another form;
* `RecordForm.nil` / `RecordForm.cons` / `RecordForm.form` — the fields of a
  record, as a tuple;
* `Form.via` — another type with the same values.
-/

namespace TraceLog

/-- How the values of a type are written and read. -/
structure Form (α : Type) where
  schema : Schema
  toVal : α → schema.Val
  ofVal : schema.Val → α
  ofVal_toVal : ∀ a, ofVal (toVal a) = a
  toVal_ofVal : ∀ v, toVal (ofVal v) = v
  /-- What stands in for the fields that a document leaves out, if anything. -/
  fallback : Option α := none

namespace Form

variable {α β : Type}

/-- The values of a schema, as they are. -/
def plain (s : Schema) : Form s.Val where
  schema := s
  toVal v := v
  ofVal v := v
  ofVal_toVal _ := rfl
  toVal_ofVal _ := rfl

/-- A truth value. -/
def bool : Form Bool := plain .bool

/-- An unsigned integer that counts things in memory. -/
def size : Form UInt64 := plain (.word .size)

/-- An unsigned integer of 64 bits. -/
def wide : Form UInt64 := plain (.word .wide)

/-- An unsigned integer of 32 bits. -/
def half : Form UInt32 := plain (.word .half)

/-- A signed integer of 64 bits. -/
def signed : Form Int64 := plain (.word .signed)

/-- A floating-point number. -/
def float : Form Binary64 := plain .float

/-- A text. -/
def text : Form String := plain .text

/-- A text that names a file. -/
def path : Form String := plain .path

/-- Any documents under names. -/
def documents : Form (Entries Json) := plain .documents

/-- A value that may be absent. -/
def optional (f : Form α) : Form (Option α) where
  schema := .optional f.schema
  toVal := Option.map f.toVal
  ofVal := Option.map f.ofVal
  ofVal_toVal
    | none => rfl
    | some a => congrArg some (f.ofVal_toVal a)
  toVal_ofVal
    | none => rfl
    | some v => congrArg some (f.toVal_ofVal v)

/-- A list of values. -/
def list (f : Form α) : Form (List α) where
  schema := .list f.schema
  toVal := List.map f.toVal
  ofVal := List.map f.ofVal
  ofVal_toVal as := by
    induction as with
    | nil => rfl
    | cons a as ih => exact congr (congrArg List.cons (f.ofVal_toVal a)) ih
  toVal_ofVal vs := by
    induction vs with
    | nil => rfl
    | cons v vs ih => exact congr (congrArg List.cons (f.toVal_ofVal v)) ih

/-- A type whose values are one-to-one those of a type with a form. -/
def via (f : Form β) (there : α → β) (back : β → α) (back_there : ∀ a, back (there a) = a)
    (there_back : ∀ b, there (back b) = b) : Form α where
  schema := f.schema
  toVal a := f.toVal (there a)
  ofVal v := back (f.ofVal v)
  ofVal_toVal a := (congrArg back (f.ofVal_toVal (there a))).trans (back_there a)
  toVal_ofVal v := (congrArg f.toVal (there_back (f.ofVal v))).trans (f.toVal_ofVal v)
  fallback := f.fallback.map back

/-- A form with values for the fields that a document leaves out. -/
def orElse (f : Form α) (fallback : α) : Form α := { f with fallback := some fallback }

/-- A value as a document. -/
def toJson (f : Form α) (a : α) : Json := f.schema.toJson (f.toVal a)

end Form

/-- A tuple as the fields of a record. -/
structure RecordForm (α : Type) where
  fields : Fields
  toVal : α → fields.Val
  ofVal : fields.Val → α
  ofVal_toVal : ∀ a, ofVal (toVal a) = a
  toVal_ofVal : ∀ v, toVal (ofVal v) = v

namespace RecordForm

variable {α β : Type}

/-- No fields. -/
def nil : RecordForm Unit where
  fields := .nil
  toVal _ := ()
  ofVal _ := ()
  ofVal_toVal _ := rfl
  toVal_ofVal _ := rfl

/-- A field in front of others. -/
def cons (name : String) (f : Form α) (rest : RecordForm β) : RecordForm (α × β) where
  fields := .cons name f.schema rest.fields
  toVal p := (f.toVal p.1, rest.toVal p.2)
  ofVal v := (f.ofVal v.1, rest.ofVal v.2)
  ofVal_toVal p := congr (congrArg Prod.mk (f.ofVal_toVal p.1)) (rest.ofVal_toVal p.2)
  toVal_ofVal v := congr (congrArg Prod.mk (f.toVal_ofVal v.1)) (rest.toVal_ofVal v.2)

/-- A record with a name. -/
def form (name : String) (r : RecordForm α) : Form α where
  schema := .record name r.fields
  toVal := r.toVal
  ofVal := r.ofVal
  ofVal_toVal := r.ofVal_toVal
  toVal_ofVal := r.toVal_ofVal

end RecordForm

end TraceLog
