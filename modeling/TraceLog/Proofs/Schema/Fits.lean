import TraceLog.Proofs.Json.Accepted
import TraceLog.Schema.Choice
import TraceLog.Schema.Read

/-!
# TraceLog.Proofs.Schema.Fits

What a schema needs for its values to be told from their texts.

A schema is unambiguous if a text cannot mean two of its values: a field has a
name of its own, and `null` is one thing only.  A value fits if it survives its
text: a number that is not finite would be written as `null`, and free
documents have to be ordered and not nested too deep for a reader.

* `Schema.unambiguous` — no text of the schema means two things;
* `Schema.Fits` — the values that survive their texts;
* `Form.Fits` — the same for the values of a type, with a lemma for each way
  to put a form together.
-/

namespace TraceLog

/-! ## Schemas -/

/-- The names of the fields, in order. -/
def Fields.names : Fields → List String
  | .nil => []
  | .cons name _ rest => name :: rest.names

/-- Whether `null` is a value. -/
def Schema.acceptsNull : Schema → Bool
  | .optional _ => true
  | _ => false

mutual

/-- Every field of a record has a name of its own, and an optional value is not
optional once more. -/
def Schema.unambiguous : Schema → Bool
  | .optional s => !s.acceptsNull && s.unambiguous
  | .list s => s.unambiguous
  | .record _ fields => fields.unambiguous
  | _ => true

/-- `Schema.unambiguous` for the fields of a record. -/
def Fields.unambiguous : Fields → Bool
  | .nil => true
  | .cons name s rest => !rest.names.contains name && s.unambiguous && rest.unambiguous

end

mutual

/-- Floating-point numbers are finite, and free documents are ordered; lists,
records and documents are nested at most so deep. -/
def Schema.Fits : (s : Schema) → (depth : Nat) → s.Val → Prop
  | .float, _, (x : Binary64) => x.isFinite = true
  | .optional _, _, none => True
  | .optional s, depth, some v => s.Fits depth v
  | .list _, 0, _ => False
  | .list s, depth + 1, (vs : List s.Val) => ∀ v ∈ vs, s.Fits depth v
  | .documents, depth, (entries : Entries Json) => (Json.object entries).Fits depth
  | .record _ _, 0, _ => False
  | .record _ fields, depth + 1, v => fields.Fits depth v
  | .bool, _, _ => True
  | .word _, _, _ => True
  | .text, _, _ => True
  | .path, _, _ => True
  | .choice _, _, _ => True

/-- `Schema.Fits` for every field. -/
def Fields.Fits : (fields : Fields) → (depth : Nat) → fields.Val → Prop
  | .nil, _, _ => True
  | .cons _ s rest, depth, (v, vs) => s.Fits depth v ∧ rest.Fits depth vs

end

/-- A value is written as `null` only where that is a value. -/
theorem Schema.toJson_ne_null {s : Schema} (h : s.acceptsNull = false) {depth : Nat} {v : s.Val}
    (hv : s.Fits depth v) : s.toJson v ≠ .null := by
  cases s with
  | optional s => contradiction
  | float =>
      have hfinite : Binary64.isFinite v = true := hv
      simp [toJson, Json.ofFloat, hfinite]
  | _ => simp [toJson]

/-! ## Types -/

namespace Form

variable {α β : Type} {depth : Nat}

/-- The value survives its text. -/
def Fits (f : Form α) (depth : Nat) (a : α) : Prop := f.schema.Fits depth (f.toVal a)

@[simp] theorem fits_bool (b : Bool) : bool.Fits depth b := trivial

@[simp] theorem fits_size (n : UInt64) : size.Fits depth n := trivial

@[simp] theorem fits_wide (n : UInt64) : wide.Fits depth n := trivial

@[simp] theorem fits_half (n : UInt32) : half.Fits depth n := trivial

@[simp] theorem fits_signed (n : Int64) : signed.Fits depth n := trivial

@[simp] theorem fits_text (t : String) : text.Fits depth t := trivial

@[simp] theorem fits_path (t : String) : path.Fits depth t := trivial

@[simp] theorem fits_named [Named α] (a : α) : Named.form.Fits depth a := trivial

@[simp] theorem fits_float {x : Binary64} : float.Fits depth x ↔ x.isFinite = true := Iff.rfl

@[simp] theorem fits_documents {entries : Entries Json} :
    documents.Fits depth entries ↔ (Json.object entries).Fits depth := Iff.rfl

@[simp] theorem fits_optional {f : Form α} {a : Option α} :
    f.optional.Fits depth a ↔ ∀ x ∈ a, f.Fits depth x := by
  cases a with
  | none => simp [Fits, optional, Schema.Fits]
  | some a => simp [Fits, optional, Schema.Fits]

@[simp] theorem fits_list {f : Form α} {as : List α} :
    f.list.Fits (depth + 1) as ↔ ∀ a ∈ as, f.Fits depth a := List.forall_mem_map

@[simp] theorem fits_via {f : Form β} {there : α → β} {back : β → α}
    {back_there : ∀ a, back (there a) = a} {there_back : ∀ b, there (back b) = b} {a : α} :
    (f.via there back back_there there_back).Fits depth a ↔ f.Fits depth (there a) := Iff.rfl

@[simp] theorem fits_orElse {f : Form α} {fallback a : α} :
    (f.orElse fallback).Fits depth a ↔ f.Fits depth a := Iff.rfl

end Form

namespace RecordForm

variable {α β : Type} {depth : Nat}

/-- Every field survives its text. -/
def Fits (r : RecordForm α) (depth : Nat) (a : α) : Prop := r.fields.Fits depth (r.toVal a)

@[simp] theorem fits_nil (a : Unit) : nil.Fits depth a := trivial

@[simp] theorem fits_cons {name : String} {f : Form α} {rest : RecordForm β} {p : α × β} :
    (cons name f rest).Fits depth p ↔ f.Fits depth p.1 ∧ rest.Fits depth p.2 := Iff.rfl

@[simp] theorem fits_form {name : String} {r : RecordForm α} {a : α} :
    (r.form name).Fits (depth + 1) a ↔ r.Fits depth a := Iff.rfl

end RecordForm

end TraceLog
