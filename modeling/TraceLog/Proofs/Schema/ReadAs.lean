import Mathlib.Data.List.Forall2
import TraceLog.Proofs.Json.Legible
import TraceLog.Schema.Choice

/-!
# TraceLog.Proofs.Schema.ReadAs

What values are read as from their texts.

All of a value is read back but for its floating-point numbers and its free
documents, and these depend on the precision of the reader.

* `Schema.ReadAs` — the value that the text of a value is read as;
* `Schema.readAs_nearest` — it is the same one, if the reader takes the nearest
  numbers;
* `Form.ReadAs` — the same for the values of a type, with a lemma for each way to
  put a form together.
-/

namespace TraceLog

/-! ## Schemas -/

mutual

/-- The other value is the same but for floating-point numbers, each of which is
what the text of the number in its place is read as. -/
def Schema.ReadAs (p : Precision) : (s : Schema) → (v w : s.Val) → Prop
  | .float, (x : Binary64), y => x.ReadAs p y
  | .documents, (entries : Entries Json), others => (Json.object entries).ReadAs p (.object others)
  | .optional s, v, w => Option.Rel (s.ReadAs p) v w
  | .list s, vs, ws => List.Forall₂ (s.ReadAs p) vs ws
  | .record _ fields, v, w => fields.ReadAs p v w
  | .bool, v, w => w = v
  | .word _, v, w => w = v
  | .text, v, w => w = v
  | .path, v, w => w = v
  | .choice _, v, w => w = v

/-- `Schema.ReadAs` for every field. -/
def Fields.ReadAs (p : Precision) : (fields : Fields) → (v w : fields.Val) → Prop
  | .nil, _, _ => True
  | .cons _ s rest, (v, vs), (w, ws) => s.ReadAs p v w ∧ rest.ReadAs p vs ws

end

mutual

/-- Every value is read back by a reader that takes the nearest numbers. -/
theorem Schema.readAs_nearest (s : Schema) (v : s.Val) : s.ReadAs .nearest v v := by
  match s, v with
  | .float, x => exact Binary64.legible_nearest x
  | .documents, entries => exact (Json.legible_nearest (.object entries)).readAs
  | .optional s, none => exact .none
  | .optional s, some v => exact .some (s.readAs_nearest v)
  | .list s, vs => exact List.forall₂_same.2 fun v _ => s.readAs_nearest v
  | .record _ fields, v => exact fields.readAs_nearest v
  | .bool, _ | .word _, _ | .text, _ | .path, _ | .choice _, _ => rfl

/-- `Schema.readAs_nearest` for every field. -/
theorem Fields.readAs_nearest (fields : Fields) (v : fields.Val) : fields.ReadAs .nearest v v := by
  match fields, v with
  | .nil, _ => trivial
  | .cons _ s rest, (v, vs) => exact ⟨s.readAs_nearest v, rest.readAs_nearest vs⟩

end

/-! ## Types -/

variable {α β : Type} {p : Precision}

namespace Form

/-- The text of the value is read as the other value. -/
def ReadAs (p : Precision) (f : Form α) (a b : α) : Prop :=
  f.schema.ReadAs p (f.toVal a) (f.toVal b)

@[simp] theorem readAs_bool (b : Bool) : bool.ReadAs p b b := rfl

@[simp] theorem readAs_size (n : UInt64) : size.ReadAs p n n := rfl

@[simp] theorem readAs_wide (n : UInt64) : wide.ReadAs p n n := rfl

@[simp] theorem readAs_half (n : UInt32) : half.ReadAs p n n := rfl

@[simp] theorem readAs_signed (n : Int64) : signed.ReadAs p n n := rfl

@[simp] theorem readAs_text (t : String) : text.ReadAs p t t := rfl

@[simp] theorem readAs_path (t : String) : path.ReadAs p t t := rfl

@[simp] theorem readAs_named [Named α] (a : α) : Named.form.ReadAs p a a := rfl

@[simp] theorem readAs_float {x y : Binary64} : float.ReadAs p x y ↔ x.ReadAs p y := Iff.rfl

@[simp] theorem readAs_optional {f : Form α} {a : Option α} :
    f.optional.ReadAs p a a ↔ ∀ x ∈ a, f.ReadAs p x x := by
  cases a <;> simp [ReadAs, optional, Schema.ReadAs]

@[simp] theorem readAs_list {f : Form α} {as : List α} :
    f.list.ReadAs p as as ↔ ∀ a ∈ as, f.ReadAs p a a := by
  simp [ReadAs, list, Schema.ReadAs, List.forall₂_same]

@[simp] theorem readAs_via {f : Form β} {there : α → β} {back : β → α}
    {back_there : ∀ a, back (there a) = a} {there_back : ∀ b, there (back b) = b} {a b : α} :
    (f.via there back back_there there_back).ReadAs p a b ↔ f.ReadAs p (there a) (there b) :=
  Iff.rfl

@[simp] theorem readAs_orElse {f : Form α} {fallback a b : α} :
    (f.orElse fallback).ReadAs p a b ↔ f.ReadAs p a b := Iff.rfl

end Form

namespace RecordForm

/-- Every field is read as the other one. -/
def ReadAs (p : Precision) (r : RecordForm α) (a b : α) : Prop :=
  r.fields.ReadAs p (r.toVal a) (r.toVal b)

@[simp] theorem readAs_nil (a : Unit) : nil.ReadAs p a a := trivial

@[simp] theorem readAs_cons {name : String} {f : Form α} {rest : RecordForm β} {a b : α × β} :
    (cons name f rest).ReadAs p a b ↔ f.ReadAs p a.1 b.1 ∧ rest.ReadAs p a.2 b.2 := Iff.rfl

@[simp] theorem readAs_form {name : String} {r : RecordForm α} {a b : α} :
    (r.form name).ReadAs p a b ↔ r.ReadAs p a b := Iff.rfl

end RecordForm

end TraceLog
