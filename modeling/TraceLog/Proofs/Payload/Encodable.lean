import TraceLog.Payload.Encode
import TraceLog.Proofs.Payload.Nesting

/-!
# TraceLog.Proofs.Payload.Encodable

Which payloads have a document once they are normalized.

* `Payload.Encodable` — every array fills its shape and every floating-point
  number is finite, all the way down;
* `Payload.hasDocument_normalize_iff` — those are the payloads whose
  normalized form has a document.
-/

namespace TraceLog

namespace Payload

mutual

/-- Every array in the tree has as many elements as its shape calls for, and
every floating-point number in it is finite.  Lengths are numbers of 64 bits. -/
def Encodable : Payload → Prop
  | .float x => x.isFinite = true
  | .list items => EncodableItems items
  | .map entries => EncodableValues entries
  | .array _ shape elements =>
    (shape.product = elements.length ∧ elements.length < 18446744073709551616) ∧
      EncodableItems elements
  | .null | .bool _ | .int _ | .uint _ | .str _ => True

/-- `Encodable` for every item. -/
def EncodableItems : List Payload → Prop
  | [] => True
  | item :: rest => item.Encodable ∧ EncodableItems rest

/-- `Encodable` for every value of the entries. -/
def EncodableValues : List (String × Payload) → Prop
  | [] => True
  | (_, value) :: rest => value.Encodable ∧ EncodableValues rest

end

mutual

/-- `Encodable` can be decided. -/
def decideEncodable : (p : Payload) → Decidable p.Encodable
  | .float x => inferInstanceAs (Decidable (x.isFinite = true))
  | .list items => decideEncodableItems items
  | .map entries => decideEncodableValues entries
  | .array _ shape elements =>
    have := decideEncodableItems elements
    inferInstanceAs (Decidable ((shape.product = elements.length ∧
      elements.length < 18446744073709551616) ∧ EncodableItems elements))
  | .null | .bool _ | .int _ | .uint _ | .str _ => isTrue trivial

/-- `EncodableItems` can be decided. -/
def decideEncodableItems : (items : List Payload) → Decidable (EncodableItems items)
  | [] => isTrue trivial
  | item :: rest =>
    have := decideEncodable item
    have := decideEncodableItems rest
    inferInstanceAs (Decidable (item.Encodable ∧ EncodableItems rest))

/-- `EncodableValues` can be decided. -/
def decideEncodableValues : (entries : List (String × Payload)) →
    Decidable (EncodableValues entries)
  | [] => isTrue trivial
  | (_, value) :: rest =>
    have := decideEncodable value
    have := decideEncodableValues rest
    inferInstanceAs (Decidable (value.Encodable ∧ EncodableValues rest))

end

instance (p : Payload) : Decidable p.Encodable := decideEncodable p

/-- The payload has a document. -/
def HasDocument (p : Payload) : Prop := ∃ document, p.toJson = .ok document

/-! ## Documents of lists and maps -/

/-- Items have documents exactly if each of them has one. -/
theorem exists_itemsToJson_iff {items : List Payload} :
    (∃ documents, itemsToJson items = .ok documents) ↔ ∀ item ∈ items, item.HasDocument := by
  induction items with
  | nil => simp [itemsToJson]
  | cons item items ih =>
      rw [List.forall_mem_cons, ← ih, HasDocument]
      cases hitem : item.toJson with
      | error fault => simp [itemsToJson, hitem, bind, Except.bind]
      | ok document =>
          cases hitems : itemsToJson items with
          | error fault => simp [itemsToJson, hitem, hitems, bind, Except.bind]
          | ok documents => simp [itemsToJson, hitem, hitems, bind, Except.bind]

/-- Entries have fields exactly if each of their values has a document. -/
theorem exists_entriesToJson_iff {entries : List (String × Payload)} :
    (∃ fields, entriesToJson entries = .ok fields) ↔
      ∀ entry ∈ entries, entry.2.HasDocument := by
  induction entries with
  | nil => simp [entriesToJson]
  | cons entry entries ih =>
      obtain ⟨key, value⟩ := entry
      rw [List.forall_mem_cons, ← ih, HasDocument]
      cases hvalue : value.toJson with
      | error fault => simp [entriesToJson, hvalue, bind, Except.bind]
      | ok document =>
          cases hentries : entriesToJson entries with
          | error fault => simp [entriesToJson, hvalue, hentries, bind, Except.bind]
          | ok fields => simp [entriesToJson, hvalue, hentries, bind, Except.bind]

/-- A list has a document exactly if each item has one. -/
theorem hasDocument_list_iff (items : List Payload) :
    (Payload.list items).HasDocument ↔ ∀ item ∈ items, item.HasDocument := by
  rw [← exists_itemsToJson_iff, HasDocument, toJson]
  cases itemsToJson items <;> simp [bind, Except.bind]

/-- A map has a document exactly if each value has one. -/
theorem hasDocument_map_iff (entries : List (String × Payload)) :
    (Payload.map entries).HasDocument ↔ ∀ entry ∈ entries, entry.2.HasDocument := by
  rw [← exists_entriesToJson_iff, HasDocument, toJson]
  cases entriesToJson entries <;> simp [bind, Except.bind]

theorem hasDocument_null : HasDocument .null := ⟨_, rfl⟩

/-- An array that is left in place has no document. -/
theorem not_hasDocument_array (handle : Nat) (shape : Shape) (elements : List Payload) :
    ¬HasDocument (.array handle shape elements) := by
  rintro ⟨document, hdocument⟩
  rw [toJson] at hdocument
  contradiction

/-! ## Documents of normalized payloads -/

mutual

/-- **A normalized payload has a document exactly if every array in the payload
fills its shape and every number is finite.** -/
theorem hasDocument_normalize_iff (p : Payload) : p.normalize.HasDocument ↔ p.Encodable := by
  match p with
  | .null => exact ⟨fun _ => trivial, fun _ => ⟨_, rfl⟩⟩
  | .bool _ => exact ⟨fun _ => trivial, fun _ => ⟨_, rfl⟩⟩
  | .int _ => exact ⟨fun _ => trivial, fun _ => ⟨_, rfl⟩⟩
  | .uint _ => exact ⟨fun _ => trivial, fun _ => ⟨_, rfl⟩⟩
  | .str _ => exact ⟨fun _ => trivial, fun _ => ⟨_, rfl⟩⟩
  | .float x =>
      rw [normalize, HasDocument, toJson, Encodable]
      split <;> simp [*]
  | .list items =>
      rw [normalize, hasDocument_list_iff, normalizeAll_eq_map, List.forall_mem_map, Encodable]
      exact hasDocument_normalizeAll_iff items
  | .map entries =>
      rw [normalize, hasDocument_map_iff, normalizeValues_eq_map, List.forall_mem_map, Encodable]
      exact hasDocument_normalizeValues_iff entries
  | .array handle shape elements =>
      rw [Encodable, ← Shape.count?_eq_some_iff]
      by_cases hcount : shape.count? = some elements.length
      · rw [normalize_array_iff hasDocument_null hasDocument_list_iff handle hcount,
          hasDocument_normalizeAll_iff elements]
        simp [hcount]
      · rw [normalize, if_neg hcount]
        simp [hcount, not_hasDocument_array]

/-- `hasDocument_normalize_iff` for every item. -/
theorem hasDocument_normalizeAll_iff (items : List Payload) :
    (∀ item ∈ items, item.normalize.HasDocument) ↔ EncodableItems items := by
  match items with
  | [] => simp [EncodableItems]
  | item :: rest =>
      rw [List.forall_mem_cons, EncodableItems, hasDocument_normalize_iff item,
        hasDocument_normalizeAll_iff rest]

/-- `hasDocument_normalize_iff` for every value of the entries. -/
theorem hasDocument_normalizeValues_iff (entries : List (String × Payload)) :
    (∀ entry ∈ entries, entry.2.normalize.HasDocument) ↔ EncodableValues entries := by
  match entries with
  | [] => simp [EncodableValues]
  | (_, value) :: rest =>
      rw [List.forall_mem_cons, EncodableValues, hasDocument_normalize_iff value,
        hasDocument_normalizeValues_iff rest]

end

theorem encodableValues_iff {entries : List (String × Payload)} :
    EncodableValues entries ↔ ∀ entry ∈ entries, entry.2.Encodable := by
  rw [← hasDocument_normalizeValues_iff]
  simp only [hasDocument_normalize_iff]

end Payload

end TraceLog
