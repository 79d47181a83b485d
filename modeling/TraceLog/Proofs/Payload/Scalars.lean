import Mathlib.Data.List.Forall2
import TraceLog.Payload.Encode
import TraceLog.Proofs.Json.Legible
import TraceLog.Proofs.Payload.Nesting

/-!
# TraceLog.Proofs.Payload.Scalars

The scalars of a payload, and those of its document.

Normalizing a payload puts lists in the place of arrays and leaves the scalars
as they are, one after the other.  Writing it as a document takes each scalar
to one of its own, so nothing but `null` is ever written as `null`, and a
number that is not finite stands in the way of the whole document.

* `Payload.scalars` — the scalars in order;
* `Payload.scalars_normalize` — normalization keeps them;
* `Payload.scalars_of_toJson` — so does the document, one by one;
* `Payload.any_isNonFinite_eq_false` — and those that are written are finite.
-/

namespace TraceLog

namespace Payload

mutual

/-- The scalars of a payload, in order; those of an array are those of its
elements. -/
def scalars : Payload → List Payload
  | .list items => itemsScalars items
  | .map entries => valuesScalars entries
  | .array _ _ elements => itemsScalars elements
  | .null => [.null]
  | .bool b => [.bool b]
  | .int n => [.int n]
  | .uint n => [.uint n]
  | .float x => [.float x]
  | .str s => [.str s]

/-- The scalars of the items. -/
def itemsScalars : List Payload → List Payload
  | [] => []
  | item :: rest => item.scalars ++ itemsScalars rest

/-- The scalars of the values of the entries. -/
def valuesScalars : List (String × Payload) → List Payload
  | [] => []
  | (_, value) :: rest => value.scalars ++ valuesScalars rest

end

/-- A floating-point number that is not finite. -/
def isNonFinite : Payload → Bool
  | .float x => !x.isFinite
  | _ => false

/-- Whether a number that is not finite stands anywhere in the tree. -/
def hasNonFinite (p : Payload) : Bool := p.scalars.any isNonFinite

theorem itemsScalars_eq_flatMap (items : List Payload) :
    itemsScalars items = items.flatMap scalars := by
  induction items with
  | nil => rfl
  | cons item items ih => rw [itemsScalars, ih, List.flatMap_cons]

theorem scalars_list (items : List Payload) :
    (Payload.list items).scalars = items.flatMap scalars :=
  itemsScalars_eq_flatMap items

/-! ## Normalized payloads -/

mutual

/-- **Normalizing keeps the scalars.** -/
theorem scalars_normalize (p : Payload) : p.normalize.scalars = p.scalars := by
  match p with
  | .null | .bool _ | .int _ | .uint _ | .float _ | .str _ => rfl
  | .list items => exact itemsScalars_normalizeAll items
  | .map entries => exact valuesScalars_normalizeValues entries
  | .array handle shape elements =>
    by_cases hcount : shape.count? = some elements.length
    · have hitems := itemsScalars_normalizeAll elements
      rw [normalizeAll_eq_map, itemsScalars_eq_flatMap, List.flatMap_map] at hitems
      rw [flatMap_normalize_array scalars_list handle hcount, hitems, scalars,
        itemsScalars_eq_flatMap]
    · rw [normalize, if_neg hcount]

/-- `scalars_normalize` for every item. -/
theorem itemsScalars_normalizeAll (items : List Payload) :
    itemsScalars (normalizeAll items) = itemsScalars items := by
  match items with
  | [] => rfl
  | item :: rest =>
    rw [normalizeAll, itemsScalars, scalars_normalize item, itemsScalars_normalizeAll rest,
      itemsScalars]

/-- `scalars_normalize` for every value of the entries. -/
theorem valuesScalars_normalizeValues (entries : List (String × Payload)) :
    valuesScalars (normalizeValues entries) = valuesScalars entries := by
  match entries with
  | [] => rfl
  | (key, value) :: rest =>
    rw [normalizeValues, valuesScalars, scalars_normalize value,
      valuesScalars_normalizeValues rest, valuesScalars]

end

/-! ## Documents -/

/-- The scalar is written as this one. -/
def WrittenAs (p : Payload) (document : Json) : Prop := p.toJson = .ok document

mutual

/-- **A document has the scalars of its payload**, each written as one of its
own. -/
theorem scalars_of_toJson (p : Payload) {document : Json} (h : p.toJson = .ok document) :
    List.Forall₂ WrittenAs p.scalars document.scalars := by
  match p with
  | .null | .bool _ | .int _ | .uint _ | .str _ =>
    cases h
    exact .cons rfl .nil
  | .float x =>
    by_cases hfinite : x.isFinite = true
    · have hwritten : WrittenAs (.float x) document := h
      rw [toJson, dif_pos hfinite] at h
      cases h
      exact .cons hwritten .nil
    · rw [toJson, dif_neg hfinite] at h
      cases h
  | .list items =>
    rw [toJson] at h
    cases hitems : itemsToJson items with
    | error fault => simp [hitems, bind, Except.bind] at h
    | ok documents =>
        rw [hitems] at h
        cases h
        exact scalars_of_itemsToJson items hitems
  | .map entries =>
    rw [toJson] at h
    cases hentries : entriesToJson entries with
    | error fault => simp [hentries, bind, Except.bind] at h
    | ok fields =>
        rw [hentries] at h
        cases h
        exact scalars_of_entriesToJson entries hentries
  | .array _ _ _ => cases h

/-- `scalars_of_toJson` for every item. -/
theorem scalars_of_itemsToJson (items : List Payload) {documents : List Json}
    (h : itemsToJson items = .ok documents) :
    List.Forall₂ WrittenAs (itemsScalars items) (Json.itemsScalars documents) := by
  match items with
  | [] =>
    cases h
    exact .nil
  | item :: rest =>
    rw [itemsToJson] at h
    cases hitem : item.toJson with
    | error fault => simp [hitem, bind, Except.bind] at h
    | ok document =>
        cases hrest : itemsToJson rest with
        | error fault => simp [hitem, hrest, bind, Except.bind] at h
        | ok others =>
            rw [hitem, hrest] at h
            cases h
            exact List.rel_append (scalars_of_toJson item hitem) (scalars_of_itemsToJson rest hrest)

/-- `scalars_of_toJson` for every value of the entries. -/
theorem scalars_of_entriesToJson (entries : List (String × Payload)) {fields : List (String × Json)}
    (h : entriesToJson entries = .ok fields) :
    List.Forall₂ WrittenAs (valuesScalars entries) (Json.valuesScalars fields) := by
  match entries with
  | [] =>
    cases h
    exact .nil
  | (key, value) :: rest =>
    rw [entriesToJson] at h
    cases hvalue : value.toJson with
    | error fault => simp [hvalue, bind, Except.bind] at h
    | ok document =>
        cases hrest : entriesToJson rest with
        | error fault => simp [hvalue, hrest, bind, Except.bind] at h
        | ok others =>
            rw [hvalue, hrest] at h
            cases h
            exact List.rel_append (scalars_of_toJson value hvalue)
              (scalars_of_entriesToJson rest hrest)

end

/-- A scalar that is written is finite. -/
theorem isNonFinite_eq_false_of_writtenAs {p : Payload} {document : Json}
    (h : WrittenAs p document) : p.isNonFinite = false := by
  cases p with
  | float x =>
      by_cases hfinite : x.isFinite = true
      · simp [isNonFinite, hfinite]
      · rw [WrittenAs, toJson, dif_neg hfinite] at h
        cases h
  | _ => rfl

/-- None of the scalars that are written is anything but finite. -/
theorem any_isNonFinite_eq_false {scalars : List Payload} {documents : List Json}
    (h : List.Forall₂ WrittenAs scalars documents) : scalars.any isNonFinite = false := by
  induction h with
  | nil => rfl
  | cons hwritten _ ih =>
      rw [List.any_cons, isNonFinite_eq_false_of_writtenAs hwritten, ih, Bool.or_false]

end Payload

end TraceLog
