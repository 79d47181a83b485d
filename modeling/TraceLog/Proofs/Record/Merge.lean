import TraceLog.Proofs.Payload.Encodable
import TraceLog.Record.Request

/-!
# TraceLog.Proofs.Record.Merge

The data of a request.

A request normalizes each field by itself and merges the fields afterwards, so
it also normalizes what a later field replaces.  The data are the same as if
it merged first.

* `Request.merged` — the fields that survive, as they were given;
* `Request.data_eq_normalize_merged` — the data are their normalized form.
-/

namespace TraceLog

namespace Entries

variable {α β : Type} (f : α → β)

/-- Putting a value and mapping all of them may change places. -/
theorem insert_map (key : String) (value : α) (entries : Entries α) :
    Entries.insert key (f value) (entries.map fun entry => (entry.1, f entry.2)) =
      (entries.insert key value).map fun entry => (entry.1, f entry.2) := by
  induction entries with
  | nil => rfl
  | cons entry rest ih =>
      obtain ⟨k, v⟩ := entry
      rw [List.map_cons, insert, insert]
      split
      · rfl
      · split
        · rfl
        · rw [ih, List.map_cons]

theorem insertAll_map (entries : Entries α) (pairs : List (String × α)) :
    insertAll (entries.map fun entry => (entry.1, f entry.2))
        (pairs.map fun pair => (pair.1, f pair.2)) =
      (insertAll entries pairs).map fun entry => (entry.1, f entry.2) := by
  induction pairs generalizing entries with
  | nil => rfl
  | cons pair pairs ih =>
      rw [List.map_cons, insertAll_cons, insertAll_cons, ← ih, ← insert_map]

/-- Making a map of mapped values is mapping the values of the map. -/
theorem ofPairs_map (pairs : List (String × α)) :
    ofPairs (pairs.map fun pair => (pair.1, f pair.2)) =
      (ofPairs pairs).map fun entry => (entry.1, f entry.2) :=
  insertAll_map f [] pairs

end Entries

namespace Request

/-- The fields that survive, each under its name: the last one that was added
under a name, or else the fixed one. -/
def merged (r : Request) : Payload := .map (Entries.ofPairs r.fields)

/-- The data are the normalized form of what survives. -/
theorem data_eq_normalize_merged (r : Request) : r.data = r.merged.normalize := by
  rw [data, merged, Payload.normalize, Payload.normalizeValues_eq_map, Entries.ofPairs_map]

/-- **The data of a request have a document exactly if what survives is
encodable.** -/
theorem hasDocument_data_iff (r : Request) : r.data.HasDocument ↔ r.merged.Encodable := by
  rw [data_eq_normalize_merged, Payload.hasDocument_normalize_iff]

end Request

end TraceLog
