/-!
# TraceLog.Entries

Keyed entries in ascending order of their keys.

A map is the list of its entries, each key once, ascending.  Texts compare
character by character, which is also the order of their UTF-8 bytes.

* `Entries.insert` — puts a value under a key, replacing an earlier one;
* `Entries.ofPairs` — inserts pairs in turn, so that the last one wins;
* `Entries.find?` — the value under a key;
* `Entries.Ascending` — the order every one of these keeps.
-/

namespace TraceLog

/-- Entries of a map from texts. -/
abbrev Entries (α : Type) := List (String × α)

namespace Entries

variable {α β : Type}

/-- Puts `value` under `key`, in place of an earlier value. -/
def insert (key : String) (value : α) : Entries α → Entries α
  | [] => [(key, value)]
  | (k, v) :: rest =>
    if key = k then (key, value) :: rest
    else if key < k then (key, value) :: (k, v) :: rest
    else (k, v) :: insert key value rest

/-- Inserts the pairs in turn. -/
def insertAll (entries : Entries α) (pairs : List (String × α)) : Entries α :=
  pairs.foldl (fun entries pair => entries.insert pair.1 pair.2) entries

/-- The map of the pairs, the last of equal keys winning. -/
def ofPairs (pairs : List (String × α)) : Entries α := insertAll [] pairs

/-- The value under a key. -/
def find? (key : String) : Entries α → Option α
  | [] => none
  | (k, v) :: rest => if key = k then some v else find? key rest

/-- Every key is below all later ones. -/
def Ascending (entries : Entries α) : Prop := entries.Pairwise (·.1 < ·.1)

/-! ## Small lemmas -/

@[simp] theorem insertAll_nil (entries : Entries α) : entries.insertAll [] = entries := rfl

@[simp] theorem insertAll_cons (entries : Entries α) (pair : String × α)
    (pairs : List (String × α)) :
    entries.insertAll (pair :: pairs) = (entries.insert pair.1 pair.2).insertAll pairs := rfl

theorem find?_insert (key k : String) (value : α) (entries : Entries α) :
    (entries.insert key value).find? k = if k = key then some value else entries.find? k := by
  induction entries with
  | nil => simp [insert, find?]
  | cons e rest ih =>
    obtain ⟨k', v'⟩ := e
    unfold insert
    split
    · next h => subst h; by_cases hk : k = key <;> simp [find?, hk]
    · split
      · by_cases hk : k = key <;> simp [find?, hk]
      · simp only [find?, ih]
        by_cases hk : k = k'
        · have : k ≠ key := fun h => by simp_all
          simp [hk, ‹k = k'› ▸ this]
        · simp [hk]

/-- The keys after an insertion: those before it, and the key inserted. -/
theorem mem_keys_insert {key k : String} {value : α} {entries : Entries α} :
    k ∈ (entries.insert key value).map (·.1) ↔ k = key ∨ k ∈ entries.map (·.1) := by
  induction entries with
  | nil => simp [insert]
  | cons e rest ih =>
    obtain ⟨k', v'⟩ := e
    unfold insert
    split
    · next h => subst h; simp
    · split
      · simp
      · simp only [List.map_cons, List.mem_cons, ih]
        grind

theorem Ascending.nil : Ascending ([] : Entries α) := List.Pairwise.nil

theorem Ascending.insert {entries : Entries α} (h : entries.Ascending) (key : String) (value : α) :
    (entries.insert key value).Ascending := by
  induction entries with
  | nil => simp [Entries.insert, Ascending]
  | cons e rest ih =>
    obtain ⟨k, v⟩ := e
    have hrest : Ascending rest := (List.pairwise_cons.1 h).2
    have hlt : ∀ p ∈ rest, k < p.1 := (List.pairwise_cons.1 h).1
    unfold Entries.insert
    split
    · next hk => subst hk; exact List.pairwise_cons.2 ⟨hlt, hrest⟩
    · split
      · next hk =>
        refine List.pairwise_cons.2 ⟨?_, h⟩
        intro p hp
        rcases List.mem_cons.1 hp with rfl | hp
        · exact hk
        · exact String.lt_trans hk (hlt p hp)
      · next hne hnlt =>
        refine List.pairwise_cons.2 ⟨?_, ih hrest⟩
        intro p hp
        have hmem : p.1 ∈ (Entries.insert key value rest).map (·.1) := List.mem_map_of_mem hp
        rcases mem_keys_insert.1 hmem with hpk | hpk
        · rw [hpk]
          rcases Std.lt_trichotomy key k with hlt' | heq | hgt
          · exact absurd hlt' hnlt
          · exact absurd heq hne
          · exact hgt
        · obtain ⟨q, hq, hqe⟩ := List.mem_map.1 hpk
          exact hqe ▸ hlt q hq

theorem Ascending.insertAll {entries : Entries α} (h : entries.Ascending)
    (pairs : List (String × α)) : (entries.insertAll pairs).Ascending := by
  induction pairs generalizing entries with
  | nil => exact h
  | cons pair rest ih => exact ih (h.insert pair.1 pair.2)

/-- A map made from pairs is in ascending order. -/
theorem ascending_ofPairs (pairs : List (String × α)) : (ofPairs pairs).Ascending :=
  Ascending.nil.insertAll pairs

end Entries

end TraceLog
