import TraceLog.Proofs.Payload.RowMajor

/-!
# TraceLog.Proofs.Payload.Idempotence

Normalizing what is normalized.

An array that does not fill its shape stays where it is, also among the items
of a list that was built from another array.  So what comes out of
normalization may still hold arrays; but each of them is left in place again,
and everything else is in its final form.

* `Payload.normalize_of_isNormalized` — a payload without arrays stays as it is;
* `Payload.normalize_normalize` — so does one that has been normalized;
* `Payload.buildable_normalize` — and no list is built for it any more;
* `Payload.normalize?_idempotent` — normalizing twice is normalizing once.

Identity of payloads is that of their kinds, of the bits of their numbers and
of the handles of their arrays; `Payload.same` would not do, since a number
that is none differs from itself.
-/

namespace TraceLog

namespace Payload

/-! ## Payloads without arrays -/

mutual

/-- A payload without arrays is its own normalized form. -/
theorem normalize_of_isNormalized (p : Payload) (h : p.isNormalized = true) : p.normalize = p := by
  match p with
  | .null | .bool _ | .int _ | .uint _ | .float _ | .str _ => rfl
  | .list items =>
      rw [isNormalized] at h
      rw [normalize, normalizeAll_of_allNormalized items h]
  | .map entries =>
      rw [isNormalized] at h
      rw [normalize, normalizeValues_of_valuesNormalized entries h]
  | .array _ _ _ => contradiction

/-- `normalize_of_isNormalized` for every item. -/
theorem normalizeAll_of_allNormalized (items : List Payload) (h : allNormalized items = true) :
    normalizeAll items = items := by
  match items with
  | [] => rfl
  | item :: rest =>
      rw [allNormalized, Bool.and_eq_true] at h
      rw [normalizeAll, normalize_of_isNormalized item h.1, normalizeAll_of_allNormalized rest h.2]

/-- `normalize_of_isNormalized` for every value of the entries. -/
theorem normalizeValues_of_valuesNormalized (entries : List (String × Payload))
    (h : valuesNormalized entries = true) : normalizeValues entries = entries := by
  match entries with
  | [] => rfl
  | (key, value) :: rest =>
      rw [valuesNormalized, Bool.and_eq_true] at h
      rw [normalizeValues, normalize_of_isNormalized value h.1,
        normalizeValues_of_valuesNormalized rest h.2]

end

/-! ## Payloads that have been normalized -/

/-- A list is its own normalized form if each item is. -/
theorem normalize_list_eq_self_iff (items : List Payload) :
    (Payload.list items).normalize = .list items ↔ ∀ item ∈ items, item.normalize = item := by
  rw [normalize, Payload.list.injEq, normalizeAll_eq_map]
  conv_lhs => rhs; rw [← List.map_id items]
  exact List.map_inj_left

mutual

/-- **Normalizing twice is normalizing once.** -/
theorem normalize_normalize (p : Payload) : p.normalize.normalize = p.normalize := by
  match p with
  | .null | .bool _ | .int _ | .uint _ | .float _ | .str _ => rfl
  | .list items => rw [normalize, normalize, normalizeAll_normalizeAll items]
  | .map entries => rw [normalize, normalize, normalizeValues_normalizeValues entries]
  | .array handle shape elements =>
      by_cases hcount : shape.count? = some elements.length
      · -- The nested list holds the elements, each of them normalized.
        refine (normalize_array_iff (P := fun q => q.normalize = q) rfl normalize_list_eq_self_iff
          handle hcount).2 fun e he => ?_
        have hall := normalizeAll_normalizeAll elements
        simp only [normalizeAll_eq_map, List.map_map] at hall
        exact List.map_inj_left.1 hall e he
      · have hleft : (Payload.array handle shape elements).normalize =
            .array handle shape elements := by
          rw [normalize, if_neg hcount]
        rw [hleft, hleft]

/-- `normalize_normalize` for every item. -/
theorem normalizeAll_normalizeAll (items : List Payload) :
    normalizeAll (normalizeAll items) = normalizeAll items := by
  match items with
  | [] => rfl
  | item :: rest =>
      rw [normalizeAll, normalizeAll, normalize_normalize item, normalizeAll_normalizeAll rest]

/-- `normalize_normalize` for every value of the entries. -/
theorem normalizeValues_normalizeValues (entries : List (String × Payload)) :
    normalizeValues (normalizeValues entries) = normalizeValues entries := by
  match entries with
  | [] => rfl
  | (key, value) :: rest =>
      rw [normalizeValues, normalizeValues, normalize_normalize value,
        normalizeValues_normalizeValues rest]

end

/-! ## Lists that are built the second time -/

theorem valuesBuildable_iff {entries : List (String × Payload)} :
    valuesBuildable entries = true ↔ ∀ entry ∈ entries, entry.2.buildable = true := by
  induction entries with
  | nil => simp [valuesBuildable]
  | cons entry entries ih => simp [valuesBuildable, ih]

theorem buildable_list_iff (items : List Payload) :
    (Payload.list items).buildable = true ↔ ∀ item ∈ items, item.buildable = true := by
  rw [buildable, allBuildable_iff]

mutual

/-- Nothing of a normalized payload asks for a list: the arrays that are left
do not fill their shapes. -/
theorem buildable_normalize (p : Payload) : p.normalize.buildable = true := by
  match p with
  | .null | .bool _ | .int _ | .uint _ | .float _ | .str _ => rfl
  | .list items =>
      rw [normalize, normalizeAll_eq_map, buildable_list_iff, List.forall_mem_map]
      exact buildable_normalizeAll items
  | .map entries =>
      rw [normalize, normalizeValues_eq_map, buildable, valuesBuildable_iff, List.forall_mem_map]
      exact buildable_normalizeValues entries
  | .array handle shape elements =>
      by_cases hcount : shape.count? = some elements.length
      · exact (normalize_array_iff (P := fun q => q.buildable = true) rfl buildable_list_iff
          handle hcount).2 (buildable_normalizeAll elements)
      · rw [normalize, if_neg hcount, buildable, if_neg hcount]

/-- `buildable_normalize` for every item. -/
theorem buildable_normalizeAll (items : List Payload) :
    ∀ item ∈ items, item.normalize.buildable = true := by
  match items with
  | [] => exact List.forall_mem_nil _
  | item :: rest =>
      exact List.forall_mem_cons.2 ⟨buildable_normalize item, buildable_normalizeAll rest⟩

/-- `buildable_normalize` for every value of the entries. -/
theorem buildable_normalizeValues (entries : List (String × Payload)) :
    ∀ entry ∈ entries, entry.2.normalize.buildable = true := by
  match entries with
  | [] => exact List.forall_mem_nil _
  | (_, value) :: rest =>
      exact List.forall_mem_cons.2 ⟨buildable_normalize value, buildable_normalizeValues rest⟩

end

/-- A normalized payload is normalized to itself, and nothing gets in the way
of that. -/
theorem normalize?_normalize (p : Payload) : p.normalize.normalize? = some p.normalize := by
  rw [normalize?_of_buildable p.buildable_normalize, normalize_normalize]

theorem normalize?_of_isNormalized {p : Payload} (h : p.isNormalized = true) :
    p.normalize? = some p := by
  have hself := p.normalize?_normalize
  rwa [normalize_of_isNormalized p h] at hself

/-- **Normalization is idempotent, on the nose.**  Normalizing a normalized form
always comes to an end and gives that same form; normalizing twice is
normalizing once, also where that comes to no end; and a payload without arrays
is normalized to itself. -/
theorem normalize?_idempotent (p : Payload) :
    p.normalize.normalize? = some p.normalize ∧
      p.normalize?.bind normalize? = p.normalize? ∧
      (p.isNormalized = true → p.normalize? = some p) := by
  refine ⟨p.normalize?_normalize, ?_, normalize?_of_isNormalized⟩
  rw [normalize?]
  split
  · exact p.normalize?_normalize
  · rfl

/-- In a map, an array of two rows holds one that does not fill its shape, in
front of a number that is none: the rows become lists, and both are still there
after the second time. -/
theorem normalize?_idempotent_of_left_array :
    let nan : Payload := .float ⟨0x7ff8000000000000⟩
    let p : Payload := .map [("k", .array 0 [2, 1] [.array 1 [3] [nan], nan])]
    let q : Payload := .map [("k", .list [.list [.array 1 [3] [nan]], .list [nan]])]
    p.normalize? = some q ∧ q.isNormalized = false ∧ q.normalize? = some q ∧
      nan.isNormalized = true ∧ nan.normalize? = some nan := by
  intro nan p q
  have hfirst : p.normalize? = some q := rfl
  obtain ⟨-, htwice, -⟩ := normalize?_idempotent p
  rw [hfirst, Option.bind_some] at htwice
  exact ⟨hfirst, rfl, htwice, rfl, (normalize?_idempotent nan).2.2 rfl⟩

end Payload

end TraceLog
