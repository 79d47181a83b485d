import TraceLog.Json.Read

/-!
# TraceLog.Proofs.Json.Accepted

What the readers give.

Whatever text they are given, the readers of arrays and objects keep what the
reader of an item or of a field keeps.  So a document that was read is ordered
and no deeper than the levels that were left, and it can be written and read
again.

* `Json.Reader.forall_of_items` / `of_fields` — arrays and objects, for any
  reader of an item or of a field;
* `Json.Fits` — the documents that a reader with some levels of nesting gives;
* `Json.Reader.fits_of_value` — it gives no others.
-/

namespace TraceLog

namespace Entries

variable {α : Type} {entries : Entries α} {key : String} {value : α}

/-- An insertion adds one entry at most. -/
theorem mem_of_mem_insert {entry : String × α} (h : entry ∈ entries.insert key value) :
    entry = (key, value) ∨ entry ∈ entries := by
  induction entries with
  | nil => simpa [insert] using h
  | cons first others ih =>
      rw [insert] at h
      split at h
      · rcases List.mem_cons.1 h with rfl | hmem
        · exact .inl rfl
        · exact .inr (List.mem_cons_of_mem _ hmem)
      · split at h
        · exact List.mem_cons.1 h
        · rcases List.mem_cons.1 h with rfl | hmem
          · exact .inr List.mem_cons_self
          · exact (ih hmem).imp_right (List.mem_cons_of_mem _)

end Entries

namespace Json

/-! ## Documents that can be given -/

theorem orderedItems_iff {items : List Json} :
    OrderedItems items ↔ ∀ item ∈ items, item.Ordered := by
  induction items with
  | nil => simp [OrderedItems]
  | cons item items ih => rw [OrderedItems, ih, List.forall_mem_cons]

theorem orderedValues_iff {entries : List (String × Json)} :
    OrderedValues entries ↔ ∀ entry ∈ entries, entry.2.Ordered := by
  induction entries with
  | nil => simp [OrderedValues]
  | cons entry entries ih => rw [OrderedValues, ih, List.forall_mem_cons]

theorem depthItems_le_iff {items : List Json} {depth : Nat} :
    depthItems items ≤ depth ↔ ∀ item ∈ items, item.depth ≤ depth := by
  induction items with
  | nil => simp [depthItems]
  | cons item items ih => rw [depthItems, Nat.max_le, ih, List.forall_mem_cons]

theorem depthValues_le_iff {entries : List (String × Json)} {depth : Nat} :
    depthValues entries ≤ depth ↔ ∀ entry ∈ entries, entry.2.depth ≤ depth := by
  induction entries with
  | nil => simp [depthValues]
  | cons entry entries ih => rw [depthValues, Nat.max_le, ih, List.forall_mem_cons]

/-- The document is ordered, and its arrays and objects are nested in one
another at most so deep. -/
structure Fits (depth : Nat) (document : Json) : Prop where
  ordered : document.Ordered
  depth_le : document.depth ≤ depth

theorem Fits.mono {depth deeper : Nat} {document : Json} (h : document.Fits depth)
    (hle : depth ≤ deeper) : document.Fits deeper :=
  ⟨h.ordered, Nat.le_trans h.depth_le hle⟩

/-- An array fits if its items fit inside. -/
theorem fits_array {depth : Nat} {items : List Json} (h : ∀ item ∈ items, item.Fits depth) :
    (array items).Fits (depth + 1) where
  ordered := orderedItems_iff.2 fun item hitem => (h item hitem).ordered
  depth_le := Nat.succ_le_succ (depthItems_le_iff.2 fun item hitem => (h item hitem).depth_le)

/-- An object fits if its entries ascend and their values fit inside. -/
theorem fits_object {depth : Nat} {entries : Entries Json} (hascending : entries.Ascending)
    (h : ∀ entry ∈ entries, entry.2.Fits depth) : (object entries).Fits (depth + 1) where
  ordered := ⟨hascending, orderedValues_iff.2 fun entry hentry => (h entry hentry).ordered⟩
  depth_le := Nat.succ_le_succ (depthValues_le_iff.2 fun entry hentry => (h entry hentry).depth_le)

namespace Reader

/-! ## Arrays and objects -/

section

variable {α β σ : Type}

/-- Two readers, one behind the other, give what they both give. -/
theorem exists_of_bind_eq_ok {first : Except Fault α} {second : α → Except Fault β} {b : β}
    (h : first >>= second = .ok b) : ∃ a, first = .ok a ∧ second a = .ok b := by
  cases first with
  | error fault => cases h
  | ok a => exact ⟨a, rfl, h⟩

variable {item : Reader α} {P : α → Prop}

theorem forall_of_itemsFrom (hitem : ∀ cs a rest, item cs = .ok (a, rest) → P a) {fuel : Nat}
    {cs rest : List Char} {as : List α} (h : itemsFrom item fuel cs = .ok (as, rest)) :
    ∀ a ∈ as, P a := by
  induction fuel generalizing cs as rest with
  | zero => cases h
  | succ fuel ih =>
      rw [itemsFrom] at h
      obtain ⟨⟨a, cs'⟩, ha, h⟩ := exists_of_bind_eq_ok h
      have hP := hitem cs a cs' ha
      dsimp only at h
      split at h
      · cases h
      · cases h
        simpa using hP
      · split at h
        · cases h
        · cases h
        · obtain ⟨⟨others, cs''⟩, hothers, h⟩ := exists_of_bind_eq_ok h
          cases h
          exact List.forall_mem_cons.2 ⟨hP, ih hothers⟩
      · cases h

/-- Items are what the reader of an item gives. -/
theorem forall_of_items (hitem : ∀ cs a rest, item cs = .ok (a, rest) → P a)
    {cs rest : List Char} {as : List α} (h : items item cs = .ok (as, rest)) :
    ∀ a ∈ as, P a := by
  rw [items] at h
  split at h
  · cases h
  · cases h
    simp
  · exact forall_of_itemsFrom hitem h

variable {field : σ → Reader σ} {Q : σ → Prop}

theorem of_fieldsFrom (hfield : ∀ s cs t rest, Q s → field s cs = .ok (t, rest) → Q t)
    {fuel : Nat} {s t : σ} {cs rest : List Char} (hs : Q s)
    (h : fieldsFrom field fuel s cs = .ok (t, rest)) : Q t := by
  induction fuel generalizing s cs with
  | zero => cases h
  | succ fuel ih =>
      rw [fieldsFrom] at h
      obtain ⟨⟨next, cs'⟩, hnext, h⟩ := exists_of_bind_eq_ok h
      have hQ := hfield s cs next cs' hs hnext
      dsimp only at h
      split at h
      · cases h
      · cases h
        exact hQ
      · split at h
        · cases h
        · exact ih hQ h
        · cases h
      · cases h

/-- Fields keep what the reader of a field keeps. -/
theorem of_fields (hfield : ∀ s cs t rest, Q s → field s cs = .ok (t, rest) → Q t) {s t : σ}
    {cs rest : List Char} (hs : Q s) (h : fields field s cs = .ok (t, rest)) : Q t := by
  rw [fields] at h
  split at h
  · cases h
  · cases h
    exact hs
  · exact of_fieldsFrom hfield hs h
  · cases h

/-- A word is its value. -/
theorem eq_of_word {letters : List Char} {a b : α} {cs rest : List Char}
    (h : word letters a cs = .ok (b, rest)) : b = a := by
  induction letters generalizing cs with
  | nil =>
      cases h
      rfl
  | cons letter letters ih =>
      cases cs with
      | nil => cases h
      | cons c cs =>
          rw [word] at h
          by_cases hc : c = letter
          · exact ih ((if_pos hc).symm.trans h)
          · cases (if_neg hc).symm.trans h

end

/-! ## Any document -/

/-- The entries ascend, and their values fit. -/
def EntriesFit (depth : Nat) (entries : Entries Json) : Prop :=
  entries.Ascending ∧ ∀ entry ∈ entries, entry.2.Fits depth

/-- The fields of an object of any documents fit if the documents do. -/
theorem entriesFit_of_fields {depth : Nat} {reader : Reader Json}
    (hreader : ∀ cs document rest, reader cs = .ok (document, rest) → document.Fits depth)
    {entries : Entries Json} {cs rest : List Char}
    (h : fields (anyField reader) [] cs = .ok (entries, rest)) : EntriesFit depth entries := by
  refine of_fields (Q := EntriesFit depth) ?_ ⟨Entries.Ascending.nil, by simp⟩ h
  intro before cs after rest hbefore hfield
  obtain ⟨⟨key, cs₁⟩, -, hfield⟩ := exists_of_bind_eq_ok hfield
  obtain ⟨⟨_, cs₂⟩, -, hfield⟩ := exists_of_bind_eq_ok hfield
  obtain ⟨⟨document, cs₃⟩, hdocument, hfield⟩ := exists_of_bind_eq_ok hfield
  have hread := hreader cs₂ document cs₃ hdocument
  cases hfield
  refine ⟨hbefore.1.insert key document, fun entry hentry => ?_⟩
  rcases Entries.mem_of_mem_insert hentry with rfl | hmem
  · exact hread
  · exact hbefore.2 entry hmem

/-- A document that is read has no parts, or its parts are read. -/
theorem exists_of_value {p : Precision} {depth : Nat} {cs rest : List Char} {document : Json}
    (h : value p depth cs = .ok (document, rest)) :
    document.Fits 0 ∨
      (∃ below text documents, depth = below + 1 ∧ document = array documents ∧
        items (value p below) text = .ok (documents, rest)) ∨
      ∃ below text entries, depth = below + 1 ∧ document = object entries ∧
        fields (anyField (value p below)) [] text = .ok (entries, rest) := by
  rw [value] at h
  split at h
  case h_1 => cases h
  case h_2 => exact .inl (eq_of_word h ▸ ⟨trivial, Nat.le_refl _⟩)
  case h_3 => exact .inl (eq_of_word h ▸ ⟨trivial, Nat.le_refl _⟩)
  case h_4 => exact .inl (eq_of_word h ▸ ⟨trivial, Nat.le_refl _⟩)
  case h_5 =>
    obtain ⟨⟨s, cs'⟩, -, h⟩ := exists_of_bind_eq_ok h
    cases h
    exact .inl ⟨trivial, Nat.le_refl _⟩
  case h_6 text _ =>
    cases depth with
    | zero => cases h
    | succ below =>
        obtain ⟨⟨documents, cs'⟩, hitems, h⟩ := exists_of_bind_eq_ok h
        cases h
        exact .inr (.inl ⟨below, text, documents, rfl, rfl, hitems⟩)
  case h_7 text _ =>
    cases depth with
    | zero => cases h
    | succ below =>
        obtain ⟨⟨entries, cs'⟩, hfields, h⟩ := exists_of_bind_eq_ok h
        cases h
        exact .inr (.inr ⟨below, text, entries, rfl, rfl, hfields⟩)
  case h_8 =>
    split at h
    · obtain ⟨⟨n, cs'⟩, -, h⟩ := exists_of_bind_eq_ok h
      cases h
      exact .inl ⟨trivial, Nat.le_refl _⟩
    · cases h

/-- **A document that is read is ordered**, and no deeper than the levels that
are left. -/
theorem fits_of_value {p : Precision} {depth : Nat} {cs rest : List Char} {document : Json}
    (h : value p depth cs = .ok (document, rest)) : document.Fits depth := by
  induction depth using Nat.strongRecOn generalizing cs document rest with
  | _ depth ih =>
      obtain hscalar | ⟨below, _, _, rfl, rfl, hitems⟩ | ⟨below, _, _, rfl, rfl, hfields⟩ :=
        exists_of_value h
      · exact hscalar.mono (Nat.zero_le depth)
      · exact fits_array (forall_of_items (fun _ _ _ => ih below (Nat.lt_succ_self below)) hitems)
      · obtain ⟨hascending, hvalues⟩ :=
          entriesFit_of_fields (fun _ _ _ => ih below (Nat.lt_succ_self below)) hfields
        exact fits_object hascending hvalues

end Reader

end Json

end TraceLog
