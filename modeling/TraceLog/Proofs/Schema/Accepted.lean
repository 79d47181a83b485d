import TraceLog.Proofs.Number.Rounding
import TraceLog.Proofs.Schema.Fits

/-!
# TraceLog.Proofs.Schema.Accepted

What a schema reads.

Whatever the text looks like — a record as an object in any order or as an
array, fields left out or unknown, names over `null`, integers for
floating-point numbers — what is read from it fits, so it has a text of its
own to be read from again.

* `Schema.fits_of_read` — values that are read fit;
* `Form.fits_of_read` — those of a type do, if what stands in for missing
  fields does.
-/

namespace TraceLog

open Json (Fault Reader)

namespace Json.Reader

variable {α σ : Type} {p : Precision} {cs rest : List Char}

/-! ## Scalars -/

/-- A value of the wrong kind is never taken. -/
theorem unexpected_ne_ok {expected : String} {result : α × List Char} :
    unexpected p expected cs ≠ .ok result := by
  intro h
  rw [unexpected.eq_def] at h
  split at h
  case h_1 => cases h
  case h_2 | h_3 | h_4 | h_5 =>
    obtain ⟨_, -, h⟩ := exists_of_bind_eq_ok h
    cases h
  case h_6 | h_7 => cases h
  case h_8 =>
    split at h
    · obtain ⟨_, -, h⟩ := exists_of_bind_eq_ok h
      cases h
    · cases h

/-- An integer of a document stands for a finite number. -/
theorem isFinite_of_float {x : Binary64} (h : Reader.float p cs = .ok (x, rest)) :
    x.isFinite = true := by
  rw [Reader.float] at h
  split at h
  · split at h
    · obtain ⟨⟨n, cs'⟩, -, h⟩ := exists_of_bind_eq_ok h
      cases n with
      | integer n hn =>
          cases h
          exact Binary64.isFinite_ofInt (by omega)
      | float y hy =>
          cases h
          exact hy
    · exact absurd h unexpected_ne_ok
  · cases h

theorem of_optional {reader : Reader α} {a : Option α}
    (h : Reader.optional reader cs = .ok (a, rest)) :
    ∀ v ∈ a, ∃ text, reader text = .ok (v, rest) := by
  rw [Reader.optional] at h
  split at h
  · simp [eq_of_word h]
  · obtain ⟨⟨v, cs'⟩, hread, h⟩ := exists_of_bind_eq_ok h
    cases h
    rintro _ ⟨⟩
    exact ⟨_, hread⟩

/-! ## Lists and records -/

/-- A value between marks takes one level of nesting. -/
theorem exists_of_enclosed {mark : Char} {expected : String} {inside : Nat → Reader α}
    {depth : Nat} {a : α} (h : enclosed p mark expected inside depth cs = .ok (a, rest)) :
    ∃ below text, depth = below + 1 ∧ inside below text = .ok (a, rest) := by
  rw [enclosed] at h
  split at h
  · cases h
  · split at h
    · cases depth with
      | zero => cases h
      | succ below => exact ⟨below, _, rfl, h⟩
    · exact absurd h unexpected_ne_ok

/-- A record takes one level of nesting, as an array or as an object. -/
theorem exists_of_record {name : String} {elements fields : Nat → Reader α} {depth : Nat} {a : α}
    (h : record p name elements fields depth cs = .ok (a, rest)) :
    ∃ below text, depth = below + 1 ∧
      (elements below text = .ok (a, rest) ∨ fields below text = .ok (a, rest)) := by
  rw [record.eq_def] at h
  split at h
  · cases h
  · cases h
  · exact ⟨_, _, rfl, .inl h⟩
  · exact ⟨_, _, rfl, .inr h⟩
  · exact absurd h unexpected_ne_ok

theorem exists_of_fieldsOf {value : String → σ → Reader σ} {start : σ}
    {complete : σ → Except Fault α} {a : α}
    (h : fieldsOf value start complete cs = .ok (a, rest)) :
    ∃ read, fields (fieldsOf.keyed value) start cs = .ok (read, rest) ∧ complete read = .ok a := by
  obtain ⟨⟨read, cs'⟩, hfields, h⟩ := exists_of_bind_eq_ok h
  obtain ⟨b, hcomplete, h⟩ := exists_of_bind_eq_ok h
  cases h
  exact ⟨read, hfields, hcomplete⟩

end Json.Reader

open Json.Reader

variable {p : Precision}

/-- What stands for a field that may be left out fits. -/
theorem Schema.fits_of_absent? {s : Schema} {depth : Nat} {v : s.Val} (h : s.absent? = some v) :
    s.Fits depth v := by
  cases s with
  | optional s =>
      cases h
      trivial
  | _ => cases h

namespace Fields

variable {depth : Nat}

/-- The fields that have been read fit. -/
def PartsFit : (fields : Fields) → (depth : Nat) → fields.Partial → Prop
  | .nil, _, _ => True
  | .cons _ s rest, depth, (v, more) => (∀ x ∈ v, s.Fits depth x) ∧ rest.PartsFit depth more

theorem partsFit_none (fields : Fields) : fields.PartsFit depth fields.none := by
  match fields with
  | .nil => trivial
  | .cons _ s rest => exact ⟨by simp, rest.partsFit_none⟩

/-- A record fits once it is complete, if what stands in for missing fields
does. -/
theorem fits_of_complete (fields : Fields) {fallback : Option fields.Val}
    (hfallback : ∀ v ∈ fallback, fields.Fits depth v) {read : fields.Partial}
    (hread : fields.PartsFit depth read) {v : fields.Val}
    (h : fields.complete fallback read = .ok v) : fields.Fits depth v := by
  match fields, read, v with
  | .nil, _, _ => trivial
  | .cons name s rest, (first, more), (v, vs) =>
    obtain ⟨w, hw, ws, hws, hpair⟩ : ∃ w, s.Fits depth w ∧
        ∃ ws, rest.complete (fallback.map (·.2)) more = .ok ws ∧
          Except.ok (w, ws) = (.ok (v, vs) : Except Fault (s.Val × rest.Val)) := by
      simp only [complete] at h
      split at h
      · exact ⟨_, hread.1 _ rfl, exists_of_bind_eq_ok h⟩
      · exact ⟨_, (hfallback _ rfl).1, exists_of_bind_eq_ok h⟩
      · exact ⟨_, Schema.fits_of_absent? ‹_›, exists_of_bind_eq_ok h⟩
      · cases h
    cases hpair
    refine ⟨hw, rest.fits_of_complete ?_ hread.2 hws⟩
    rw [Option.forall_mem_map]
    exact fun p hp => (hfallback p hp).2

end Fields

mutual

/-- **Values that are read fit.** -/
theorem Schema.fits_of_read (s : Schema) {depth : Nat} {cs rest : List Char} {v : s.Val}
    (h : s.read p depth cs = .ok (v, rest)) : s.Fits depth v := by
  match s, v with
  | .float, v => exact isFinite_of_float h
  | .optional s, v =>
    cases v with
    | none => trivial
    | some v =>
        obtain ⟨text, hread⟩ := of_optional h v rfl
        exact s.fits_of_read hread
  | .list s, vs =>
    obtain ⟨below, text, rfl, hitems⟩ := exists_of_enclosed h
    exact forall_of_items (fun _ _ _ => s.fits_of_read) hitems
  | .documents, entries =>
    obtain ⟨below, text, rfl, hfields⟩ := exists_of_enclosed h
    obtain ⟨hascending, hvalues⟩ := entriesFit_of_fields (fun _ _ _ => fits_of_value) hfields
    exact Json.fits_object hascending hvalues
  | .record name fields, v => exact fields.fits_of_read (by simp) h
  | .bool, _ | .word _, _ | .text, _ | .path, _ | .choice _, _ => trivial

/-- A record that is read fits, if what stands in for missing fields does. -/
theorem Fields.fits_of_read (fields : Fields) {name : String} {fallback : Option fields.Val}
    {depth : Nat} (hfallback : ∀ v ∈ fallback, (Schema.record name fields).Fits depth v)
    {cs rest : List Char} {v : fields.Val}
    (h : fields.read p name fallback depth cs = .ok (v, rest)) :
    (Schema.record name fields).Fits depth v := by
  obtain ⟨below, text, rfl, hread⟩ := exists_of_record h
  rcases hread with helements | hfields
  · exact fields.fits_of_readElements hfallback helements
  · exact fields.fits_of_fieldsOf hfallback hfields

/-- Reading a field keeps the fields read before it. -/
theorem Fields.partsFit_of_readValue (fields : Fields) {depth : Nat} {key : String}
    {read more : fields.Partial} {cs rest : List Char} (hread : fields.PartsFit depth read)
    (h : fields.readValue p depth key read cs = .ok (more, rest)) : fields.PartsFit depth more := by
  match fields, read with
  | .nil, _ => trivial
  | .cons name s others, (first, before) =>
    simp only [Fields.readValue] at h
    split at h
    · -- The key is that of the first field, which has not been read yet.
      split at h
      · cases h
      · obtain ⟨⟨_, text⟩, -, h⟩ := exists_of_bind_eq_ok h
        obtain ⟨⟨v, text'⟩, hv, h⟩ := exists_of_bind_eq_ok h
        have hfits := s.fits_of_read hv
        cases h
        exact ⟨by simpa using hfits, hread.2⟩
    · obtain ⟨⟨after, text⟩, hothers, h⟩ := exists_of_bind_eq_ok h
      have hfit := others.partsFit_of_readValue hread.2 hothers
      cases h
      exact ⟨hread.1, hfit⟩

/-- A record that is read from an object fits. -/
theorem Fields.fits_of_fieldsOf (fields : Fields) {fallback : Option fields.Val} {depth : Nat}
    (hfallback : ∀ v ∈ fallback, fields.Fits depth v) {cs rest : List Char} {v : fields.Val}
    (h : fieldsOf (fields.readValue p depth) fields.none (fields.complete fallback) cs =
      .ok (v, rest)) : fields.Fits depth v := by
  obtain ⟨read, hread, hcomplete⟩ := exists_of_fieldsOf h
  refine fields.fits_of_complete hfallback ?_ hcomplete
  refine of_fields (Q := fields.PartsFit depth) ?_ fields.partsFit_none hread
  intro before cs after rest hbefore hfield
  obtain ⟨⟨key, text⟩, -, hvalue⟩ := exists_of_bind_eq_ok hfield
  exact fields.partsFit_of_readValue hbefore hvalue

/-- A record that is read from an array fits. -/
theorem Fields.fits_of_readElements (fields : Fields) {name : String} {index total : Nat}
    {fallback : Option fields.Val} {depth : Nat} (hfallback : ∀ v ∈ fallback, fields.Fits depth v)
    {cs rest : List Char} {v : fields.Val}
    (h : fields.readElements p name index total fallback depth cs = .ok (v, rest)) :
    fields.Fits depth v := by
  match fields, v with
  | .nil, _ => trivial
  | .cons field s others, (first, more) =>
    simp only [Fields.readElements] at h
    obtain ⟨place, -, h⟩ := exists_of_bind_eq_ok h
    cases place with
    | next text =>
        obtain ⟨⟨w, text'⟩, hw, h⟩ := exists_of_bind_eq_ok h
        obtain ⟨⟨ws, text''⟩, hws, h⟩ := exists_of_bind_eq_ok h
        have hfits := s.fits_of_read hw
        have hothers := others.fits_of_readElements (Option.forall_mem_map.2 fun p hp =>
          (hfallback p hp).2) hws
        cases h
        exact ⟨hfits, hothers⟩
    | done text =>
        cases hdone : fallback with
        | none => simp [hdone] at h
        | some p =>
            simp only [hdone] at h
            cases h
            exact hfallback _ hdone

end

/-- What is read fits also where others stand in for what a text leaves out. -/
theorem Schema.fits_of_readOr (s : Schema) {fallback : Option s.Val} {depth : Nat}
    (hfallback : ∀ v ∈ fallback, s.Fits depth v) {cs rest : List Char} {v : s.Val}
    (h : s.readOr p fallback depth cs = .ok (v, rest)) : s.Fits depth v := by
  match s, v with
  | .record name fields, v => exact fields.fits_of_read hfallback h
  | .bool, _ | .word _, _ | .float, _ | .text, _ | .path, _ | .choice _, _ | .optional _, _
  | .list _, _ | .documents, _ => exact Schema.fits_of_read _ h

/-- **What is read as a value of a type fits**, if the values do that stand in
for what a text leaves out. -/
theorem Form.fits_of_read {α : Type} {f : Form α}
    (hfallback : ∀ a ∈ f.fallback, f.Fits Json.nestingLimit a) {text : String} {a : α}
    (h : f.read text p = .ok a) : f.Fits Json.nestingLimit a := by
  rw [Form.read] at h
  cases hwhole :
      Json.readWith (f.schema.readOr p (f.fallback.map f.toVal) Json.nestingLimit) text with
  | error fault =>
      rw [hwhole] at h
      cases h
  | ok v =>
      rw [hwhole] at h
      cases h
      obtain ⟨⟨w, rest⟩, hread, hend⟩ := exists_of_bind_eq_ok hwhole
      have hfits := f.schema.fits_of_readOr (Option.forall_mem_map.2 hfallback) hread
      dsimp only at hend
      split at hend
      · cases hend
        rwa [Form.Fits, f.toVal_ofVal]
      · cases hend

end TraceLog
