import TraceLog.Proofs.Schema.Overlay
import TraceLog.Settings.Cache
import TraceLog.Settings.Tracing

/-!
# TraceLog.Proofs.Settings.Overlay

Settings of which a text gives some only.

A text of settings overlays the standard ones: what it gives replaces what is
standard, and all else stays.  It may be an object, with the settings in any
order and other members between them, or an array of the first settings.

* `Form.Overlays` — the texts that overlay a value, and those that give a
  setting twice;
* `Form.Overlays.of_record` — records with values for missing fields do;
* `settings_overlay` — so the settings of recorders and of caches do.
-/

namespace TraceLog

open Json (Blank IsJson)

/-! ## Schemas of records -/

namespace Schema

/-- Whether the values are records. -/
def isRecord : Schema → Bool
  | .record _ _ => true
  | _ => false

/-- The fields of a record; other values have none. -/
def fields : Schema → Fields
  | .record _ fields => fields
  | _ => .nil

/-- A record with the fields that are given, and the others as they were. -/
def overlay : (s : Schema) → s.Val → s.fields.Partial → s.Val
  | .record _ fields, standard, given => fields.overlay standard given
  | _, standard, _ => standard

variable {p : Precision} {depth : Nat} {before gap after : List Char}

theorem readOr_object (s : Schema) (hs : s.isRecord = true) (hfree : s.fields.recordFree = true)
    (standard : s.Val) {given : s.fields.Partial} {members : List Member}
    (h : s.fields.GivenBy p depth given members) (hbefore : Blank before) (hgap : Blank gap)
    (hafter : Blank after) :
    Json.readWith (s.readOr p (some standard) (depth + 1))
        (String.ofList (before ++ (objectText members gap ++ after))) =
      .ok (s.overlay standard given) := by
  cases s with
  | record name fields => exact fields.read_object hfree name standard h hbefore hgap hafter
  | _ => contradiction

theorem readOr_array (s : Schema) (hs : s.isRecord = true) (hfree : s.fields.recordFree = true)
    (standard : s.Val) {given : s.fields.Partial} {items : List String}
    (h : s.fields.ListedBy p depth given items) (hbefore : Blank before) (hgap : Blank gap)
    (hafter : Blank after) :
    Json.readWith (s.readOr p (some standard) (depth + 1))
        (String.ofList (before ++ (arrayText items gap ++ after))) =
      .ok (s.overlay standard given) := by
  cases s with
  | record name fields => exact fields.read_array hfree name standard h hbefore hgap hafter
  | _ => contradiction

theorem readOr_duplicate (s : Schema) (hs : s.isRecord = true) (hfree : s.fields.recordFree = true)
    (standard : s.Val) {front : List Member} (hfront : ∀ m ∈ front, s.fields.Admits p depth m)
    {again : Member} (hkey : again.key ∈ s.fields.names) (hagain : again.key ∈ front.map (·.key))
    (back : List Member) (hbefore : Blank before) (gap after : List Char) :
    ∃ key ∈ s.fields.names, 2 ≤ ((front ++ [again]).map (·.key)).count key ∧
      Json.readWith (s.readOr p (some standard) (depth + 1))
          (String.ofList (before ++ (objectText (front ++ again :: back) gap ++ after))) =
        .error (.mismatch (.duplicateField key)) := by
  cases s with
  | record name fields =>
    exact fields.read_duplicate hfree name standard hfront hkey hagain back hbefore gap after
  | _ => contradiction

end Schema

/-! ## Types -/

namespace Form

variable {α : Type} {p : Precision}

/-- The fields of the records that stand for the values. -/
abbrev fields (f : Form α) : Fields := f.schema.fields

/-- A value with the fields that are given, and the others as they were. -/
def overlay (f : Form α) (standard : α) (given : f.fields.Partial) : α :=
  f.ofVal (f.schema.overlay (f.toVal standard) given)

/-- Texts overlay a value: they need not give all of its fields.  The values of
the fields stand inside the text, so one level of nesting less is left for
them. -/
structure Overlays (p : Precision) (f : Form α) (standard : α) : Prop where
  /-- Any fields with values that have texts can be given by an object, if the
  values are read from their texts. -/
  exists_givenBy : ∀ given, f.fields.PartsFit (Json.nestingLimit - 1) given →
    f.fields.PartsLegible p given →
      ∃ members, f.fields.GivenBy p (Json.nestingLimit - 1) given members
  /-- The members may stand in any order, and others between them, of any depth,
  that no field knows. -/
  givenBy_of_perm : ∀ given members unknown members',
    f.fields.GivenBy p (Json.nestingLimit - 1) given members →
      (∀ m ∈ unknown, m.key ∉ f.fields.names ∧ IsJson m.value.toList) →
        members'.Perm (members ++ unknown) →
          f.fields.GivenBy p (Json.nestingLimit - 1) given members'
  /-- An object is read as the value with exactly the fields replaced that its
  members give. -/
  read_object : ∀ given members, f.fields.GivenBy p (Json.nestingLimit - 1) given members →
    ∀ before gap after, Blank before → Blank gap → Blank after →
      f.read (String.ofList (before ++ (objectText members gap ++ after))) p =
        .ok (f.overlay standard given)
  /-- Any number of first fields can be listed by an array. -/
  exists_listedBy : ∀ v, f.fields.Fits (Json.nestingLimit - 1) v → ∀ count ≤ f.fields.length,
    f.fields.PartsLegible p (f.fields.firsts count v) → ∃ items, items.length = count ∧
      f.fields.ListedBy p (Json.nestingLimit - 1) (f.fields.firsts count v) items
  /-- An array is read as the same value as an object that gives the fields
  that its items list. -/
  read_array : ∀ given items, f.fields.ListedBy p (Json.nestingLimit - 1) given items →
    ∀ before gap after, Blank before → Blank gap → Blank after →
      f.read (String.ofList (before ++ (arrayText items gap ++ after))) p =
        .ok (f.overlay standard given)
  /-- An object that gives a field twice is rejected, and a field that it gives
  twice is reported.  Only the members in front of the second name have to have
  their types: a value of another type would be reported first. -/
  read_duplicate : ∀ front again back,
    (∀ m ∈ front, f.fields.Admits p (Json.nestingLimit - 1) m) → again.key ∈ f.fields.names →
      again.key ∈ front.map (·.key) → ∀ before gap after, Blank before →
        ∃ key ∈ f.fields.names, 2 ≤ ((front ++ [again]).map (·.key)).count key ∧
          f.read (String.ofList (before ++ (objectText (front ++ again :: back) gap ++ after))) p =
            .error (.mismatch (.duplicateField key))

/-- Texts overlay what stands in for the missing fields of a record. -/
theorem Overlays.of_record {f : Form α} {standard : α} (hrecord : f.schema.isRecord = true)
    (hfree : f.fields.recordFree = true) (hschema : f.fields.unambiguous = true)
    (hfallback : f.fallback = some standard) : f.Overlays p standard := by
  have hread (text : String) : f.read text p = (Json.readWith
      (f.schema.readOr p (some (f.toVal standard)) Json.nestingLimit) text).map f.ofVal := by
    rw [read, hfallback]
    rfl
  constructor
  case exists_givenBy =>
    intro given hgiven hlegible
    obtain ⟨members, hmembers, -⟩ := f.fields.exists_givenBy hschema hgiven hlegible
    exact ⟨members, hmembers⟩
  case givenBy_of_perm =>
    exact fun given members unknown members' hmembers hunknown hperm =>
      f.fields.givenBy_of_perm hmembers hunknown hperm
  case read_object =>
    intro given members hmembers before gap after hbefore hgap hafter
    rw [hread]
    exact congrArg (·.map f.ofVal)
      (f.schema.readOr_object hrecord hfree _ hmembers hbefore hgap hafter)
  case exists_listedBy =>
    exact fun v hv count hcount hlegible => f.fields.exists_listedBy hschema hv hcount hlegible
  case read_array =>
    intro given items hitems before gap after hbefore hgap hafter
    rw [hread]
    exact congrArg (·.map f.ofVal)
      (f.schema.readOr_array hrecord hfree _ hitems hbefore hgap hafter)
  case read_duplicate =>
    intro front again back hfront hkey hagain before gap after hbefore
    obtain ⟨key, hname, htwice, hfault⟩ := f.schema.readOr_duplicate hrecord hfree
      (f.toVal standard) hfront hkey hagain back hbefore gap after
    refine ⟨key, hname, htwice, ?_⟩
    rw [hread]
    exact congrArg (·.map f.ofVal) hfault

end Form

/-- **Settings overlay the standard ones.**  For recorders and for caches: any of
the settings may be given, by the members of an object in any order, with any
other members of any depth between them, and they replace what is standard; any
number of first settings may be listed by an array, which stands for the same;
and a setting that is given twice is reported.  All of this holds at any
precision, of the values that the texts of the settings are read as. -/
theorem settings_overlay (p : Precision) :
    Tracing.form.Overlays p Tracing.disabled ∧
      CacheSettings.form.Overlays p CacheSettings.standard :=
  ⟨.of_record rfl (by decide +kernel) (by decide +kernel) rfl,
    .of_record rfl (by decide +kernel) (by decide +kernel) rfl⟩

/-- What is overlaid is replaced, and nothing else. -/
example (t : Tracing) (enabled : Bool) (files : UInt64) :
    Tracing.form.overlay t (some enabled, none, none, some files, none, none, ()) =
      { t with enabled := enabled, maxFiles := files } := rfl

/-- Two settings behind one another, an unknown member between them. -/
example :
    Tracing.form.read ("\x7b\"trace_max_files\" : 3, \"x\": [1e999, \x7b\x7d]," ++
        " \"enable_trace\":true\x7d ") =
      .ok { Tracing.disabled with enabled := true, maxFiles := 3 } := by
  decide +kernel

end TraceLog
