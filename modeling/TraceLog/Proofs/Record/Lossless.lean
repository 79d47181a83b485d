import TraceLog.Proofs.Settings.Faithful

/-!
# TraceLog.Proofs.Record.Lossless

The settings behind a record.

The trace gives kinds of layouts and the type of the elements by names of its
own, and these names tell them apart.  So the settings can be found from the
snapshot, and no two settings have the same data.  The snapshot is read from the
data of its record, up to what a reader makes of floating-point numbers.

* `ConfigSnapshot.settings?` — the settings that a snapshot is of;
* `ConfigSnapshot.settings?_of` — they are those that it was made from;
* `Record.config_lossless` — they are found from the data of the record;
* `Record.config_ratio_missed` — but for a ratio that is read as its neighbour.
-/

namespace TraceLog

/-! ## Names in the trace -/

/-- The element type of a name in the trace. -/
def ElementType.ofTraceName? (s : String) : Option ElementType :=
  (Named.all : List ElementType).find? fun t => t.traceName == s

theorem ElementType.ofTraceName?_traceName (t : ElementType) :
    ofTraceName? t.traceName = some t := by
  cases t <;> decide +kernel

/-- The kind of layout of a name in the trace. -/
def LayoutKind.ofTraceName? (s : String) : Option LayoutKind :=
  (Named.all : List LayoutKind).find? fun k => k.traceName == s

theorem LayoutKind.ofTraceName?_traceName (k : LayoutKind) : ofTraceName? k.traceName = some k := by
  cases k <;> decide +kernel

/-! ## Settings of a snapshot -/

section

variable {κ τ : Type} {there : κ → τ} {back : τ → Option κ}

/-- The model with its element type given in another way, if it has one. -/
def Model.map? (f : κ → Option τ) (m : Model κ) : Option (Model τ) :=
  (f m.elementType).map fun t => { m with elementType := t }

theorem Model.map?_map (h : ∀ k, back (there k) = some k) (m : Model κ) :
    (m.map there).map? back = some m := by
  simp [map, map?, h]

/-- The layout with its kind given in another way, if it has one. -/
def Layout.map? (f : κ → Option τ) (l : Layout κ) : Option (Layout τ) :=
  (f l.kind).map fun k => { l with kind := k }

theorem Layout.map?_map (h : ∀ k, back (there k) = some k) (l : Layout κ) :
    (l.map there).map? back = some l := by
  simp [map, map?, h]

/-- The cache with the kinds of its layouts given in another way, if all have
one. -/
def Cache.map? (f : κ → Option τ) (c : Cache κ) : Option (Cache τ) := do
  let gpu ← f c.gpuLayout
  let cpu ← f c.cpuLayout
  let ssd ← f c.ssdLayout
  let remote ← f c.remoteLayout
  some { c with gpuLayout := gpu, cpuLayout := cpu, ssdLayout := ssd, remoteLayout := remote }

theorem Cache.map?_map (h : ∀ k, back (there k) = some k) (c : Cache κ) :
    (c.map there).map? back = some c := by
  simp [map, map?, h]

end

/-- The settings that a snapshot is of, if it is of any. -/
def ConfigSnapshot.settings? (s : ConfigSnapshot) :
    Option (ModelSettings × CacheSettings × Option LayoutSettings) := do
  let model ← s.model.map? ElementType.ofTraceName?
  let cache ← s.cache.map? LayoutKind.ofTraceName?
  match s.layout with
  | none => some (model, cache, none)
  | some layout => do
    let layout ← layout.map? LayoutKind.ofTraceName?
    some (model, cache, some layout)

/-- A snapshot is of the settings that it was made from. -/
theorem ConfigSnapshot.settings?_of (model : ModelSettings) (cache : CacheSettings)
    (layout : Option LayoutSettings) :
    (of model cache layout).settings? = some (model, cache, layout) := by
  have hmodel := Model.map?_map ElementType.ofTraceName?_traceName model
  have hcache := Cache.map?_map LayoutKind.ofTraceName?_traceName cache
  cases layout with
  | none => simp [settings?, of, ModelSettings.snapshot, CacheSettings.snapshot, hmodel, hcache]
  | some layout =>
      have hlayout := Layout.map?_map LayoutKind.ofTraceName?_traceName layout
      simp [settings?, of, ModelSettings.snapshot, CacheSettings.snapshot,
        LayoutSettings.snapshot, hmodel, hcache, hlayout]

/-! ## Records -/

theorem Cache.Writable.mono {κ : Type} {depth deeper : Nat} {c : Cache κ} (h : c.Writable depth)
    (hle : depth ≤ deeper) : c.Writable deeper :=
  ⟨h.finite, fun entries hentries => (h.custom entries hentries).mono hle⟩

/-- The trace keeps what a cache needs to be written. -/
theorem CacheSettings.writable_snapshot {depth : Nat} {c : CacheSettings} (h : c.Writable depth) :
    c.snapshot.Writable depth :=
  ⟨h.finite, h.custom⟩

/-- Snapshots are told apart by their texts, however deep their free settings
are nested. -/
theorem ConfigSnapshot.render_injective {depth depth' : Nat} {s s' : ConfigSnapshot}
    (hs : s.cache.Writable depth) (hs' : s'.cache.Writable depth')
    (h : form.render s = form.render s') : s = s' := by
  have hle : depth ≤ max depth depth' + 1 := by omega
  have hle' : depth' ≤ max depth depth' + 1 := by omega
  exact Form.render_injective unambiguous_form ((fits_form_iff s).2 (hs.mono hle))
    ((fits_form_iff s').2 (hs'.mono hle')) h

/-- The snapshot is read with the ratio and the free settings that these are read
as, and with all else as it was. -/
theorem ConfigSnapshot.read_render_of {p : Precision} (model : ModelSettings)
    {cache : CacheSettings} (hcache : cache.Writable (Json.nestingLimit - 2))
    (layout : Option LayoutSettings) {ratio : Binary64} {custom : Option (Entries Json)}
    (hratio : cache.evictRatio.ReadAs p ratio)
    (hcustom : Form.documents.optional.ReadAs p cache.remoteCustom custom) :
    form.read (String.ofList (form.render (.of model cache layout))) p =
      .ok (.of model { cache with evictRatio := ratio, remoteCustom := custom } layout) :=
  Form.read_render unambiguous_form
    ((fits_form_iff _).2 (CacheSettings.writable_snapshot hcache))
    (readAs_form (Cache.readAs_form Form.readAs_text hratio hcustom))

/-- **A record of settings loses nothing but digits.**  Let the ratio of the cache
be finite and its free settings be nested within the limit of the reader.  Then
the record has data, and a snapshot is read from them: the one that was written,
if its numbers are read back from their own texts; in any case it differs from
that one in no more than the ratio and the free settings, which are what their
own texts are read as.  The snapshot that was written is one of these settings,
and settings that differ never have the same data, whatever a reader makes of
them. -/
theorem Record.config_lossless (time : Timestamp) (model : ModelSettings) {cache : CacheSettings}
    (hcache : cache.Writable (Json.nestingLimit - 2)) (layout : Option LayoutSettings) :
    ∃ data, (config time model cache layout).data.encode = .ok data ∧
      (∀ p, cache.Legible p →
        ConfigSnapshot.form.read (String.ofList data) p = .ok (.of model cache layout)) ∧
      (∀ p ratio custom, cache.evictRatio.ReadAs p ratio →
        Form.documents.optional.ReadAs p cache.remoteCustom custom →
          ConfigSnapshot.form.read (String.ofList data) p =
            .ok (.of model { cache with evictRatio := ratio, remoteCustom := custom } layout)) ∧
      (ConfigSnapshot.of model cache layout).settings? = some (model, cache, layout) ∧
      ∀ time' model' (cache' : CacheSettings) layout' depth, cache'.Writable depth →
        (config time' model' cache' layout').data.encode = .ok data →
          (model', cache', layout') = (model, cache, layout) := by
  have hsettings := ConfigSnapshot.settings?_of model cache layout
  have hread (p : Precision) (ratio custom) (hratio : cache.evictRatio.ReadAs p ratio)
      (hcustom : Form.documents.optional.ReadAs p cache.remoteCustom custom) :=
    ConfigSnapshot.read_render_of model hcache layout hratio hcustom
  refine ⟨_, rfl, fun p h => hread p _ _ h.ratio h.readAs_custom, hread, hsettings, ?_⟩
  intro time' model' cache' layout' depth hcache' hdata
  have hrender : ConfigSnapshot.form.render (.of model' cache' layout') =
      ConfigSnapshot.form.render (.of model cache layout) := Except.ok.inj hdata
  have hsnapshots := ConfigSnapshot.render_injective
    (CacheSettings.writable_snapshot hcache') (CacheSettings.writable_snapshot hcache) hrender
  have hsettings' := ConfigSnapshot.settings?_of model' cache' layout'
  rw [hsnapshots, hsettings] at hsettings'
  exact (Option.some.inj hsettings').symm

/-- Lists and names that are empty are kept apart from those that are absent. -/
theorem Record.config_lossless_of_empty_settings :
    let cache : CacheSettings :=
      { CacheSettings.standard with
        remoteFileStem := some ""
        ssdDirectories := some []
        remoteCustom := some [("retries", .array [.null, .object []])]
        evictRatio := ⟨0x3fb999999999999a⟩ }
    let layout : LayoutSettings := ⟨.blockWise, 61, 18446744073709551615, 64, 1, 576, true⟩
    cache.Writable (Json.nestingLimit - 2) ∧ cache.Legible .bestEffort ∧
      ∃ data, (config ⟨0, 0, 0⟩ default cache (some layout)).data.encode = .ok data ∧
        ConfigSnapshot.form.read (String.ofList data) = .ok (.of default cache (some layout)) ∧
        (ConfigSnapshot.of default cache (some layout)).settings? =
          some (default, cache, some layout) ∧
        (config ⟨0, 0, 0⟩ default { cache with remoteFileStem := none } (some layout)).data.encode ≠
          .ok data := by
  intro cache layout
  have hcache : cache.Writable (Json.nestingLimit - 2) := by
    refine ⟨by decide +kernel, ?_⟩
    rintro entries ⟨⟩
    exact ⟨by simp [Json.Ordered, Json.OrderedValues, Json.OrderedItems, Entries.Ascending],
      by decide +kernel⟩
  have hlegible : cache.Legible .bestEffort := by
    refine ⟨Binary64.legible_of_number fun hfinite => ?_, ?_⟩
    · exact Number.legible_of_length_le hfinite (by decide +kernel) (by decide +kernel)
    · rintro entries ⟨⟩ n hn
      simp [Json.scalars, Json.valuesScalars, Json.itemsScalars] at hn
  obtain ⟨data, hencode, hread, -, hsettings, hinjective⟩ :=
    config_lossless ⟨0, 0, 0⟩ default hcache (some layout)
  refine ⟨hcache, hlegible, data, hencode, hread .bestEffort hlegible, hsettings, fun hother => ?_⟩
  have heq := hinjective ⟨0, 0, 0⟩ default { cache with remoteFileStem := none } (some layout) _
    ⟨hcache.finite, hcache.custom⟩ hother
  simp [cache] at heq

/-- The ratio nearest to ten elevenths is written with sixteen digits, and these
are read as the ratio above it: another snapshot. -/
theorem Record.config_ratio_missed :
    let cache : CacheSettings := { CacheSettings.standard with evictRatio := ⟨0x3fed1745d1745d17⟩ }
    let above : CacheSettings := { CacheSettings.standard with evictRatio := ⟨0x3fed1745d1745d18⟩ }
    cache.Writable (Json.nestingLimit - 2) ∧
      ∃ data, (config ⟨0, 0, 0⟩ default cache none).data.encode = .ok data ∧
        ConfigSnapshot.form.read (String.ofList data) = .ok (.of default above none) ∧
        ConfigSnapshot.of default above none ≠ .of default cache none := by
  intro cache above
  have hcache : cache.Writable (Json.nestingLimit - 2) := ⟨by decide +kernel, nofun⟩
  have hcustom : Form.documents.optional.ReadAs .bestEffort cache.remoteCustom none := .none
  refine ⟨hcache, _, rfl, ?_, fun hsame => ?_⟩
  · exact ConfigSnapshot.read_render_of default hcache none Binary64.readAs_of_ten_elevenths hcustom
  · have hratio : (⟨0x3fed1745d1745d18⟩ : Binary64) = ⟨0x3fed1745d1745d17⟩ :=
      congrArg (·.cache.evictRatio) hsame
    exact absurd hratio (by decide)

end TraceLog
