import TraceLog.Proofs.Schema.Accepted
import TraceLog.Proofs.Schema.RoundTrip
import TraceLog.Record.Line
import TraceLog.Settings.Tracing

/-!
# TraceLog.Proofs.Settings.Faithful

Reading undoes writing.

Settings, snapshots and waits are read from the texts that they are written
as.  Any other text that is accepted — a record as an array, fields in another
order, left out or unknown, names over `null`, integers for floating-point
numbers — is rewritten to such a text, which stands for the same value.

* `Form.Faithful` — the two directions, for one type;
* `Form.Faithful.of_fits` — what makes a form faithful;
* `forms_faithful` — all forms are.
-/

namespace TraceLog

namespace Form

variable {α : Type} {p : Precision}

/-- The text of the value that a text is read as. -/
def rewrite (p : Precision) (f : Form α) (text : String) : Except Json.Fault String :=
  (f.read text p).map fun a => String.ofList (f.render a)

/-- Reading undoes writing for the values that can be written, and no others
are read.  Values have to be legible: a floating-point number that is not read
back from its own text is not read back as a part of a value, either. -/
structure Faithful (p : Precision) (f : Form α) (Writable Legible : α → Prop) : Prop where
  /-- A value that can be written is read from its text. -/
  read_render : ∀ a, Writable a → Legible a → f.read (String.ofList (f.render a)) p = .ok a
  /-- What is read, from whatever text, can be written. -/
  writable_of_read : ∀ text a, f.read text p = .ok a → Writable a
  /-- A rewritten text is read as the same value, and is not changed by
  rewriting it again. -/
  rewrite_rewrite : ∀ text a, f.read text p = .ok a → Legible a →
    ∃ rewritten, f.rewrite p text = .ok rewritten ∧ f.read rewritten p = .ok a ∧
      f.rewrite p rewritten = .ok rewritten

/-- A form is faithful to the values that fit, if its schema is unambiguous and
it has only such values for what a document leaves out. -/
theorem Faithful.of_fits {f : Form α} {Writable Legible : α → Prop}
    (hschema : f.schema.unambiguous = true) (hfits : ∀ a, f.Fits Json.nestingLimit a ↔ Writable a)
    (hlegible : ∀ a, Legible a → f.ReadAs p a a) (hfallback : ∀ a ∈ f.fallback, Writable a) :
    f.Faithful p Writable Legible where
  read_render a ha hread := f.read_render hschema ((hfits a).2 ha) (hlegible a hread)
  writable_of_read text a h :=
    (hfits a).1 (fits_of_read (fun a ha => (hfits a).2 (hfallback a ha)) h)
  rewrite_rewrite text a h ha := by
    have hfits := fits_of_read (fun a ha => (hfits a).2 (hfallback a ha)) h
    have hread := f.read_render hschema hfits (hlegible a ha)
    refine ⟨String.ofList (f.render a), ?_, hread, ?_⟩
    · rw [rewrite, h]
      rfl
    · rw [rewrite, hread]
      rfl

/-- A form is faithful to all values, if they all fit and hold no
floating-point numbers. -/
theorem Faithful.of_forall_fits {f : Form α} (hschema : f.schema.unambiguous = true)
    (hfits : ∀ a, f.Fits Json.nestingLimit a) (hread : ∀ a, f.ReadAs p a a) :
    f.Faithful p (fun _ => True) fun _ => True :=
  .of_fits hschema (fun a => iff_of_true (hfits a) trivial) (fun a _ => hread a)
    fun _ _ => trivial

end Form

/-! ## The types -/

section

variable {κ ε : Type} {p : Precision} {name : String} {depth : Nat}

/-- A model is written as it is. -/
theorem Model.fits_form {elementType : Form ε} (h : ∀ t, elementType.Fits depth t) (m : Model ε) :
    (Model.form name elementType).Fits (depth + 1) m := by
  simp [Model.form, h]

/-- And it is read as it was written, like all that has no floating-point
numbers. -/
theorem Model.readAs_form {elementType : Form ε} (h : ∀ t, elementType.ReadAs p t t)
    (m : Model ε) : (Model.form name elementType).ReadAs p m m := by
  simp [Model.form, h]

/-- So is a layout. -/
theorem Layout.fits_form {kind : Form κ} (h : ∀ k, kind.Fits depth k) (l : Layout κ) :
    (Layout.form name kind).Fits (depth + 1) l := by
  simp [Layout.form, h]

theorem Layout.readAs_form {kind : Form κ} (h : ∀ k, kind.ReadAs p k k) (l : Layout κ) :
    (Layout.form name kind).ReadAs p l l := by
  simp [Layout.form, h]

/-- What a cache needs to be written without loss: a ratio that is finite, and
free settings that are ordered and nested at most so deep. -/
structure Cache.Writable (depth : Nat) (c : Cache κ) : Prop where
  finite : c.evictRatio.isFinite = true
  custom : ∀ entries ∈ c.remoteCustom, (Json.object entries).Fits depth

/-- What it needs to be read back: a ratio and numbers in the free settings
that are read back from their own texts. -/
structure Cache.Legible (p : Precision) (c : Cache κ) : Prop where
  ratio : c.evictRatio.Legible p
  custom : ∀ entries ∈ c.remoteCustom, (Json.object entries).Legible p

theorem Cache.fits_form_iff {kind : Form κ} (h : ∀ k, kind.Fits (depth + 1) k) (c : Cache κ) :
    (Cache.form name kind).Fits (depth + 1 + 1) c ↔ c.Writable (depth + 1) := by
  have hparts : (Cache.form name kind).Fits (depth + 1 + 1) c ↔
      (∀ entries ∈ c.remoteCustom, (Json.object entries).Fits (depth + 1)) ∧
        c.evictRatio.isFinite = true := by
    simp [Cache.form, h]
  rw [hparts]
  exact ⟨fun h => ⟨h.2, h.1⟩, fun h => ⟨h.custom, h.finite⟩⟩

/-- A cache is read with another ratio and other free settings, at most. -/
theorem Cache.readAs_form {kind : Form κ} (h : ∀ k, kind.ReadAs p k k) {c : Cache κ}
    {ratio : Binary64} {custom : Option (Entries Json)} (hratio : c.evictRatio.ReadAs p ratio)
    (hcustom : Form.documents.optional.ReadAs p c.remoteCustom custom) :
    (Cache.form name kind).ReadAs p c { c with evictRatio := ratio, remoteCustom := custom } := by
  simp [Cache.form, h, hratio, hcustom]

theorem Cache.Legible.readAs_custom {c : Cache κ} (h : c.Legible p) :
    Form.documents.optional.ReadAs p c.remoteCustom c.remoteCustom :=
  Form.readAs_optional.2 fun entries hentries => (h.custom entries hentries).readAs

theorem Cache.readAs_self {kind : Form κ} (h : ∀ k, kind.ReadAs p k k) (c : Cache κ)
    (hc : c.Legible p) : (Cache.form name kind).ReadAs p c c :=
  Cache.readAs_form h hc.ratio hc.readAs_custom

end

section

variable {p : Precision}

theorem Tracing.fits_form_iff {depth : Nat} (t : Tracing) :
    form.Fits (depth + 1) t ↔ t.maxFileSize.isFinite = true := by
  simp [form]

theorem Tracing.readAs_form (t : Tracing) (h : t.maxFileSize.Legible p) : form.ReadAs p t t := by
  have hsize : t.maxFileSize.ReadAs p t.maxFileSize := h
  simp [form, hsize]

theorem TaskIds.fits_form {depth : Nat} (tasks : TaskIds) : form.Fits (depth + 1) tasks := by
  simp [form]

theorem TaskIds.readAs_form (tasks : TaskIds) : form.ReadAs p tasks tasks := by
  simp [form]

theorem Wait.fits_form {depth : Nat} (w : Wait) : form.Fits (depth + 2) w := by
  simp [form, TaskIds.form]

theorem Wait.readAs_form (w : Wait) : form.ReadAs p w w := by
  simp [form, TaskIds.form]

theorem ConfigSnapshot.fits_form_iff {depth : Nat} (s : ConfigSnapshot) :
    form.Fits (depth + 3) s ↔ s.cache.Writable (depth + 1) := by
  have hparts : form.Fits (depth + 3) s ↔ CacheSnapshot.form.Fits (depth + 2) s.cache := by
    simp [form, ModelSnapshot.form, LayoutSnapshot.form, Model.fits_form, Layout.fits_form]
  rw [hparts]
  exact Cache.fits_form_iff Form.fits_text s.cache

/-- A snapshot is read with what its cache is read as. -/
theorem ConfigSnapshot.readAs_form {s : ConfigSnapshot} {cache : CacheSnapshot}
    (h : CacheSnapshot.form.ReadAs p s.cache cache) :
    form.ReadAs p s { s with cache := cache } := by
  simp [form, ModelSnapshot.form, LayoutSnapshot.form, Model.readAs_form, Layout.readAs_form, h]

theorem Tracing.faithful :
    form.Faithful p (fun t => t.maxFileSize.isFinite = true) fun t => t.maxFileSize.Legible p :=
  .of_fits (by decide +kernel) fits_form_iff readAs_form (by decide +kernel)

theorem CacheSettings.faithful :
    form.Faithful p (Cache.Writable (Json.nestingLimit - 1)) (Cache.Legible p) :=
  .of_fits (by decide +kernel) (Cache.fits_form_iff Form.fits_named)
    (Cache.readAs_self Form.readAs_named) (by
      rintro _ ⟨⟩
      exact ⟨by decide +kernel, nofun⟩)

theorem CacheSnapshot.faithful :
    form.Faithful p (Cache.Writable (Json.nestingLimit - 1)) (Cache.Legible p) :=
  .of_fits (by decide +kernel) (Cache.fits_form_iff Form.fits_text)
    (Cache.readAs_self Form.readAs_text) fun _ (h : none = some _) => nomatch h

theorem ConfigSnapshot.unambiguous_form : form.schema.unambiguous = true := by decide +kernel

theorem ConfigSnapshot.faithful :
    form.Faithful p (fun s => s.cache.Writable (Json.nestingLimit - 2)) fun s =>
      s.cache.Legible p :=
  .of_fits unambiguous_form fits_form_iff
    (fun s h => readAs_form (Cache.readAs_self Form.readAs_text s.cache h))
    fun _ (h : none = some _) => nomatch h

end

/-- **Reading undoes writing for every type that is read**, at any precision.  A
value is read from its own text if its floating-point numbers are finite and are
read back, and if its free settings are nested within the limit of the reader;
all other values have no such condition to meet.  Whatever else a text looks
like, if it is accepted then it is read as such a value, and rewriting it gives
a text that is read as the same value and stays as it is when it is rewritten,
again if the numbers are read back.  By a reader that takes the nearest numbers
all of them are. -/
theorem forms_faithful (p : Precision) :
    Tracing.form.Faithful p (fun t => t.maxFileSize.isFinite = true)
        (fun t => t.maxFileSize.Legible p) ∧
      ModelSettings.form.Faithful p (fun _ => True) (fun _ => True) ∧
      CacheSettings.form.Faithful p (Cache.Writable (Json.nestingLimit - 1)) (Cache.Legible p) ∧
      LayoutSettings.form.Faithful p (fun _ => True) (fun _ => True) ∧
      ElementType.form.Faithful p (fun _ => True) (fun _ => True) ∧
      LayoutKind.form.Faithful p (fun _ => True) (fun _ => True) ∧
      EventKind.form.Faithful p (fun _ => True) (fun _ => True) ∧
      ConfigSnapshot.form.Faithful p (fun s => s.cache.Writable (Json.nestingLimit - 2))
        (fun s => s.cache.Legible p) ∧
      ModelSnapshot.form.Faithful p (fun _ => True) (fun _ => True) ∧
      CacheSnapshot.form.Faithful p (Cache.Writable (Json.nestingLimit - 1)) (Cache.Legible p) ∧
      LayoutSnapshot.form.Faithful p (fun _ => True) (fun _ => True) ∧
      TaskIds.form.Faithful p (fun _ => True) (fun _ => True) ∧
      Wait.form.Faithful p (fun _ => True) (fun _ => True) :=
  ⟨Tracing.faithful,
    .of_forall_fits (by decide +kernel) (Model.fits_form Form.fits_named)
      (Model.readAs_form Form.readAs_named),
    CacheSettings.faithful,
    .of_forall_fits (by decide +kernel) (Layout.fits_form Form.fits_named)
      (Layout.readAs_form Form.readAs_named),
    .of_forall_fits rfl Form.fits_named Form.readAs_named,
    .of_forall_fits rfl Form.fits_named Form.readAs_named,
    .of_forall_fits rfl Form.fits_named Form.readAs_named,
    ConfigSnapshot.faithful,
    .of_forall_fits (by decide +kernel) (Model.fits_form Form.fits_text)
      (Model.readAs_form Form.readAs_text),
    CacheSnapshot.faithful,
    .of_forall_fits (by decide +kernel) (Layout.fits_form Form.fits_text)
      (Layout.readAs_form Form.readAs_text),
    .of_forall_fits rfl TaskIds.fits_form TaskIds.readAs_form,
    .of_forall_fits (by decide +kernel) Wait.fits_form Wait.readAs_form⟩

/-- An array of the first three fields, a size among them as an integer. -/
example :
    Tracing.form.rewrite .bestEffort " [true, \"a.log\", 8]" =
      .ok ("\x7b\"enable_trace\":true,\"trace_file_path\":\"a.log\"," ++
        "\"trace_max_file_size_mb\":8.0,\"trace_max_files\":5," ++
        "\"trace_flush_interval_ms\":1000,\"trace_max_buffered_records\":8192\x7d") := by
  decide +kernel

end TraceLog
