import TraceLog.Proofs.Payload.Scalars
import TraceLog.Proofs.Recorder.Request

/-!
# TraceLog.Proofs.Recorder.Floats

What becomes of numbers that are not finite.

A request with such a number in a field that survives is refused, and nothing
is recorded.  Settings are not: the ratio of the cache is written as `null`,
and the record is taken like any other.  A wait holds no floating-point number.

* `Record.toLine_eq_error_of_hasNonFinite` — requests have no line then;
* `Record.exists_document_of_toLine` — a line of a request keeps all scalars;
* `Record.evictRatio?_toJson` — how the ratio of the cache is written;
* `Recorder.nonFinite_refused_or_null` — what becomes of either record;
* `Recorder.config_takes_nan` — a ratio that is no number is taken.
-/

namespace TraceLog

namespace Json

/-- The value of a field of an object. -/
def field? (name : String) : Json → Option Json
  | .object fields => Entries.find? name fields
  | _ => none

/-- A number is written as `null` exactly if it is not finite. -/
theorem ofFloat_eq_null_iff {x : Binary64} : ofFloat x = .null ↔ x.isFinite = false := by
  rw [ofFloat]
  split <;> simp [*]

end Json

namespace Record

/-- The ratio of the cache in the document of settings. -/
def evictRatio? (document : Json) : Option Json :=
  (document.field? "cache_config").bind (·.field? "evict_ratio")

/-- The ratio is written like any field, whatever it is. -/
theorem evictRatio?_toJson (s : ConfigSnapshot) :
    evictRatio? (ConfigSnapshot.form.toJson s) = some (.ofFloat s.cache.evictRatio) := by
  rfl

variable {time : Timestamp} {request : Request}

/-- The data of a request have the scalars of the fields that survive. -/
theorem scalars_of_data {document : Json} (h : request.data.toJson = .ok document) :
    List.Forall₂ Payload.WrittenAs request.merged.scalars document.scalars := by
  have hscalars := request.data.scalars_of_toJson h
  rwa [request.data_eq_normalize_merged, Payload.scalars_normalize] at hscalars

/-- Data without a document make no line. -/
theorem toLine_of_toJson_eq_error {fault : EncodeFault} (h : request.data.toJson = .error fault) :
    (Record.request time request).toLine = .error (.serialization (.encoding fault)) := by
  simp [toLine, Record.request, RecordData.encode, Payload.encode, h, Except.map]

/-- Data with a document make the line of that document. -/
theorem toLine_of_toJson {document : Json} (h : request.data.toJson = .ok document) :
    (Record.request time request).toLine =
      .ok (String.ofList ((Record.request time request).envelope document.render)) := by
  refine toLine_of_noControls ?_ document.noControls_render
  simp [Record.request, RecordData.encode, Payload.encode, h, Except.map]

/-- A request that holds a number that is not finite has no line. -/
theorem toLine_eq_error_of_hasNonFinite (time : Timestamp)
    (h : request.merged.hasNonFinite = true) :
    ∃ fault, (Record.request time request).toLine = .error (.serialization (.encoding fault)) := by
  cases hdocument : request.data.toJson with
  | error fault => exact ⟨fault, toLine_of_toJson_eq_error hdocument⟩
  | ok document =>
      have hfinite := Payload.any_isNonFinite_eq_false (scalars_of_data hdocument)
      rw [Payload.hasNonFinite, hfinite] at h
      contradiction

/-- A request whose fields are encodable has a line. -/
theorem exists_toLine_of_encodable (h : request.merged.Encodable) :
    ∃ line, (Record.request time request).toLine = .ok line := by
  obtain ⟨document, hdocument⟩ := request.hasDocument_data_iff.2 h
  exact ⟨_, toLine_of_toJson hdocument⟩

/-- A line of a request is that of a document with the scalars of the fields
that survive. -/
theorem exists_document_of_toLine {line : String}
    (h : (Record.request time request).toLine = .ok line) :
    ∃ document : Json,
      line = String.ofList ((Record.request time request).envelope document.render) ∧
        List.Forall₂ Payload.WrittenAs request.merged.scalars document.scalars := by
  cases hdocument : request.data.toJson with
  | error fault =>
      rw [toLine_of_toJson_eq_error hdocument] at h
      contradiction
  | ok document =>
      rw [toLine_of_toJson hdocument, Except.ok.injEq] at h
      exact ⟨document, h.symm, scalars_of_data hdocument⟩

/-- A record of settings has a line, whatever the settings are. -/
theorem toLine_config (time : Timestamp) (model : ModelSettings) (cache : CacheSettings)
    (layout : Option LayoutSettings) :
    (config time model cache layout).toLine =
      .ok (String.ofList ((config time model cache layout).envelope
        (ConfigSnapshot.form.toJson (.of model cache layout)).render)) :=
  toLine_of_noControls rfl (Json.noControls_render _)

end Record

namespace Recorder

/-- A request that holds a number that is not finite changes nothing. -/
theorem request?_of_hasNonFinite {request : Request} (hbuild : request.buildable = true)
    (h : request.merged.hasNonFinite = true) (time : Timestamp) (clock : Clock) (s : Session)
    (disk : Disk) :
    ∃ fault, request? time request clock ⟨some s⟩ disk =
      some (.error (.serialization fault), ⟨some s⟩, disk) := by
  obtain ⟨fault, hline⟩ := Record.toLine_eq_error_of_hasNonFinite time h
  refine ⟨.encoding fault, ?_⟩
  simp [request?, hbuild, Recorder.request, add_of_toLine_eq_error hline]

/-- **Numbers that are not finite.**  A request in which one survives, at
whatever depth, has no line, and recording it changes neither the session nor
the disk; the line of any other request has one scalar for each that survives,
and none but `null` is written as `null`.  Settings always have a line, which is
taken, and its document gives the ratio of the cache as `null` exactly if the
ratio is not finite. -/
theorem nonFinite_refused_or_null (time : Timestamp) (clock : Clock) (s : Session) (disk : Disk) :
    (∀ request : Request, request.buildable = true → request.merged.hasNonFinite = true →
      (∃ fault, (Record.request time request).toLine = .error (.serialization fault)) ∧
        ∃ fault, request? time request clock ⟨some s⟩ disk =
          some (.error (.serialization fault), ⟨some s⟩, disk)) ∧
    (∀ (request : Request) (line : String), (Record.request time request).toLine = .ok line →
      ∃ document : Json,
        line = String.ofList ((Record.request time request).envelope document.render) ∧
          List.Forall₂ Payload.WrittenAs request.merged.scalars document.scalars) ∧
    (∀ model (cache : CacheSettings) layout, ∃ (document : Json) (s' : Session) (disk' : Disk),
      config time model cache layout clock ⟨some s⟩ disk = (.ok (), ⟨some s'⟩, disk') ∧
        s.Took (String.ofList ((Record.config time model cache layout).envelope document.render))
          clock disk s' disk' ∧
        (Record.evictRatio? document = some .null ↔ cache.evictRatio.isFinite = false)) := by
  refine ⟨fun request hbuild h => ⟨?_, ?_⟩, fun request line h => ?_, fun model cache layout => ?_⟩
  · obtain ⟨fault, hline⟩ := Record.toLine_eq_error_of_hasNonFinite time h
    exact ⟨_, hline⟩
  · exact request?_of_hasNonFinite hbuild h time clock s disk
  · exact Record.exists_document_of_toLine h
  · obtain ⟨s', disk', hadd, htook⟩ :=
      add_of_toLine_eq_ok clock s disk (Record.toLine_config time model cache layout)
    refine ⟨_, s', disk', hadd, htook, ?_⟩
    rw [Record.evictRatio?_toJson, Option.some.injEq, Json.ofFloat_eq_null_iff]
    rfl

/-- An infinity in an array, in a map that the caller adds, is refused; two
shapes and two arrays of integers are written scalar by scalar. -/
theorem nonFinite_refused_or_null_of_nested_infinity :
    let plain := Request.of "get" 1 ⟨0, [2], [.int 7, .int 8]⟩ ⟨1, [2], [.int 0, .int 1]⟩
    let request := plain.withExtra "x"
      (.map [("weights", .array 2 [1, 2] [.float ⟨0⟩, .float ⟨0x7ff0000000000000⟩])])
    let session : Session := ⟨"t.log", .ofTracing (.toFile "t.log"), .empty 1000 8192 0⟩
    let disk : Disk := .quiet ⟨[], [], 4096⟩
    request.buildable = true ∧ request.merged.hasNonFinite = true ∧
      (∃ fault, request? ⟨0, 0, 0⟩ request ⟨0, 0⟩ ⟨some session⟩ disk =
        some (.error (.serialization fault), ⟨some session⟩, disk)) ∧
      ∃ line, (Record.request ⟨0, 0, 0⟩ plain).toLine = .ok line ∧
        ∃ document : Json,
          line = String.ofList ((Record.request ⟨0, 0, 0⟩ plain).envelope document.render) ∧
            List.Forall₂ Payload.WrittenAs plain.merged.scalars document.scalars := by
  intro plain request session disk
  have hbuild : request.buildable = true := by decide +kernel
  have hinfinite : request.merged.hasNonFinite = true := by decide +kernel
  obtain ⟨line, hline⟩ : ∃ line, (Record.request ⟨0, 0, 0⟩ plain).toLine = .ok line :=
    Record.exists_toLine_of_encodable (by decide +kernel)
  obtain ⟨hrefused, hwritten, -⟩ := nonFinite_refused_or_null ⟨0, 0, 0⟩ ⟨0, 0⟩ session disk
  exact ⟨hbuild, hinfinite, (hrefused request hbuild hinfinite).2, line, hline,
    hwritten plain line hline⟩

/-- **A ratio that is no number is written as `null`.**  The record is taken by a
new session, and its line waits. -/
theorem config_takes_nan :
    let cache : CacheSettings := { CacheSettings.standard with evictRatio := ⟨0x7ff8000000000000⟩ }
    let session : Session := ⟨"t.log", .ofTracing (.toFile "t.log"), .empty 1000 8192 0⟩
    cache.evictRatio.isFinite = false ∧
      ∃ line s' disk', (Record.config ⟨0, 0, 0⟩ default cache none).toLine = .ok line ∧
        "\"evict_ratio\":null\x7d,\"gpu_layout\":null\x7d\x7d".toList <:+ line.toList ∧
        config ⟨0, 0, 0⟩ default cache none ⟨0, 0⟩ ⟨some session⟩ (.quiet ⟨[], [], 4096⟩) =
          (.ok (), ⟨some s'⟩, disk') ∧
        s'.buffer.queue.toList = [line] := by
  intro cache session
  obtain ⟨line, hline, hend⟩ : ∃ line,
      (Record.config ⟨0, 0, 0⟩ default cache none).toLine = .ok line ∧
        line.toList.drop 856 = "\"evict_ratio\":null\x7d,\"gpu_layout\":null\x7d\x7d".toList := by
    refine ⟨_, Record.toLine_config ⟨0, 0, 0⟩ default cache none, ?_⟩
    rw [String.toList_ofList]
    decide +kernel
  obtain ⟨s', disk', hadd, htook⟩ := add_of_toLine_eq_ok ⟨0, 0⟩ session (.quiet ⟨[], [], 4096⟩) hline
  refine ⟨by decide, line, s', disk', hline, hend ▸ List.drop_suffix 856 _, hadd, ?_⟩
  cases htook with
  | waits hdue => rfl
  | drains hdue => contradiction

end Recorder

end TraceLog
