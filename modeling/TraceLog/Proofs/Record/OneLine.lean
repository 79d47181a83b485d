import TraceLog.Proofs.Json.Controls
import TraceLog.Record.Line

/-!
# TraceLog.Proofs.Record.OneLine

A record is one line.

What stands around the data of a record holds no control characters, so the
check for an end of line fails for no record whose data have none.

* `Record.newline_notMem` — no line that was made holds an end of line;
* `Record.toLine_payload` — a payload with a document is never refused;
* `Record.toLine_structured` — data that are no text are refused only if they
  cannot be encoded, and their line holds no control characters.
-/

namespace TraceLog

namespace Timestamp

@[simp] theorem noControls_padded (width n : Nat) : NoControls (padded width n) := by
  simp [padded]

/-- The text of an instant holds no control characters. -/
theorem noControls_render (t : Timestamp) : NoControls t.render := by
  have hyear : NoControls (renderYear t.date.year) := by
    rw [renderYear]
    split
    · simp
    · split <;> simp
  have hfraction : NoControls (renderFraction (t.nanos % 1000000000)) := by
    rw [renderFraction]
    repeat' split
    all_goals simp
  have hoffset : NoControls (renderOffset t.offset) := by
    rw [renderOffset]
    split
    · simp
    · split <;> simp
  simp [render, renderDate, renderTime, hyear, hfraction, hoffset]

end Timestamp

/-- Data that were not given as a text are written without control
characters. -/
theorem RecordData.noControls_encode {data : RecordData} (hdata : ∀ text, data ≠ .verbatim text)
    {text : List Char} (h : data.encode = .ok text) : NoControls text := by
  cases data with
  | snapshot s =>
      rw [encode, Except.ok.injEq] at h
      subst h
      exact Json.noControls_render _
  | wait w =>
      rw [encode, Except.ok.injEq] at h
      subst h
      exact Json.noControls_render _
  | payload p =>
      cases hdocument : p.toJson with
      | error fault => simp [encode, Payload.encode, hdocument, Except.map] at h
      | ok document =>
          simp only [encode, Payload.encode, hdocument, Except.map, Except.ok.injEq] at h
          subst h
          exact document.noControls_render
  | verbatim text => exact absurd rfl (hdata text)

namespace Record

variable {r : Record}

/-- A text without control characters ends no line. -/
theorem any_breaksLine_eq_false {text : List Char} (h : NoControls text) :
    text.any breaksLine = false := by
  rw [List.any_eq_false]
  intro c hc hbreaks
  have hcontrol := h c hc
  rw [breaksLine, Bool.or_eq_true, beq_iff_eq, beq_iff_eq] at hbreaks
  rcases hbreaks with rfl | rfl
  · exact absurd hcontrol (by decide)
  · exact absurd hcontrol (by decide)

/-- What stands around the data of a record holds no control characters. -/
theorem noControls_envelope {data : List Char} (h : NoControls data) :
    NoControls (r.envelope data) := by
  refine Json.noControls_enclose ?_
  have htime : NoControls ('"' :: (r.timestamp.render ++ ['"'])) := by
    simp [Timestamp.noControls_render]
  simp [Json.noControls_renderField, htime, h]

/-- Data without control characters make one line. -/
theorem toLine_of_noControls {data : List Char} (hencode : r.data.encode = .ok data)
    (h : NoControls data) : r.toLine = .ok (String.ofList (r.envelope data)) := by
  have hone : (r.envelope data).any breaksLine = false :=
    any_breaksLine_eq_false (noControls_envelope h)
  simp [toLine, hencode, hone]

/-- **No line holds an end of line.** -/
theorem newline_notMem {line : String} (h : r.toLine = .ok line) : '\n' ∉ line.toList := by
  rw [toLine] at h
  split at h
  · contradiction
  · next data hencode =>
      dsimp only at h
      split at h
      · contradiction
      · next hone =>
          rw [Except.ok.injEq] at h
          subst h
          intro hmem
          rw [String.toList_ofList] at hmem
          exact hone (List.any_eq_true.2 ⟨'\n', hmem, by decide⟩)

/-- A record whose data were not given as a text has a line without control
characters, or its data cannot be encoded. -/
theorem toLine_structured (hdata : ∀ text, r.data ≠ .verbatim text) :
    (∃ line, r.toLine = .ok line ∧ NoControls line.toList) ∨
      ∃ fault, r.toLine = .error (.serialization (.encoding fault)) := by
  cases hencode : r.data.encode with
  | error fault =>
      refine .inr ⟨fault, ?_⟩
      simp [toLine, hencode]
  | ok data =>
      have hcontrols := RecordData.noControls_encode hdata hencode
      have hline := toLine_of_noControls hencode hcontrols
      refine .inl ⟨_, hline, ?_⟩
      rw [String.toList_ofList]
      exact noControls_envelope hcontrols

/-- A payload that has a document makes a line, and one that has none makes
the fault that its encoding reports. -/
theorem toLine_payload (time : Timestamp) (kind : EventKind) (p : Payload) :
    (∃ line, (Record.mk time kind (.payload p)).toLine = .ok line ∧
        ∃ document, p.toJson = .ok document) ∨
      ∃ fault, (Record.mk time kind (.payload p)).toLine =
          .error (.serialization (.encoding fault)) ∧ p.toJson = .error fault := by
  cases hdocument : p.toJson with
  | error fault =>
      refine .inr ⟨fault, ?_, rfl⟩
      simp [toLine, RecordData.encode, Payload.encode, hdocument, Except.map]
  | ok document =>
      refine .inl ⟨_, toLine_of_noControls ?_ document.noControls_render, document, rfl⟩
      simp [RecordData.encode, Payload.encode, hdocument, Except.map]

end Record

end TraceLog
