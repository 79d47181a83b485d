import TraceLog.Proofs.Record.OneLine
import TraceLog.Proofs.Store.Lines

/-!
# TraceLog.Proofs.Record.Batch

A batch of records is as many lines.

A record that is written as a line holds no control characters, so the only
line feeds of a batch are those that end its lines, and the text that a batch
adds to the file splits back into the lines of the records.

* `Record.IsLine` — the lines of records;
* `Record.lines_split_back` — what a batch of them adds to the file.
-/

namespace TraceLog

namespace Record

/-- The line of a record whose data were not given as a text. -/
def IsLine (line : String) : Prop :=
  ∃ r : Record, (∀ text, r.data ≠ .verbatim text) ∧ r.toLine = .ok line

/-- The line of a record holds no control characters. -/
theorem IsLine.noControls {line : String} (h : IsLine line) : NoControls line.toList := by
  obtain ⟨r, hdata, hline⟩ := h
  rcases toLine_structured hdata with ⟨other, hother, hcontrols⟩ | ⟨fault, hfault⟩
  · have heq : line = other := by
      rw [hline, Except.ok.injEq] at hother
      exact hother
    rw [heq]
    exact hcontrols
  · rw [hline] at hfault
    contradiction

/-- Lines of records hold no line feeds. -/
theorem oneLiners_of_isLine {lines : List String} (h : ∀ line ∈ lines, IsLine line) :
    OneLiners lines := by
  intro line hmem hnewline
  have hcontrol := (h line hmem).noControls '\n' hnewline
  exact absurd hcontrol (by decide)

/-- **One record is one line.**  A record of settings, of a wait or of a
payload is never refused for an end of line, and its line holds no control
characters.  So the text that a batch of such lines adds to the file, on any
disk, splits back at the line feeds into exactly these lines, each of them
ended. -/
theorem lines_split_back :
    (∀ r : Record, (∀ text, r.data ≠ .verbatim text) →
      r.toLine ≠ .error .embeddedNewline ∧
        ∀ line, r.toLine = .ok line → NoControls line.toList) ∧
    ∀ lines : List String, (∀ line ∈ lines, IsLine line) →
      ∀ (g : Generations) (d d' : Disk), g.write lines d = (.ok (), d') →
        (lines = [] ∧ d' = d) ∨
          ∃ place opened text, g.openActive (g.rotateIfLarge d).2 = (.ok place, opened) ∧
            (∀ content, opened.tree.fileAt place = some content →
              d'.tree.fileAt place = some (content ++ text)) ∧
            lineParts text.toList = (lines.map String.toList, []) := by
  constructor
  · intro r hdata
    constructor
    · rcases toLine_structured hdata with ⟨line, hline, -⟩ | ⟨fault, hfault⟩
      · simp [hline]
      · simp [hfault]
    · intro line hline
      exact IsLine.noControls ⟨r, hdata, hline⟩
  · intro lines hlines g d d' hrun
    by_cases hempty : lines.isEmpty = true
    · have hnil : lines = [] := List.isEmpty_iff.1 hempty
      subst hnil
      cases hrun
      exact .inl ⟨rfl, rfl⟩
    · obtain ⟨place, opened, hopen, hadded⟩ := Generations.fileAt_of_write_eq_ok hempty hrun
      have hsplit := Generations.lineParts_ended (oneLiners_of_isLine hlines)
      exact .inr ⟨place, opened, _, hopen, hadded, hsplit⟩

/-- A request whose key and texts are full of control characters, and a wait:
two lines in a new file. -/
theorem lines_split_back_of_controls :
    let payload : Record :=
      ⟨⟨0, 0, 0⟩, .request, .payload (.map [("\n\x00", .list [.str "\r\x1f\x7f", .null])])⟩
    let wait : Record := .wait ⟨0, 0, 0⟩ ⟨"\t\n", [1], none⟩
    let lines := [payload, wait].map fun r => r.toLine.toOption.getD ""
    let g : Generations := .of "t.log" 2 ⟨0⟩
    let disk : Disk := .quiet ⟨[], [], 4096⟩
    (∀ line ∈ lines, IsLine line) ∧ lines.length = 2 ∧
      ∃ d', g.write lines disk = (.ok (), d') ∧
        ∃ place opened text, g.openActive (g.rotateIfLarge disk).2 = (.ok place, opened) ∧
          (∀ content, opened.tree.fileAt place = some content →
            d'.tree.fileAt place = some (content ++ text)) ∧
          lineParts text.toList = (lines.map String.toList, []) := by
  intro payload wait lines g disk
  have hlines : ∀ line ∈ lines, IsLine line := by
    have hmade : ∀ r : Record, (∀ text, r.data ≠ .verbatim text) → r.toLine.isOk = true →
        IsLine (r.toLine.toOption.getD "") := by
      intro r hdata hok
      obtain ⟨line, hline⟩ := Generations.exists_of_isOk hok
      exact ⟨r, hdata, by simp [hline, Except.toOption]⟩
    simp only [lines, List.map_cons, List.map_nil, List.forall_mem_cons]
    exact ⟨hmade payload (by simp [payload]) (by decide +kernel),
      hmade wait (by simp [wait, Record.wait]) (by decide +kernel), by simp⟩
  obtain ⟨⟨⟩, hok⟩ : ∃ value, (g.write lines disk).1 = .ok value :=
    Generations.exists_of_isOk (by decide +kernel)
  have hwrite : g.write lines disk = (.ok (), (g.write lines disk).2) := Prod.ext hok rfl
  refine ⟨hlines, rfl, _, hwrite, ?_⟩
  exact (lines_split_back.2 lines hlines g disk _ hwrite).resolve_left (by simp [lines])

end Record

end TraceLog
