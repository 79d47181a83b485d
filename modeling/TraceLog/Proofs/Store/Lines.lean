import TraceLog.Proofs.Store.Rotation

/-!
# TraceLog.Proofs.Store.Lines

The lines in the generations of a file.

A file that holds ended lines and nothing else can be read back line by line.
The lines of all generations, the oldest first, are then one list: a batch
that is written comes in at its end, and generations that move on leave it as
it was, apart from the lines of the oldest one.

* `linesIn` — the lines that end in a text;
* `Generations.stored` — the lines of some generations, the oldest first;
* `Generations.Whole` — files that hold ended lines and nothing else;
* `Generations.stored_written` — the lines after a batch was written.
-/

namespace TraceLog

/-! ## Lines of a text -/

/-- The lines that end in a text, and the characters behind them. -/
def lineParts : List Char → List (List Char) × List Char
  | [] => ([], [])
  | c :: cs =>
    let (lines, rest) := lineParts cs
    if c = '\n' then ([] :: lines, rest)
    else match lines with
      | [] => ([], c :: rest)
      | line :: lines => ((c :: line) :: lines, rest)

/-- The lines that end in a text, without their line feeds. -/
def linesIn (text : String) : List String := (lineParts text.toList).1.map String.ofList

@[simp] theorem linesIn_empty : linesIn "" = [] := by simp [linesIn, lineParts]

/-- No line holds a line feed. -/
def OneLiners (lines : List String) : Prop := ∀ line ∈ lines, '\n' ∉ line.toList

theorem OneLiners.append {lines more : List String} (h : OneLiners lines)
    (hmore : OneLiners more) : OneLiners (lines ++ more) := by
  intro line hline
  rw [List.mem_append] at hline
  cases hline with
  | inl hmem => exact h line hmem
  | inr hmem => exact hmore line hmem

/-- An ended line in front is the first line. -/
theorem lineParts_append {line : List Char} (h : '\n' ∉ line) (cs : List Char) :
    lineParts (line ++ '\n' :: cs) = (line :: (lineParts cs).1, (lineParts cs).2) := by
  induction line with
  | nil => simp [lineParts]
  | cons c line ih =>
      rw [List.mem_cons, not_or] at h
      have hc : ¬c = '\n' := Ne.symm h.1
      have hline := ih h.2
      simp [lineParts, hc, hline]

theorem newline_notMem_lineParts (cs : List Char) : ∀ line ∈ (lineParts cs).1, '\n' ∉ line := by
  induction cs with
  | nil => simp [lineParts]
  | cons c cs ih =>
      by_cases hc : c = '\n'
      · simpa [lineParts, hc] using ih
      · cases hlines : (lineParts cs).1 with
        | nil => simp [lineParts, hc, hlines]
        | cons line lines =>
            rw [hlines] at ih
            simpa [lineParts, hc, hlines, Ne.symm hc] using ih

theorem oneLiners_linesIn (text : String) : OneLiners (linesIn text) := by
  intro line hline
  rw [linesIn, List.mem_map] at hline
  obtain ⟨chars, hchars, rfl⟩ := hline
  rw [String.toList_ofList]
  exact newline_notMem_lineParts _ _ hchars

namespace Generations

@[simp] theorem ended_nil : ended [] = "" := rfl

@[simp] theorem ended_cons (line : String) (lines : List String) :
    ended (line :: lines) = line ++ "\n" ++ ended lines := rfl

theorem ended_append (first second : List String) :
    ended (first ++ second) = ended first ++ ended second := by
  induction first with
  | nil => simp
  | cons line first ih => simp [ih, String.append_assoc]

/-- **Ended lines split back into the lines**, each of them ended, unless one of
them holds a line feed. -/
theorem lineParts_ended {lines : List String} (h : OneLiners lines) :
    lineParts (ended lines).toList = (lines.map String.toList, []) := by
  induction lines with
  | nil => simp [lineParts]
  | cons line lines ih =>
      have hfirst : '\n' ∉ line.toList := h line List.mem_cons_self
      have hrest := ih fun l hl => h l (List.mem_cons_of_mem _ hl)
      have htext : (ended (line :: lines)).toList =
          line.toList ++ '\n' :: (ended lines).toList := by simp
      rw [htext, lineParts_append hfirst, hrest, List.map_cons]

/-- **Ended lines are read back as they were**, unless one of them holds a line
feed. -/
theorem linesIn_ended {lines : List String} (h : OneLiners lines) :
    linesIn (ended lines) = lines := by
  rw [linesIn, lineParts_ended h]
  simp

/-- Lines come in behind those of a text that ended lines make up. -/
theorem linesIn_append_ended {text : String} (htext : ended (linesIn text) = text)
    {lines : List String} (h : OneLiners lines) :
    linesIn (text ++ ended lines) = linesIn text ++ lines := by
  have hall := (oneLiners_linesIn text).append h
  have hjoin : text ++ ended lines = ended (linesIn text ++ lines) := by
    rw [ended_append, htext]
  rw [hjoin, linesIn_ended hall]

/-! ## Lines of the generations -/

/-- The lines of a generation; none if there is no such file. -/
def linesOf (files : Nat → Option String) (index : Nat) : List String :=
  linesIn ((files index).getD "")

theorem linesOf_of_eq_none {files : Nat → Option String} {index : Nat}
    (h : files index = none) : linesOf files index = [] := by
  rw [linesOf, h, Option.getD_none, linesIn_empty]

/-- The lines of the first so many generations, the oldest first: those of the
active file come last. -/
def stored (files : Nat → Option String) : (count : Nat) → List String
  | 0 => []
  | index + 1 => linesOf files index ++ stored files index

/-- The files hold ended lines and nothing else, and there are none beyond
those that are kept. -/
structure Whole (g : Generations) (files : Nat → Option String) : Prop where
  ended_eq : ∀ index content, files index = some content → ended (linesIn content) = content
  kept : ∀ index, g.count ≤ index → files index = none

/-- Lines that come into the active file come in at the end. -/
theorem stored_succ_append {files files' : Nat → Option String} {lines : List String}
    (hactive : linesOf files' 0 = linesOf files 0 ++ lines)
    (hother : ∀ j, j ≠ 0 → files' j = files j)
    (index : Nat) : stored files' (index + 1) = stored files (index + 1) ++ lines := by
  induction index with
  | zero => simp [stored, hactive]
  | succ index ih =>
      have hsame : linesOf files' (index + 1) = linesOf files (index + 1) := by
        rw [linesOf, linesOf, hother _ (by omega)]
      show linesOf files' (index + 1) ++ stored files' (index + 1) =
        linesOf files (index + 1) ++ stored files (index + 1) ++ lines
      rw [ih, hsame, List.append_assoc]

variable {g : Generations} {files : Nat → Option String}

/-- Generations that have moved on hold what they held, apart from the
oldest one. -/
theorem stored_shifted_succ (index : Nat) (h : index < g.count) :
    stored (g.shifted files) (index + 1) = stored files index := by
  induction index with
  | zero =>
      have hnone : g.shifted files 0 = none := by simp [shifted]
      simp [stored, linesOf_of_eq_none hnone]
  | succ index ih =>
      have hmoved : linesOf (g.shifted files) (index + 1) = linesOf files index := by
        simp [linesOf, shifted, h]
      rw [stored, ih (by omega), hmoved, ← stored]

theorem stored_shifted : stored files g.count =
    linesOf files (g.count - 1) ++ stored (g.shifted files) g.count := by
  have hpos := g.count_pos
  obtain ⟨index, hindex⟩ : ∃ index, g.count = index + 1 := ⟨g.count - 1, by omega⟩
  have hmoved : stored (g.shifted files) (index + 1) = stored files index :=
    stored_shifted_succ index (by omega)
  rw [hindex, hmoved, stored, Nat.add_sub_cancel]

/-- Files that have moved on are as they were. -/
theorem Whole.turned (h : g.Whole files) (rotated : Bool) : g.Whole (g.turned rotated files) := by
  cases rotated with
  | false => exact h
  | true =>
      have hpos := g.count_pos
      rw [turned_true]
      constructor
      · intro index content hcontent
        rw [shifted] at hcontent
        split at hcontent
        · contradiction
        · split at hcontent
          · exact h.ended_eq _ _ hcontent
          · exact h.ended_eq _ _ hcontent
      · intro index hindex
        have hzero : ¬index = 0 := by omega
        have hbeyond : ¬index < g.count := by omega
        simp [shifted, hzero, hbeyond, h.kept index hindex]

/-- The text of the active file, empty if it is not there, is made up of ended
lines. -/
theorem Whole.ended_linesOf (h : g.Whole files) (index : Nat) :
    ended (linesOf files index) = (files index).getD "" := by
  cases hfile : files index with
  | none => simp [linesOf, hfile]
  | some content => simpa [linesOf, hfile] using h.ended_eq index content hfile

/-- The files after a batch was written hold ended lines and nothing else. -/
theorem Whole.written (h : g.Whole files) (rotated : Bool) {batch : List String}
    (hbatch : OneLiners batch) : g.Whole (g.written rotated batch files) := by
  have hpos := g.count_pos
  have hturned := h.turned rotated
  constructor
  · intro index content hcontent
    rw [Generations.written] at hcontent
    split at hcontent
    · rw [Option.some.injEq] at hcontent
      have hactive := hturned.ended_linesOf 0
      rw [linesOf] at hactive
      rw [← hcontent, linesIn_append_ended hactive hbatch, ended_append, hactive]
    · exact hturned.ended_eq index content hcontent
  · intro index hindex
    have hzero : ¬index = 0 := by omega
    rw [Generations.written, if_neg hzero]
    exact hturned.kept index hindex

/-- **The lines after a batch was written** are those from before and those of
the batch; if the generations have moved on, the lines of the oldest one are
gone. -/
theorem stored_written (h : g.Whole files) (rotated : Bool) {batch : List String}
    (hbatch : OneLiners batch) :
    stored files g.count ++ batch =
      (if rotated = true then linesOf files (g.count - 1) else []) ++
        stored (g.written rotated batch files) g.count := by
  have hpos := g.count_pos
  obtain ⟨index, hindex⟩ : ∃ index, g.count = index + 1 := ⟨g.count - 1, by omega⟩
  have hactive : linesOf (g.written rotated batch files) 0 =
      linesOf (g.turned rotated files) 0 ++ batch := by
    have htext := (h.turned rotated).ended_linesOf 0
    rw [linesOf] at htext
    rw [linesOf, linesOf, Generations.written, if_pos rfl, Option.getD_some,
      linesIn_append_ended htext hbatch]
  have hother : ∀ j, j ≠ 0 → g.written rotated batch files j = g.turned rotated files j := by
    intro j hj
    rw [Generations.written, if_neg hj]
  have hwritten : stored (g.written rotated batch files) g.count =
      stored (g.turned rotated files) g.count ++ batch := by
    rw [hindex]
    exact stored_succ_append hactive hother index
  rw [hwritten]
  cases rotated with
  | false => simp
  | true => rw [turned_true, if_pos rfl, ← List.append_assoc, ← stored_shifted]

end Generations

end TraceLog
