/-!
# TraceLog.Buffer.Queue

Lines in the order they came in.

A queue grows by one line at a time and is read as a whole, so its lines are
kept with the latest in front, along with their number.  `Queue.toList` is the
view in which everything else is stated, the first line in front; `push` is a
line behind it.
-/

namespace TraceLog

/-- Lines that wait, in the order they came in. -/
structure Queue where
  /-- The lines, the latest in front. -/
  latestFirst : List String
  size : Nat
  size_eq : size = latestFirst.length
  deriving DecidableEq, Repr

namespace Queue

/-- No lines. -/
def empty : Queue := ⟨[], 0, rfl⟩

/-- One more line. -/
def push (q : Queue) (line : String) : Queue :=
  ⟨line :: q.latestFirst, q.size + 1, by simp [q.size_eq]⟩

/-- The lines, the first one in front. -/
def toList (q : Queue) : List String := q.latestFirst.reverse

/-- Whether no lines wait. -/
def isEmpty (q : Queue) : Bool := q.size == 0

/-! ## Small lemmas -/

@[simp] theorem toList_empty : empty.toList = [] := rfl

@[simp] theorem toList_push (q : Queue) (line : String) :
    (q.push line).toList = q.toList ++ [line] := by
  simp [toList, push]

@[simp] theorem length_toList (q : Queue) : q.toList.length = q.size := by
  simp [toList, q.size_eq]

/-- Nothing waits exactly if the view is empty. -/
@[simp] theorem isEmpty_eq_true_iff {q : Queue} : q.isEmpty = true ↔ q.toList = [] := by
  rw [isEmpty, beq_iff_eq, ← q.length_toList, List.length_eq_zero_iff]

@[simp] theorem size_empty : empty.size = 0 := rfl

@[simp] theorem size_push (q : Queue) (line : String) : (q.push line).size = q.size + 1 := rfl

@[simp] theorem isEmpty_empty : empty.isEmpty = true := rfl

/-- Queues that hold the same lines are the same. -/
@[ext] theorem ext {q r : Queue} (h : q.toList = r.toList) : q = r := by
  have hlines : q.latestFirst = r.latestFirst := List.reverse_inj.1 h
  obtain ⟨lines, n, hn⟩ := q
  obtain ⟨lines', n', hn'⟩ := r
  subst hn hn'
  cases hlines
  rfl

end Queue

end TraceLog
