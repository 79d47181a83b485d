import TraceLog.Proofs.Threads.Moves

/-!
# TraceLog.Proofs.Threads.Locks

Who holds which lock.

Where a thread is says which locks it has (`Stage.hasBuffer`,
`Stage.hasSink`).  `Guarded` ties that to the holder that the state names:
the holder is the one thread at a stage that has the lock.  It is stated once
for both locks, and `handOver` is what a move does to the holder of either.

* `locked_of_reachable` — both locks are guarded, whatever the schedule;
* `inHand` — what the holder of a lock has in its hands.
-/

namespace TraceLog

namespace Stage

/-- Whether a thread that is here has the lock of the buffer. -/
@[simp] def hasBuffer : Stage → Bool
  | .inside _ | .checking _ | .draining _ | .holding _ _ | .passing _ _ => true
  | .idle | .entering _ | .ready _ _ | .delivering _ _ | .delivered _ _ => false

/-- Whether a thread that is here has the lock of the sink. -/
@[simp] def hasSink : Stage → Bool
  | .passing _ _ | .ready _ _ | .delivering _ _ | .delivered _ _ => true
  | .idle | .entering _ | .inside _ | .checking _ | .draining _ | .holding _ _ => false

end Stage

namespace Threads

variable {has : Stage → Bool} {holder : Option Nat} {threads : List Thread}
  {i j : Nat} {thread thread' : Thread}

/-! ## One lock -/

/-- The holder of a lock is the one thread at a stage that has it. -/
def Guarded (has : Stage → Bool) (holder : Option Nat) (threads : List Thread) : Prop :=
  ∀ i, holder = some i ↔ ∃ thread, threads[i]? = some thread ∧ has thread.stage = true

/-- The holder of a lock after thread `i` has gone from one stage to another. -/
def handOver (has : Stage → Bool) (i : Nat) (before after : Stage) (holder : Option Nat) :
    Option Nat :=
  match has before, has after with
  | false, true => some i
  | true, false => none
  | _, _ => holder

/-- The thread at a stage that has the lock is its holder. -/
theorem Guarded.holder_eq (h : Guarded has holder threads) (hget : threads[i]? = some thread)
    (hhas : has thread.stage = true) : holder = some i := (h i).2 ⟨thread, hget, hhas⟩

/-- A thread at a stage without the lock does not hold it. -/
theorem Guarded.holder_ne (h : Guarded has holder threads) (hget : threads[i]? = some thread)
    (hhas : has thread.stage = false) : holder ≠ some i := by
  intro hi
  obtain ⟨t, ht, hhas'⟩ := (h i).1 hi
  rw [hget, Option.some.injEq] at ht
  subst ht
  rw [hhas] at hhas'
  contradiction

/-- A thread that goes on keeps a lock guarded, if it takes the lock only
while that is free. -/
theorem Guarded.set (h : Guarded has holder threads) (hget : threads[i]? = some thread)
    (hfree : has thread.stage = false → has thread'.stage = true → holder = none) :
    Guarded has (handOver has i thread.stage thread'.stage holder) (threads.set i thread') := by
  have hi : i < threads.length := (List.getElem?_eq_some_iff.1 hget).1
  intro j
  by_cases hij : j = i
  · subst hij
    rw [List.getElem?_set_self hi]
    cases hbefore : has thread.stage with
    | true =>
        have hholder := h.holder_eq hget hbefore
        cases hafter : has thread'.stage <;> simp [handOver, hbefore, hafter, hholder]
    | false =>
        have hholder := h.holder_ne hget hbefore
        cases hafter : has thread'.stage <;> simp [handOver, hbefore, hafter, hholder]
  · rw [List.getElem?_set_ne (Ne.symm hij), ← h j]
    cases hbefore : has thread.stage with
    | true =>
        have hholder := h.holder_eq hget hbefore
        cases hafter : has thread'.stage <;>
          simp [handOver, hbefore, hafter, hholder, Ne.symm hij]
    | false =>
        cases hafter : has thread'.stage with
        | true => simp [handOver, hbefore, hafter, hfree hbefore hafter, Ne.symm hij]
        | false => simp [handOver, hbefore, hafter]

/-! ## In the hands of the holder -/

/-- What the holder of a lock has in its hands, given what a thread has at
each stage; nothing if the lock is free. -/
def inHand (view : Stage → List String) (holder : Option Nat) (threads : List Thread) :
    List String :=
  match holder with
  | none => []
  | some i => (threads[i]?).elim [] (view ·.stage)

variable {view : Stage → List String}

@[simp] theorem inHand_none : inHand view none threads = [] := rfl

/-- The thread at a stage that has the lock has it all. -/
theorem Guarded.inHand_eq (h : Guarded has holder threads) (hget : threads[i]? = some thread)
    (hhas : has thread.stage = true) : inHand view holder threads = view thread.stage := by
  rw [h.holder_eq hget hhas, inHand, hget]
  rfl

/-- A thread that goes on changes what is in the hands of the holder only if
it is the holder, before or after. -/
theorem Guarded.inHand_set (h : Guarded has holder threads) (hget : threads[i]? = some thread) :
    inHand view (handOver has i thread.stage thread'.stage holder) (threads.set i thread') =
      if has thread'.stage = true then view thread'.stage
      else if has thread.stage = true then [] else inHand view holder threads := by
  have hi : i < threads.length := (List.getElem?_eq_some_iff.1 hget).1
  cases hafter : has thread'.stage with
  | true =>
      have hholder : handOver has i thread.stage thread'.stage holder = some i := by
        cases hbefore : has thread.stage with
        | true => simp [handOver, hbefore, hafter, h.holder_eq hget hbefore]
        | false => simp [handOver, hbefore, hafter]
      rw [hholder, inHand, List.getElem?_set_self hi]
      rfl
  | false =>
      cases hbefore : has thread.stage with
      | true => simp [handOver, hbefore, hafter]
      | false =>
          have hne := h.holder_ne hget hbefore
          cases hj : holder with
          | none => simp [handOver, hbefore, hafter]
          | some j =>
              have hij : i ≠ j := fun hij => hne (hij ▸ hj)
              simp [handOver, hbefore, hafter, inHand, List.getElem?_set_ne hij]

/-! ## Both locks -/

/-- Both locks are guarded. -/
structure Locked (s : Threads) : Prop where
  buffer : Guarded Stage.hasBuffer s.bufferHolder s.threads
  sink : Guarded Stage.hasSink s.sinkHolder s.threads

variable {choice : Choice} {s u : Threads}

/-- A move hands the lock of the buffer over, and takes it only if it is
free. -/
theorem Move.bufferHolder_eq (hm : Move choice i s thread thread' u) :
    u.bufferHolder = handOver Stage.hasBuffer i thread.stage thread'.stage s.bufferHolder ∧
      (thread.stage.hasBuffer = false → thread'.stage.hasBuffer = true →
        s.bufferHolder = none) := by
  cases hm <;> simp_all [handOver, goTo, note, comeBack]

/-- A move hands the lock of the sink over, and takes it only if it is free. -/
theorem Move.sinkHolder_eq (hm : Move choice i s thread thread' u) :
    u.sinkHolder = handOver Stage.hasSink i thread.stage thread'.stage s.sinkHolder ∧
      (thread.stage.hasSink = false → thread'.stage.hasSink = true → s.sinkHolder = none) := by
  cases hm <;> simp_all [handOver, goTo, note, comeBack]

/-- A move keeps both locks guarded. -/
theorem Locked.move (h : s.Locked) (hget : s.threads[i]? = some thread)
    (hm : Move choice i s thread thread' u) : u.Locked := by
  obtain ⟨hbuffer, hfreeBuffer⟩ := hm.bufferHolder_eq
  obtain ⟨hsink, hfreeSink⟩ := hm.sinkHolder_eq
  constructor
  · rw [hm.threads_eq, hbuffer]
    exact h.buffer.set hget hfreeBuffer
  · rw [hm.threads_eq, hsink]
    exact h.sink.set hget hfreeSink

/-- Nobody holds a lock before the threads have begun. -/
theorem locked_start (buffer : Buffer) (calls : List (List BufferCall)) :
    (start buffer calls).Locked := by
  have hidle : ∀ (i : Nat) (thread : Thread), (start buffer calls).threads[i]? = some thread →
      thread.stage = .idle := by
    intro i thread hget
    have hmem := List.mem_of_getElem? hget
    simp only [start, List.mem_map] at hmem
    obtain ⟨todo, -, rfl⟩ := hmem
    rfl
  constructor
  · refine fun i => ⟨fun hholder => by contradiction, ?_⟩
    rintro ⟨thread, hget, hhas⟩
    rw [hidle i thread hget] at hhas
    contradiction
  · refine fun i => ⟨fun hholder => by contradiction, ?_⟩
    rintro ⟨thread, hget, hhas⟩
    rw [hidle i thread hget] at hhas
    contradiction

/-- Both locks are guarded, whatever the schedule. -/
theorem locked_of_reachable {buffer : Buffer} {calls : List (List BufferCall)}
    (h : Reachable (start buffer calls) s) : s.Locked :=
  h.induct (locked_start buffer calls) fun ih hget hm => ih.move hget hm

end Threads

end TraceLog
