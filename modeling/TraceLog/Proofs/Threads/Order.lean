import TraceLog.Proofs.Threads.Locks

/-!
# TraceLog.Proofs.Threads.Order

No line is lost, handed over twice or overtaken.

A line that has been added is in exactly one of four places: in a batch that
was handed over, in the batch of the thread that has the lock of the sink and
has not handed it over yet, in the batch of a thread that waits for that lock,
or in the queue.  In this order the four hold the lines in the order in which
they were added, and every thread adds its lines in the order of its calls.

* `pushes` — the lines that were added, each with its thread;
* `unhanded`, `waiting` — the batches on their way;
* `InOrder` — the four places hold what was added;
* `OwnOrder` — a thread adds the lines of its calls one after the other.
-/

namespace TraceLog

/-- The line that a call adds. -/
@[simp] def BufferCall.line? : BufferCall → Option String
  | .append line => some line
  | _ => none

/-- The lines that calls add, in the order of the calls. -/
def BufferCall.lines (calls : List BufferCall) : List String := calls.filterMap BufferCall.line?

theorem BufferCall.lines_cons (call : BufferCall) (calls : List BufferCall) :
    lines (call :: calls) = call.line?.toList ++ lines calls := by
  cases call <;> rfl

namespace Stage

/-- The batch of a thread that has the lock of the sink and has not handed the
batch over. -/
@[simp] def unhanded : Stage → List String
  | .passing _ batch | .ready _ batch => batch
  | _ => []

/-- The batch of a thread that waits for the lock of the sink. -/
@[simp] def waiting : Stage → List String
  | .holding _ batch => batch
  | _ => []

/-- The line that a call in progress has still to add. -/
@[simp] def unpushed : Stage → List String
  | .entering call | .inside call => call.line?.toList
  | _ => []

end Stage

/-- The lines that a thread has still to add. -/
def Thread.unpushed (thread : Thread) : List String :=
  thread.stage.unpushed ++ BufferCall.lines thread.todo

namespace Threads

/-- The lines that were added, each with its thread, the first one first. -/
def pushes (s : Threads) : List (Nat × String) := ThreadEvent.seen ThreadEvent.push? s.events

/-- The lines that were added, the first one first. -/
def pushed (s : Threads) : List String := s.pushes.map (·.2)

/-- The lines that one thread added, the first one first. -/
def pushedBy (s : Threads) (i : Nat) : List String := (s.pushes.filter (·.1 == i)).map (·.2)

/-- The batch of the thread that has the lock of the sink and has not handed
the batch over. -/
def unhanded (s : Threads) : List String := inHand Stage.unhanded s.sinkHolder s.threads

/-- The batch of the thread that has the lock of the buffer and waits for that
of the sink. -/
def waiting (s : Threads) : List String := inHand Stage.waiting s.bufferHolder s.threads

variable {choice : Choice} {i : Nat} {s u : Threads} {thread thread' : Thread}

/-! ## What a move does to each place -/

/-- A move of a thread touches the batch that waits only if the thread has the
lock of the buffer. -/
theorem Locked.waiting_move (h : s.Locked) (hget : s.threads[i]? = some thread)
    (hm : Move choice i s thread thread' u) :
    u.waiting = if thread'.stage.hasBuffer = true then thread'.stage.waiting
      else if thread.stage.hasBuffer = true then [] else s.waiting := by
  rw [waiting, hm.threads_eq, hm.bufferHolder_eq.1]
  exact h.buffer.inHand_set hget

/-- A move of a thread touches what the holder of the sink has only if the
thread has the lock of the sink. -/
theorem Locked.inSink_move {view : Stage → List String} (h : s.Locked)
    (hget : s.threads[i]? = some thread) (hm : Move choice i s thread thread' u) :
    inHand view u.sinkHolder u.threads =
      if thread'.stage.hasSink = true then view thread'.stage
      else if thread.stage.hasSink = true then [] else inHand view s.sinkHolder s.threads := by
  rw [hm.threads_eq, hm.sinkHolder_eq.1]
  exact h.sink.inHand_set hget

/-- A move adds no line, or the next one of its thread. -/
theorem Move.pushes_eq (hm : Move choice i s thread thread' u) :
    (u.pushes = s.pushes ∧ thread.unpushed = thread'.unpushed) ∨
      ∃ line, u.pushes = s.pushes ++ [(i, line)] ∧
        thread.unpushed = line :: thread'.unpushed := by
  cases hm with
  | @push line hstage =>
      refine .inr ⟨line, by simp [pushes], ?_⟩
      simp [Thread.unpushed, hstage]
  | @call call todo hstage htodo =>
      refine .inl ⟨by simp [pushes], ?_⟩
      simp [Thread.unpushed, hstage, htodo, BufferCall.lines_cons]
  | _ hstage => exact .inl ⟨by simp [pushes], by simp [Thread.unpushed, hstage]⟩

/-! ## The four places -/

/-- The four places hold the lines in the order in which they were added. -/
def InOrder (s : Threads) : Prop :=
  s.batches.flatten ++ (s.unhanded ++ (s.waiting ++ s.buffer.queue.toList)) = s.pushed

/-- A move keeps the order of the four places: a line enters the queue at its
end, and a batch goes from each place to the next one as a whole. -/
theorem InOrder.move (h : s.InOrder) (hlocked : s.Locked) (hget : s.threads[i]? = some thread)
    (hm : Move choice i s thread thread' u) : u.InOrder := by
  have hwaiting := hlocked.waiting_move hget hm
  have hunhanded : u.unhanded = if thread'.stage.hasSink = true then thread'.stage.unhanded
      else if thread.stage.hasSink = true then [] else s.unhanded := hlocked.inSink_move hget hm
  have hwaiting₀ : thread.stage.hasBuffer = true → s.waiting = thread.stage.waiting :=
    hlocked.buffer.inHand_eq hget
  have hunhanded₀ : thread.stage.hasSink = true → s.unhanded = thread.stage.unhanded :=
    hlocked.sink.inHand_eq hget
  unfold InOrder at h ⊢
  rw [hwaiting, hunhanded, batches_eq_seen, pushed, pushes]
  rw [batches_eq_seen, pushed, pushes] at h
  cases hm with
  | @push line hstage =>
      -- The queue grows; this thread has the buffer, so no batch waits.
      simp only [hstage, Stage.hasBuffer, Stage.waiting, forall_const] at hwaiting₀
      rw [hwaiting₀] at h
      simp [hstage, ← h]
  | take hstage hempty =>
      -- From the queue to the batch that waits.
      simp only [hstage, Stage.hasBuffer, Stage.waiting, forall_const] at hwaiting₀
      rw [hwaiting₀] at h
      simp [hstage, ← h]
  | @pass call batch hstage hfree =>
      -- Nobody had the sink, so nothing stands in front of the batch.
      have hnone : s.unhanded = [] := by rw [unhanded, hfree, inHand_none]
      simp only [hstage, Stage.hasBuffer, Stage.waiting, forall_const] at hwaiting₀
      rw [hwaiting₀, hnone] at h
      simp [← h]
  | enter hstage hfree =>
      have hnone : s.waiting = [] := by rw [waiting, hfree, inHand_none]
      rw [hnone] at h
      simp [hstage, ← h]
  | hand hstage =>
      -- The batch of this thread is the next one to be handed over.
      simp only [hstage, Stage.hasSink, Stage.unhanded, forall_const] at hunhanded₀
      rw [hunhanded₀] at h
      simp [hstage, Buffer.begin, ← h]
  | _ hstage =>
      simp only [hstage, Stage.hasBuffer, Stage.waiting, Stage.hasSink, Stage.unhanded,
        forall_const] at hwaiting₀ hunhanded₀
      simp_all

/-! ## The calls of a thread -/

/-- What a thread has added and what it has still to add are the lines of its
calls. -/
def OwnOrder (calls : List (List BufferCall)) (s : Threads) : Prop :=
  ∀ i, s.pushedBy i ++ (s.threads[i]?).elim [] Thread.unpushed =
    BufferCall.lines (calls[i]?.getD [])

/-- A move adds the next line of its thread, if any, and touches no other
thread. -/
theorem OwnOrder.move {calls : List (List BufferCall)} (h : s.OwnOrder calls)
    (hget : s.threads[i]? = some thread) (hm : Move choice i s thread thread' u) :
    u.OwnOrder calls := by
  have hi : i < s.threads.length := (List.getElem?_eq_some_iff.1 hget).1
  intro j
  have hj := h j
  by_cases hij : i = j
  · subst hij
    rw [hget, Option.elim_some] at hj
    rw [hm.threads_eq, List.getElem?_set_self hi, Option.elim_some, ← hj]
    rcases hm.pushes_eq with ⟨hpushes, hunpushed⟩ | ⟨line, hpushes, hunpushed⟩
    · rw [pushedBy, pushedBy, hpushes, hunpushed]
    · simp [pushedBy, hpushes, hunpushed]
  · rw [hm.threads_eq, List.getElem?_set_ne hij, ← hj]
    rcases hm.pushes_eq with ⟨hpushes, -⟩ | ⟨line, hpushes, -⟩
    · rw [pushedBy, pushedBy, hpushes]
    · simp [pushedBy, hpushes, hij]

/-! ## Whole runs -/

variable {buffer : Buffer} {calls : List (List BufferCall)}

/-- Threads that have not begun have everything still to add. -/
theorem ownOrder_start : (start buffer calls).OwnOrder calls := by
  intro i
  cases hi : calls[i]? <;>
    simp [start, pushedBy, pushes, hi, Thread.unpushed, BufferCall.lines]

/-- The four places hold what was added, whatever the schedule. -/
theorem inOrder_of_reachable (hqueue : buffer.queue = .empty)
    (h : Reachable (start buffer calls) s) : s.InOrder := by
  have hstart : (start buffer calls).Locked ∧ (start buffer calls).InOrder := by
    refine ⟨locked_start buffer calls, ?_⟩
    simp [InOrder, start, batches, unhanded, waiting, pushed, pushes, hqueue]
  exact (h.induct (P := fun s => s.Locked ∧ s.InOrder) hstart fun ih hget hm =>
    ⟨ih.1.move hget hm, ih.2.move ih.1 hget hm⟩).2

/-- **No line is lost, handed over twice or overtaken.**  Whatever the
schedule, the readings of the clock and the answers of the sink: the batches
handed over so far, then the batch of the holder of the sink that it has not
handed over yet, then the batch of the holder of the buffer that waits for the
sink, then the queue are the lines in the order in which they were added; and
each thread has added its lines in the order of its calls. -/
theorem batches_unhanded_waiting_queue_eq_pushed {interval limit now : Nat}
    (h : Reachable (start (.empty interval limit now) calls) s) :
    s.batches.flatten ++ s.unhanded ++ s.waiting ++ s.buffer.queue.toList = s.pushed ∧
      ∀ i, s.pushedBy i <+: BufferCall.lines (calls[i]?.getD []) := by
  constructor
  · have hplaces : s.InOrder := inOrder_of_reachable rfl h
    rw [← hplaces]
    simp only [List.append_assoc]
  · intro i
    have hown : s.OwnOrder calls :=
      h.induct (P := OwnOrder calls) ownOrder_start fun ih hget hm => ih.move hget hm
    exact ⟨_, hown i⟩

/-- One batch is on its way to the sink while the next one waits behind it. -/
theorem batches_unhanded_waiting_queue_eq_pushed_of_two_drains :
    let calls : List (List BufferCall) :=
      [[.append "a", .append "b"], [.append "c", .append "d"]]
    ∃ s, Reachable (start (.empty 1000 2 0) calls) s ∧
      s.unhanded = ["a", "b"] ∧ s.waiting = ["c", "d"] ∧
      s.batches.flatten ++ s.unhanded ++ s.waiting ++ s.buffer.queue.toList = s.pushed ∧
      ∀ i, s.pushedBy i <+: BufferCall.lines (calls[i]?.getD []) := by
  intro calls
  have hreach := reachable_getD_follow? (start (.empty 1000 2 0) calls)
    (List.replicate 11 (0, ⟨0, .accepted⟩) ++ List.replicate 9 (1, ⟨0, .accepted⟩))
  refine ⟨_, hreach, ?_, ?_, batches_unhanded_waiting_queue_eq_pushed hreach⟩
  · decide +kernel
  · decide +kernel

end Threads

end TraceLog
