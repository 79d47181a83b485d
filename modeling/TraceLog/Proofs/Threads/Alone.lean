import TraceLog.Proofs.Threads.Order

/-!
# TraceLog.Proofs.Threads.Alone

Calls that nobody interferes with.

While no call is in progress both locks are free, whatever came of the
deliveries before.  A thread that makes its next call then, and takes all its
steps in turn, comes back, and the call has done to the shared buffer what it
does to a buffer of its own.

* `AllIdle` — no call is in progress;
* `settled` — the lines of the batches that came out in some way;
* `BufferCall.alone` — a call on a buffer of its own;
* `exists_alone` — a call that nobody interferes with;
* `exists_accepted` — a line that is added and drained then is accepted.
-/

namespace TraceLog

namespace Delivery

/-- The batch was accepted. -/
@[simp] def isAccepted : Delivery → Bool
  | .accepted => true
  | _ => false

/-- The batch was refused. -/
@[simp] def isRefused : Delivery → Bool
  | .refused _ => true
  | _ => false

/-- The delivery broke off. -/
@[simp] def isBroken : Delivery → Bool
  | .broken => true
  | _ => false

end Delivery

/-- The batch of a delivery, if that came out as asked for. -/
@[simp] def ThreadEvent.settled? (outcome : Delivery → Bool) : ThreadEvent → Option (List String)
  | .finished _ batch delivery => if outcome delivery then some batch else none
  | _ => none

/-- What always gives the same answer to a batch. -/
def Sink.answering (delivery : Delivery) : Sink Unit := fun _ _ => (delivery, ())

namespace BufferCall

/-- What a call does to a buffer of its own, given the answer to its batch. -/
def alone (delivery : Delivery) (clock : Clock) (b : Buffer) : BufferCall → Buffer
  | .append line => (b.append (Sink.answering delivery) clock line ()).2.1
  | .drainIfDue => (b.drainIfDue (Sink.answering delivery) clock ()).2.1
  | .forceDrain => (b.forceDrain (Sink.answering delivery) clock ()).2.1
  | .stats => b

/-- The lines that a call on a buffer of its own hands over. -/
def handedOver (clock : Clock) (b : Buffer) : BufferCall → List String
  | .append line =>
    if (b.push line).isDue clock.check then (b.push line).queue.toList else []
  | .drainIfDue => if b.isDue clock.check then b.queue.toList else []
  | .forceDrain => b.queue.toList
  | .stats => []

/-- What a call hands over and what waits after it are what waited before it and
the line that it adds. -/
theorem handedOver_append_queue (delivery : Delivery) (clock : Clock) (b : Buffer)
    (call : BufferCall) : call.handedOver clock b ++ (call.alone delivery clock b).queue.toList =
      b.queue.toList ++ call.line?.toList := by
  have hempty := fun b : Buffer => Queue.isEmpty_eq_true_iff.1
    (Buffer.isEmpty_queue_drain (Sink.answering delivery) clock.take b ())
  cases call with
  | append line =>
      cases hdue : (b.push line).isDue clock.check <;>
        simp [handedOver, alone, Buffer.append, Buffer.drainIfDue, hdue, hempty]
  | drainIfDue =>
      cases hdue : b.isDue clock.check <;>
        simp [handedOver, alone, Buffer.drainIfDue, hdue, hempty]
  | forceDrain => simp [handedOver, alone, Buffer.forceDrain, hempty]
  | stats => simp [handedOver, alone]

end BufferCall

namespace Threads

/-- No call is in progress. -/
def AllIdle (s : Threads) : Prop := ∀ thread ∈ s.threads, thread.stage = .idle

instance (s : Threads) : Decidable s.AllIdle :=
  inferInstanceAs (Decidable (∀ thread ∈ s.threads, thread.stage = .idle))

/-- The lines of the batches whose delivery came out as asked for, in the order
in which the batches were handed over. -/
def settled (outcome : Delivery → Bool) (s : Threads) : List String :=
  (ThreadEvent.seen (ThreadEvent.settled? outcome) s.events).flatten

variable {choice : Choice} {i : Nat} {first s t u : Threads} {thread thread' : Thread}
  {call : BufferCall} {rest : List BufferCall}

/-! ## Locks -/

/-- While no call is in progress, both locks are free. -/
theorem AllIdle.holders_eq (h : s.AllIdle) (hlocked : s.Locked) :
    s.bufferHolder = none ∧ s.sinkHolder = none := by
  have hfree : ∀ {has : Stage → Bool} {holder : Option Nat}, has .idle = false →
      Guarded has holder s.threads → holder = none := by
    intro has holder hidle hguarded
    cases hholder : holder with
    | none => rfl
    | some i =>
        obtain ⟨thread, hget, hhas⟩ := (hguarded i).1 hholder
        rw [h thread (List.mem_of_getElem? hget), hidle] at hhas
        contradiction
  exact ⟨hfree rfl hlocked.buffer, hfree rfl hlocked.sink⟩

/-- A thread that has come back leaves no call in progress. -/
theorem AllIdle.set (h : s.AllIdle)
    (hthreads : u.threads = s.threads.set i ⟨rest, .idle⟩) : u.AllIdle := by
  intro thread hmem
  rw [hthreads] at hmem
  cases List.mem_or_eq_of_mem_set hmem with
  | inl hother => exact h thread hother
  | inr hself => rw [hself]

/-! ## Steps of one thread -/

/-- A schedule and then another one. -/
theorem Reachable.trans (h : Reachable first s) (h' : Reachable s t) : Reachable first t := by
  induction h' with
  | here => exact h
  | step choice i _ hstep ih => exact ih.step choice i hstep

/-- Every move is a step that the thread can take. -/
theorem Move.step?_eq (hget : s.threads[i]? = some thread)
    (hm : Move choice i s thread thread' u) : s.step? choice i = some u := by
  cases hm <;> simp [step?, *]

/-- What a move of a thread leads to can be reached, and the thread is at its
new stage there. -/
theorem Reachable.move (h : Reachable first s) (choice : Choice)
    (hget : s.threads[i]? = some thread) (hm : Move choice i s thread thread' u) :
    Reachable first u ∧ u.threads[i]? = some thread' := by
  have hi : i < s.threads.length := (List.getElem?_eq_some_iff.1 hget).1
  refine ⟨h.step choice i (hm.step?_eq hget), ?_⟩
  rw [hm.threads_eq, List.getElem?_set_self hi]

/-- A thread that has got as far as draining the buffer, while the sink is
free, comes back with the batch delivered. -/
theorem exists_drained (h : Reachable first t)
    (hget : t.threads[i]? = some ⟨rest, .draining call⟩) (hfree : t.sinkHolder = none)
    (now : Nat) (delivery : Delivery) :
    ∃ u, Reachable first u ∧ u.threads = t.threads.set i ⟨rest, .idle⟩ ∧
      u.buffer = (t.buffer.drain (Sink.answering delivery) now ()).2.1 ∧
      ∀ outcome, u.settled outcome =
        t.settled outcome ++ if outcome delivery then t.buffer.queue.toList else [] := by
  cases hempty : t.buffer.queue.isEmpty with
  | true =>
      obtain ⟨hreach, -⟩ := h.move ⟨now, delivery⟩ hget (.nothing rfl hempty)
      refine ⟨_, hreach, rfl, ?_, ?_⟩
      · rw [Buffer.drain_of_isEmpty _ _ hempty]
        rfl
      · intro outcome
        have hnil := Queue.isEmpty_eq_true_iff.1 hempty
        simp [settled, hnil]
  | false =>
      have hne : ¬t.buffer.queue.isEmpty = true := by simp [hempty]
      obtain ⟨h₁, hget₁⟩ := h.move ⟨now, delivery⟩ hget (.take rfl hempty)
      obtain ⟨h₂, hget₂⟩ := h₁.move ⟨now, delivery⟩ hget₁ (.pass rfl hfree)
      obtain ⟨h₃, hget₃⟩ := h₂.move ⟨now, delivery⟩ hget₂ (.release rfl)
      obtain ⟨h₄, hget₄⟩ := h₃.move ⟨now, delivery⟩ hget₃ (.hand rfl)
      obtain ⟨h₅, hget₅⟩ := h₄.move ⟨now, delivery⟩ hget₄ (.settle rfl)
      obtain ⟨h₆, hget₆⟩ := h₅.move ⟨now, delivery⟩ hget₅ (.leave rfl)
      refine ⟨_, h₆, ?_, ?_, ?_⟩
      · simp [comeBack, goTo, note, List.set_set]
      · rw [Buffer.drain_of_not_isEmpty _ _ hne]
        simp [Sink.answering]
      · intro outcome
        cases hout : outcome delivery <;> simp [settled, hout]

/-- A thread that has got as far as checking the clock comes back as if it had
drained a buffer of its own if that is due. -/
theorem exists_checked (h : Reachable first t)
    (hget : t.threads[i]? = some ⟨rest, .checking call⟩) (hfree : t.sinkHolder = none)
    (clock : Clock) (delivery : Delivery) :
    ∃ u, Reachable first u ∧ u.threads = t.threads.set i ⟨rest, .idle⟩ ∧
      u.buffer = BufferCall.drainIfDue.alone delivery clock t.buffer ∧
      ∀ outcome, u.settled outcome = t.settled outcome ++
        if outcome delivery then BufferCall.drainIfDue.handedOver clock t.buffer else [] := by
  cases hdue : t.buffer.isDue clock.check with
  | true =>
      obtain ⟨h₁, hget₁⟩ := h.move ⟨clock.check, delivery⟩ hget (.due rfl hdue)
      obtain ⟨u, hu, hthreads, hbuffer, hsettled⟩ :=
        exists_drained h₁ hget₁ hfree clock.take delivery
      refine ⟨u, hu, ?_, ?_, ?_⟩
      · rw [hthreads]
        simp [goTo, List.set_set]
      · rw [hbuffer]
        simp [BufferCall.alone, Buffer.drainIfDue, hdue]
      · intro outcome
        rw [hsettled]
        simp [settled, BufferCall.handedOver, hdue]
  | false =>
      obtain ⟨h₁, -⟩ := h.move ⟨clock.check, delivery⟩ hget (.notDue rfl hdue)
      refine ⟨_, h₁, rfl, ?_, ?_⟩
      · simp [BufferCall.alone, Buffer.drainIfDue, hdue]
      · intro outcome
        simp [settled, BufferCall.handedOver, hdue]

/-! ## Calls -/

/-- A thread that makes its next call while no other one is in progress gets
the lock of the buffer, and nothing else has changed. -/
theorem exists_inside (hidle : s.AllIdle) (hlocked : s.Locked)
    (hget : s.threads[i]? = some ⟨call :: rest, .idle⟩) :
    ∃ t, Reachable s t ∧ t.threads[i]? = some ⟨rest, .inside call⟩ ∧
      t.threads = s.threads.set i ⟨rest, .inside call⟩ ∧ t.buffer = s.buffer ∧
      t.sinkHolder = none ∧ ∀ outcome, t.settled outcome = s.settled outcome := by
  obtain ⟨hbufferFree, hsinkFree⟩ := hidle.holders_eq hlocked
  obtain ⟨h₁, hget₁⟩ := Reachable.here.move ⟨0, .accepted⟩ hget (.call rfl rfl)
  obtain ⟨h₂, hget₂⟩ := h₁.move ⟨0, .accepted⟩ hget₁ (.enter rfl hbufferFree)
  refine ⟨_, h₂, hget₂, ?_, rfl, hsinkFree, ?_⟩
  · simp [goTo, note, List.set_set]
  · intro outcome
    simp [settled]

/-- **A call that nobody interferes with** does to the shared buffer what it
does to a buffer of its own, whatever came of the deliveries before. -/
theorem exists_alone (hidle : s.AllIdle) (hlocked : s.Locked)
    (hget : s.threads[i]? = some ⟨call :: rest, .idle⟩) (clock : Clock) (delivery : Delivery) :
    ∃ u, Reachable s u ∧ u.threads = s.threads.set i ⟨rest, .idle⟩ ∧
      u.buffer = call.alone delivery clock s.buffer ∧
      ∀ outcome, u.settled outcome = s.settled outcome ++
        if outcome delivery then call.handedOver clock s.buffer else [] := by
  obtain ⟨t, ht, hget, hthreads, hbuffer, hfree, hsettled⟩ := exists_inside hidle hlocked hget
  cases call with
  | append line =>
      obtain ⟨h₁, hget₁⟩ := ht.move ⟨0, .accepted⟩ hget (.push rfl)
      obtain ⟨u, hu, hthreads', hbuffer', hsettled'⟩ :=
        exists_checked h₁ hget₁ hfree clock delivery
      refine ⟨u, hu, ?_, ?_, ?_⟩
      · simp [hthreads', goTo, note, hthreads, List.set_set]
      · rw [hbuffer', ← hbuffer]
        rfl
      · intro outcome
        rw [hsettled', ← hsettled, ← hbuffer]
        simp [settled, BufferCall.handedOver]
  | drainIfDue =>
      obtain ⟨h₁, hget₁⟩ := ht.move ⟨0, .accepted⟩ hget (.look rfl)
      obtain ⟨u, hu, hthreads', hbuffer', hsettled'⟩ :=
        exists_checked h₁ hget₁ hfree clock delivery
      refine ⟨u, hu, ?_, ?_, ?_⟩
      · simp [hthreads', goTo, hthreads, List.set_set]
      · rw [hbuffer', ← hbuffer]
        rfl
      · intro outcome
        rw [hsettled', ← hsettled, ← hbuffer]
        rfl
  | forceDrain =>
      obtain ⟨h₁, hget₁⟩ := ht.move ⟨0, .accepted⟩ hget (.force rfl)
      obtain ⟨u, hu, hthreads', hbuffer', hsettled'⟩ :=
        exists_drained h₁ hget₁ hfree clock.take delivery
      refine ⟨u, hu, ?_, ?_, ?_⟩
      · simp [hthreads', goTo, hthreads, List.set_set]
      · rw [hbuffer', ← hbuffer]
        rfl
      · intro outcome
        rw [hsettled', ← hsettled, ← hbuffer]
        rfl
  | stats =>
      obtain ⟨h₁, -⟩ := ht.move ⟨0, .accepted⟩ hget (.count rfl)
      refine ⟨_, h₁, ?_, hbuffer, ?_⟩
      · simp [comeBack, goTo, note, hthreads, List.set_set]
      · intro outcome
        rw [← hsettled]
        simp [settled, BufferCall.handedOver]

/-- **A line that is added while no call is in progress is drained normally**,
whatever came of the deliveries before: if a forced drain follows and the sink
accepts, then it is accepted behind the lines that waited. -/
theorem exists_accepted {buffer : Buffer} {calls : List (List BufferCall)} {line : String}
    (h : Reachable (start buffer calls) s) (hidle : s.AllIdle)
    (hget : s.threads[i]? = some ⟨.append line :: .forceDrain :: rest, .idle⟩)
    (clock later : Clock) :
    ∃ u, Reachable s u ∧ u.AllIdle ∧ u.threads = s.threads.set i ⟨rest, .idle⟩ ∧
      u.buffer = BufferCall.forceDrain.alone .accepted later
        ((BufferCall.append line).alone .accepted clock s.buffer) ∧
      u.buffer.queue.toList = [] ∧
      u.settled Delivery.isAccepted =
        s.settled Delivery.isAccepted ++ (s.buffer.queue.toList ++ [line]) := by
  have hi : i < s.threads.length := (List.getElem?_eq_some_iff.1 hget).1
  obtain ⟨t, ht, hthreads, hbuffer, hsettled⟩ :=
    exists_alone hidle (locked_of_reachable h) hget clock .accepted
  have hget' : t.threads[i]? = some ⟨.forceDrain :: rest, .idle⟩ := by
    rw [hthreads, List.getElem?_set_self hi]
  have hidle' : t.AllIdle := hidle.set hthreads
  obtain ⟨u, hu, hthreads', hbuffer', hsettled'⟩ :=
    exists_alone hidle' (locked_of_reachable (h.trans ht)) hget' later .accepted
  have hwaited := BufferCall.handedOver_append_queue .accepted clock s.buffer (.append line)
  have hdrained := BufferCall.handedOver_append_queue .accepted later t.buffer .forceDrain
  rw [← hbuffer] at hwaited
  rw [← hbuffer'] at hdrained
  refine ⟨u, ht.trans hu, hidle'.set hthreads', ?_, ?_, ?_, ?_⟩
  · rw [hthreads', hthreads, List.set_set]
  · rw [hbuffer', hbuffer]
  · simpa [BufferCall.handedOver] using hdrained
  · rw [hsettled', hsettled]
    simpa [BufferCall.handedOver] using hwaited

end Threads

end TraceLog
