import TraceLog.Proofs.Threads.Alone
import TraceLog.Proofs.Threads.Barrier

/-!
# TraceLog.Proofs.Threads.Balance

The counters of a shared buffer.

A line that was added waits, or it was in a batch that was accepted, refused
or broken off.  The counters of a buffer tell these apart: a batch is counted
when it is handed over, and its lines once its delivery has come out, unless
that broke off.

* `appendCalls` — how many lines threads have asked to add;
* `Balanced` — what the counters count;
* `appendCalls_eq_pending_written_dropped_broken` — no line is unaccounted
  for.
-/

namespace TraceLog

/-- The line of a call that adds one. -/
@[simp] def ThreadEvent.asked? : ThreadEvent → Option String
  | .called _ call => call.line?
  | _ => none

namespace Threads

/-- How many calls to add a line were made. -/
def appendCalls (s : Threads) : Nat := (ThreadEvent.seen ThreadEvent.asked? s.events).length

/-- How many lines the calls in progress have still to add. -/
def unpushed (threads : List Thread) : Nat := (threads.map (·.stage.unpushed.length)).sum

variable {choice : Choice} {i : Nat} {s u : Threads} {thread thread' : Thread}

/-! ## Counting -/

/-- A thread that goes on changes only what it has to add itself. -/
theorem unpushed_set {threads : List Thread} (hget : threads[i]? = some thread)
    (thread' : Thread) :
    unpushed (threads.set i thread') + thread.stage.unpushed.length =
      unpushed threads + thread'.stage.unpushed.length :=
  sum_map_set (·.stage.unpushed.length) hget thread'

/-- While no call is in progress, no call has anything to add. -/
theorem AllIdle.unpushed_eq (h : s.AllIdle) : unpushed s.threads = 0 := by
  have hzero : ∀ n ∈ s.threads.map (·.stage.unpushed.length), n = 0 := by
    intro n hn
    rw [List.mem_map] at hn
    obtain ⟨thread, hmem, rfl⟩ := hn
    rw [h thread hmem]
    rfl
  exact List.sum_eq_zero_iff_forall_eq_nat.2 hzero

/-- A delivery that is over was accepted, was refused or broke off. -/
theorem length_delivered (s : Threads) : s.delivered.length =
    (s.settled Delivery.isAccepted).length + (s.settled Delivery.isRefused).length +
      (s.settled Delivery.isBroken).length := by
  obtain ⟨-, -, -, -, events⟩ := s
  simp only [delivered, settled]
  induction events with
  | nil => rfl
  | cons event events ih =>
      cases event with
      | finished i batch delivery =>
          cases delivery <;> simp [ih] <;> omega
      | _ => simpa using ih

/-! ## Counters -/

/-- A counter of a buffer that counts the lines of the batches whose delivery
comes out in some way, and nothing else. -/
structure Counts (counter : Buffer → Nat) (outcome : Delivery → Bool) : Prop where
  push_eq : ∀ b line, counter (b.push line) = counter b
  take_eq : ∀ b now, counter (b.take now) = counter b
  begin_eq : ∀ b, counter b.begin = counter b
  settle_eq : ∀ b count delivery,
    counter (b.settle count delivery) = counter b + if outcome delivery then count else 0

theorem counts_written : Counts (·.written) Delivery.isAccepted :=
  ⟨fun _ _ => rfl, fun _ _ => rfl, fun _ => rfl, fun _ _ delivery => by cases delivery <;> rfl⟩

theorem counts_dropped : Counts (·.dropped) Delivery.isRefused :=
  ⟨fun _ _ => rfl, fun _ _ => rfl, fun _ => rfl, fun _ _ delivery => by cases delivery <;> rfl⟩

/-- A counter keeps up with the deliveries that it counts. -/
theorem Counts.move {counter : Buffer → Nat} {outcome : Delivery → Bool}
    (hcounts : Counts counter outcome) (hm : Move choice i s thread thread' u)
    (h : counter s.buffer = (s.settled outcome).length) :
    counter u.buffer = (u.settled outcome).length := by
  rw [settled] at h ⊢
  cases hm with
  | @settle call batch hstage =>
      cases hout : outcome choice.delivery <;> simp [hcounts.settle_eq, hout, h]
  | push hstage => simp [hcounts.push_eq, h]
  | take hstage hempty => simp [hcounts.take_eq, h]
  | hand hstage => simp [hcounts.begin_eq, h]
  | _ hstage => simp [h]

/-- A batch is counted when it is handed over, and it is not empty. -/
theorem Move.flushes_eq (hproper : thread.stage.Proper) (hm : Move choice i s thread thread' u)
    (h : s.buffer.flushes = s.batches.length ∧ ∀ batch ∈ s.batches, batch ≠ []) :
    u.buffer.flushes = u.batches.length ∧ ∀ batch ∈ u.batches, batch ≠ [] := by
  rw [batches_eq_seen] at h ⊢
  obtain ⟨hflushes, hne⟩ := h
  cases hm with
  | @hand call batch hstage =>
      rw [hstage] at hproper
      simp only [Buffer.begin, events_note, events_goTo, ThreadEvent.seen_cons,
        ThreadEvent.handed?, Option.toList_some, List.length_append, List.length_singleton,
        hflushes, true_and, List.forall_mem_append, List.forall_mem_singleton]
      exact ⟨hne, hproper⟩
  | @settle call batch hstage =>
      cases hdelivery : choice.delivery <;> simpa [Buffer.settle] using ⟨hflushes, hne⟩
  | _ hstage => simpa [Buffer.push, Buffer.take] using ⟨hflushes, hne⟩

/-- A call that was made adds its line later. -/
theorem Move.appendCalls_eq (hget : s.threads[i]? = some thread)
    (hm : Move choice i s thread thread' u)
    (h : s.appendCalls = s.pushes.length + unpushed s.threads) :
    u.appendCalls = u.pushes.length + unpushed u.threads := by
  have hunpushed := unpushed_set hget thread'
  rw [← hm.threads_eq] at hunpushed
  rw [appendCalls, pushes] at h ⊢
  cases hm with
  | _ hstage =>
      simp [hstage] at hunpushed ⊢
      omega

/-! ## Whole runs -/

/-- What the counters count: the lines of the batches by what came of them,
and the batches that were handed over, none of which is empty.  Calls that were
made have added their line, or have still to add it. -/
structure Balanced (s : Threads) : Prop where
  written_eq : s.buffer.written = (s.settled Delivery.isAccepted).length
  dropped_eq : s.buffer.dropped = (s.settled Delivery.isRefused).length
  flushes_eq : s.buffer.flushes = s.batches.length ∧ ∀ batch ∈ s.batches, batch ≠ []
  calls_eq : s.appendCalls = s.pushes.length + unpushed s.threads

/-- A move keeps what the counters count. -/
theorem Balanced.move (h : s.Balanced) (hget : s.threads[i]? = some thread)
    (hproper : thread.stage.Proper) (hm : Move choice i s thread thread' u) : u.Balanced :=
  ⟨counts_written.move hm h.written_eq, counts_dropped.move hm h.dropped_eq,
    hm.flushes_eq hproper h.flushes_eq, hm.appendCalls_eq hget h.calls_eq⟩

variable {calls : List (List BufferCall)} {interval limit now : Nat}

/-- The counters of a new buffer are balanced before the threads have begun. -/
theorem balanced_start : (start (.empty interval limit now) calls).Balanced := by
  have hidle : (start (.empty interval limit now) calls).AllIdle := by
    intro thread hmem
    simp only [start, List.mem_map] at hmem
    obtain ⟨todo, -, rfl⟩ := hmem
    rfl
  refine ⟨rfl, rfl, ⟨rfl, by simp [batches, start]⟩, ?_⟩
  rw [hidle.unpushed_eq]
  rfl

/-- The counters are balanced, whatever the schedule. -/
theorem balanced_of_reachable (h : Reachable (start (.empty interval limit now) calls) s) :
    s.Balanced := by
  refine (h.induct (P := fun s => Reachable (start (.empty interval limit now) calls) s ∧
    s.Balanced) ⟨.here, balanced_start⟩ ?_).2
  intro choice i s thread thread' u ih hget hm
  obtain ⟨hreach, hbalanced⟩ := ih
  obtain ⟨-, -, -, hcovered⟩ := allCovered_of_reachable hreach
  exact ⟨(hreach.move choice hget hm).1, hbalanced.move hget (hcovered i thread hget).1 hm⟩

/-- **No line is unaccounted for.**  Whatever the schedule, the readings of the
clock and the answers of the sink, while no call is in progress: the lines that
threads have asked to add wait, were written, were dropped, or were in a batch
whose delivery broke off; the counters count the lines of the batches that were
accepted and of those that were refused, and the batches that were handed over,
none of which is empty.  And the buffer goes on working: a line that is added
then and drained with a sink that accepts is accepted behind those that
waited. -/
theorem appendCalls_eq_pending_written_dropped_broken
    (h : Reachable (start (.empty interval limit now) calls) s) (hidle : s.AllIdle) :
    s.appendCalls = s.buffer.stats.pending + s.buffer.stats.written + s.buffer.stats.dropped +
        (s.settled Delivery.isBroken).length ∧
      s.buffer.stats.written = (s.settled Delivery.isAccepted).length ∧
      s.buffer.stats.dropped = (s.settled Delivery.isRefused).length ∧
      s.buffer.stats.flushes = s.batches.length ∧ (∀ batch ∈ s.batches, batch ≠ []) ∧
      ∀ i line rest, s.threads[i]? = some ⟨.append line :: .forceDrain :: rest, .idle⟩ →
        ∀ clock later : Clock, ∃ u, Reachable s u ∧ u.AllIdle ∧
          u.threads = s.threads.set i ⟨rest, .idle⟩ ∧
          u.buffer = BufferCall.forceDrain.alone .accepted later
            ((BufferCall.append line).alone .accepted clock s.buffer) ∧
          u.buffer.queue.toList = [] ∧
          u.settled Delivery.isAccepted =
            s.settled Delivery.isAccepted ++ (s.buffer.queue.toList ++ [line]) := by
  obtain ⟨hlocked, horder, haccounted, -⟩ := allCovered_of_reachable h
  obtain ⟨hwritten, hdropped, ⟨hflushes, hne⟩, hcalls⟩ := balanced_of_reachable h
  obtain ⟨hbufferFree, hsinkFree⟩ := hidle.holders_eq hlocked
  have hplaces := horder.counts_eq haccounted
  have hdelivered := s.length_delivered
  refine ⟨?_, hwritten, hdropped, hflushes, hne, ?_⟩
  · rw [inFlight, hsinkFree, waiting, hbufferFree, inHand_none, inHand_none] at hplaces
    rw [hidle.unpushed_eq, pushes] at hcalls
    simp only [Buffer.stats, List.length_nil, Queue.length_toList] at hplaces ⊢
    omega
  · intro i line rest hget clock later
    exact exists_accepted h hidle hget clock later

/-- Of three batches one is accepted, one is refused and one breaks off; the
line that is added next is accepted. -/
theorem appendCalls_eq_pending_written_dropped_broken_of_three_answers :
    let calls : List (List BufferCall) :=
      [[.append "a", .append "b", .append "c", .append "d", .forceDrain]]
    ∃ s, Reachable (start (.empty 1000 1 0) calls) s ∧ s.AllIdle ∧
      s.buffer.stats = ⟨0, 1, 1, 3⟩ ∧ s.settled Delivery.isBroken = ["c"] ∧
      s.appendCalls = s.buffer.stats.pending + s.buffer.stats.written +
        s.buffer.stats.dropped + (s.settled Delivery.isBroken).length ∧
      ∃ u, Reachable s u ∧ u.settled Delivery.isAccepted = ["a", "d"] := by
  intro calls
  have hreach := reachable_getD_follow? (start (.empty 1000 1 0) calls)
    (List.replicate 10 (0, ⟨0, .accepted⟩) ++
      List.replicate 10 (0, ⟨0, .refused .embeddedNewline⟩) ++
      List.replicate 10 (0, ⟨0, .broken⟩))
  obtain ⟨hbalance, -, -, -, -, haccepted⟩ :=
    appendCalls_eq_pending_written_dropped_broken hreach (by decide +kernel)
  obtain ⟨u, hu, -, -, -, -, hsettled⟩ :=
    haccepted 0 "d" [] (by decide +kernel) ⟨0, 0⟩ ⟨0, 0⟩
  refine ⟨_, hreach, ?_, ?_, ?_, hbalance, u, hu, hsettled.trans ?_⟩
  all_goals decide +kernel

end Threads

end TraceLog
