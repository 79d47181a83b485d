import TraceLog.Buffer.Basic

/-!
# TraceLog.Buffer.Threads

Threads that share a buffer.

Two locks guard the sharing: one the buffer, the other what takes the
batches.  A thread that drains takes the queue under the first lock and waits
for the second before it gives up the first, so batches are handed over in the
order in which they were taken, while other threads go on adding lines during
the delivery.

`Threads.step?` is one step of one thread, or nothing if the thread has to
wait or has finished.  What the step cannot know, a reading of the clock and
the answer to a batch, comes with it.  `Threads.events` keeps what happened.

* `Threads.start` — threads that have not begun;
* `Threads.Reachable` — what any schedule can lead to;
* `Threads.finish` — one thread after the other, each as far as it can go.
-/

namespace TraceLog

/-- The calls of a thread on a shared buffer. -/
inductive BufferCall where
  | append (line : String)
  | drainIfDue
  | forceDrain
  | stats
  deriving DecidableEq, Repr

/-- Where a thread is in its call. -/
inductive Stage where
  /-- No call is in progress. -/
  | idle
  /-- Waits for the lock of the buffer. -/
  | entering (call : BufferCall)
  /-- Holds the lock of the buffer and has done nothing yet. -/
  | inside (call : BufferCall)
  /-- Holds the lock of the buffer, to check whether a batch is due. -/
  | checking (call : BufferCall)
  /-- Holds the lock of the buffer, to take the queue. -/
  | draining (call : BufferCall)
  /-- Holds the lock of the buffer and a batch, and waits for the lock of the
  sink. -/
  | holding (call : BufferCall) (batch : List String)
  /-- Holds both locks and a batch. -/
  | passing (call : BufferCall) (batch : List String)
  /-- Holds the lock of the sink and a batch. -/
  | ready (call : BufferCall) (batch : List String)
  /-- Holds the lock of the sink while the batch is delivered. -/
  | delivering (call : BufferCall) (batch : List String)
  /-- Holds the lock of the sink after the delivery. -/
  | delivered (call : BufferCall) (result : Drain)
  deriving DecidableEq, Repr

/-- A thread: the calls it has still to make, and where it is. -/
structure Thread where
  todo : List BufferCall
  stage : Stage
  deriving DecidableEq, Repr

/-- What a call came back with. -/
inductive CallResult where
  | drained (result : Drain)
  | stats (s : Stats)
  deriving DecidableEq, Repr

/-- What happened. -/
inductive ThreadEvent where
  | called (thread : Nat) (call : BufferCall)
  | pushed (thread : Nat) (line : String)
  | handed (thread : Nat) (batch : List String)
  | finished (thread : Nat) (batch : List String) (delivery : Delivery)
  | returned (thread : Nat) (call : BufferCall) (result : CallResult)
  deriving DecidableEq, Repr

/-- Threads that share a buffer. -/
structure Threads where
  buffer : Buffer
  threads : List Thread
  /-- The thread that holds the lock of the buffer. -/
  bufferHolder : Option Nat
  /-- The thread that holds the lock of the sink. -/
  sinkHolder : Option Nat
  /-- What happened, the latest first. -/
  events : List ThreadEvent
  deriving Repr

/-- What a step cannot know. -/
structure Choice where
  /-- The reading of the clock. -/
  now : Nat
  /-- The answer to a batch. -/
  delivery : Delivery

namespace Threads

/-- Threads that have not begun, each with its calls. -/
def start (buffer : Buffer) (calls : List (List BufferCall)) : Threads :=
  ⟨buffer, calls.map (⟨·, .idle⟩), none, none, []⟩

/-- Thread `i` is at another stage. -/
def goTo (s : Threads) (i : Nat) (thread : Thread) (stage : Stage) : Threads :=
  { s with threads := s.threads.set i { thread with stage } }

/-- One more thing has happened. -/
def note (s : Threads) (event : ThreadEvent) : Threads := { s with events := event :: s.events }

/-- Thread `i` comes back from a call. -/
def comeBack (s : Threads) (i : Nat) (thread : Thread) (call : BufferCall) (result : CallResult) :
    Threads :=
  (s.goTo i thread .idle).note (.returned i call result)

/-- One step of thread `i`. -/
def step? (choice : Choice) (i : Nat) (s : Threads) : Option Threads :=
  match s.threads[i]? with
  | none => none
  | some thread =>
    match thread.stage with
    | .idle =>
      match thread.todo with
      | [] => none
      | call :: todo =>
        some ((s.goTo i { thread with todo } (.entering call)).note (.called i call))
    | .entering call =>
      if s.bufferHolder.isNone then
        some { s.goTo i thread (.inside call) with bufferHolder := some i }
      else none
    | .inside (.append line) =>
      some { (s.goTo i thread (.checking (.append line))).note (.pushed i line) with
        buffer := s.buffer.push line }
    | .inside .drainIfDue => some (s.goTo i thread (.checking .drainIfDue))
    | .inside .forceDrain => some (s.goTo i thread (.draining .forceDrain))
    | .inside .stats =>
      some { s.comeBack i thread .stats (.stats s.buffer.stats) with bufferHolder := none }
    | .checking call =>
      if s.buffer.isDue choice.now then some (s.goTo i thread (.draining call))
      else some { s.comeBack i thread call (.drained (.written 0)) with bufferHolder := none }
    | .draining call =>
      if s.buffer.queue.isEmpty then
        some { s.comeBack i thread call (.drained (.written 0)) with bufferHolder := none }
      else
        some { s.goTo i thread (.holding call s.buffer.queue.toList) with
          buffer := s.buffer.take choice.now }
    | .holding call batch =>
      if s.sinkHolder.isNone then
        some { s.goTo i thread (.passing call batch) with sinkHolder := some i }
      else none
    | .passing call batch => some { s.goTo i thread (.ready call batch) with bufferHolder := none }
    | .ready call batch =>
      some { (s.goTo i thread (.delivering call batch)).note (.handed i batch) with
        buffer := s.buffer.begin }
    | .delivering call batch =>
      let delivery := choice.delivery
      let result := Buffer.report batch.length delivery
      some { (s.goTo i thread (.delivered call result)).note (.finished i batch delivery) with
        buffer := s.buffer.settle batch.length delivery }
    | .delivered call result =>
      some { s.comeBack i thread call (.drained result) with sinkHolder := none }

/-- What some schedule leads to from `s`. -/
inductive Reachable (s : Threads) : Threads → Prop where
  | here : Reachable s s
  | step {t u : Threads} (choice : Choice) (i : Nat) (h : Reachable s t)
      (hstep : t.step? choice i = some u) : Reachable s u

/-! ## Running -/

/-- Thread `i` takes a step while it can, `fuel` steps at most. -/
def run (choice : Choice) (i : Nat) : (fuel : Nat) → Threads → Threads
  | 0, s => s
  | fuel + 1, s =>
    match s.step? choice i with
    | none => s
    | some s => run choice i fuel s

/-- A call takes ten steps at most, so no thread has more steps than this
left. -/
def stepsLeft (thread : Thread) : Nat := 10 * (thread.todo.length + 1)

/-- The threads one after the other, each as far as it can go. -/
def finish (choice : Choice) (s : Threads) : Threads :=
  s.threads.zipIdx.foldl (fun s (thread, i) => s.run choice i (stepsLeft thread)) s

/-- The batches that were handed over, the first one first. -/
def batches (s : Threads) : List (List String) :=
  s.events.reverse.filterMap fun
    | .handed _ batch => some batch
    | _ => none

/-! ## Small lemmas -/

/-- Running a thread leads to what a schedule can lead to. -/
theorem Reachable.run {s t : Threads} (h : Reachable s t) (choice : Choice) (i fuel : Nat) :
    Reachable s (t.run choice i fuel) := by
  induction fuel generalizing t with
  | zero => exact h
  | succ fuel ih =>
    rw [Threads.run]
    split
    · exact h
    · next hstep => exact ih (.step choice i h hstep)

/-- So does running all of them. -/
theorem reachable_finish (s : Threads) (choice : Choice) : Reachable s (s.finish choice) := by
  suffices h : ∀ (turns : List (Thread × Nat)) (t : Threads), Reachable s t →
      Reachable s (turns.foldl (fun t (thread, i) => t.run choice i (stepsLeft thread)) t) from
    h _ s .here
  intro turns
  induction turns with
  | nil => exact fun _ h => h
  | cons turn turns ih => exact fun t h => ih _ (h.run choice turn.2 _)

end Threads

end TraceLog
