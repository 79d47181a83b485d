import TraceLog.Buffer.Queue
import TraceLog.Failure

/-!
# TraceLog.Buffer.Basic

Records that wait to be written.

A buffer keeps lines in the order they came in.  It is due once its interval
has passed since the last batch was taken, or once it is full; then the whole
queue is taken as one batch and handed to what writes it.  A batch that is
refused is lost, and so is one whose delivery breaks off; the counters tell
them apart.

The steps are `push`, `isDue`, `take`, `begin` and `settle`; `append`,
`drainIfDue` and `forceDrain` put them together.  Clock readings are in
milliseconds; checking whether a drain is due and taking the batch read the
clock one after the other.
-/

namespace TraceLog

/-- What came of a batch that was handed over. -/
inductive Delivery where
  | accepted
  | refused (failure : Failure)
  /-- The delivery broke off. -/
  | broken
  deriving DecidableEq, Repr

/-- What came of a drain. -/
inductive Drain where
  /-- So many lines were written. -/
  | written (count : Nat)
  | refused (failure : Failure)
  /-- The delivery broke off. -/
  | broken
  deriving DecidableEq, Repr

/-- What takes batches, with a state of its own. -/
abbrev Sink (σ : Type) := List String → σ → Delivery × σ

/-- Two readings of the clock, one after the other. -/
structure Clock where
  /-- When it is checked whether a drain is due. -/
  check : Nat
  /-- When a batch is taken. -/
  take : Nat
  deriving DecidableEq, Repr

/-- What a buffer has done. -/
structure Stats where
  /-- Lines that wait. -/
  pending : Nat
  /-- Lines of batches that were accepted. -/
  written : Nat
  /-- Lines of batches that were refused. -/
  dropped : Nat
  /-- Batches that were handed over. -/
  flushes : Nat
  deriving DecidableEq, Repr

/-- Lines that wait to be written. -/
structure Buffer where
  /-- The time between batches. -/
  interval : Nat
  /-- How many lines fill the buffer; no limit if zero. -/
  limit : Nat
  queue : Queue
  /-- When the last batch was taken. -/
  lastFlush : Nat
  written : Nat
  dropped : Nat
  flushes : Nat
  deriving DecidableEq, Repr

namespace Buffer

/-- An empty buffer. -/
def empty (interval limit now : Nat) : Buffer := ⟨interval, limit, .empty, now, 0, 0, 0⟩

/-- The counters. -/
def stats (b : Buffer) : Stats := ⟨b.queue.size, b.written, b.dropped, b.flushes⟩

/-! ## Steps -/

/-- Adds a line to the queue. -/
def push (b : Buffer) (line : String) : Buffer := { b with queue := b.queue.push line }

/-- Whether the queue has reached the limit. -/
def isFull (b : Buffer) : Bool := decide (0 < b.limit) && decide (b.limit ≤ b.queue.size)

/-- Whether a batch is due. -/
def isDue (b : Buffer) (now : Nat) : Bool :=
  !b.queue.isEmpty && (b.isFull || decide (b.interval ≤ now - b.lastFlush))

/-- The buffer after the whole queue has been taken. -/
def take (b : Buffer) (now : Nat) : Buffer := { b with queue := .empty, lastFlush := now }

/-- Counts a batch that is handed over. -/
def begin (b : Buffer) : Buffer := { b with flushes := b.flushes + 1 }

/-- Counts the lines of a batch by what came of it. -/
def settle (b : Buffer) (count : Nat) : Delivery → Buffer
  | .accepted => { b with written := b.written + count }
  | .refused _ => { b with dropped := b.dropped + count }
  | .broken => b

/-- What came of a drain of so many lines. -/
def report (count : Nat) : Delivery → Drain
  | .accepted => .written count
  | .refused failure => .refused failure
  | .broken => .broken

/-! ## Operations -/

variable {σ : Type}

/-- Takes the queue and hands it over; an empty one is left alone. -/
def drain (sink : Sink σ) (now : Nat) (b : Buffer) (s : σ) : Drain × Buffer × σ :=
  if b.queue.isEmpty then (.written 0, b, s)
  else
    let (delivery, s) := sink b.queue.toList s
    (report b.queue.size delivery, (b.take now).begin.settle b.queue.size delivery, s)

/-- Drains the buffer whether or not that is due. -/
def forceDrain (sink : Sink σ) (clock : Clock) (b : Buffer) (s : σ) : Drain × Buffer × σ :=
  b.drain sink clock.take s

/-- Drains the buffer if that is due. -/
def drainIfDue (sink : Sink σ) (clock : Clock) (b : Buffer) (s : σ) : Drain × Buffer × σ :=
  if b.isDue clock.check then b.drain sink clock.take s else (.written 0, b, s)

/-- Adds a line, and drains the buffer if that is due. -/
def append (sink : Sink σ) (clock : Clock) (line : String) (b : Buffer) (s : σ) :
    Drain × Buffer × σ :=
  (b.push line).drainIfDue sink clock s

/-! ## Small lemmas -/

@[simp] theorem queue_push (b : Buffer) (line : String) :
    (b.push line).queue = b.queue.push line := rfl

@[simp] theorem queue_take (b : Buffer) (now : Nat) : (b.take now).queue = .empty := rfl

@[simp] theorem queue_settle (b : Buffer) (count : Nat) (d : Delivery) :
    (b.settle count d).queue = b.queue := by
  cases d <;> rfl

/-- Nothing is due while nothing waits. -/
theorem isDue_of_isEmpty {b : Buffer} (h : b.queue.isEmpty = true) (now : Nat) :
    b.isDue now = false := by
  rw [isDue, h]
  rfl

theorem drain_of_isEmpty (sink : Sink σ) (now : Nat) {b : Buffer} (h : b.queue.isEmpty = true)
    (s : σ) : b.drain sink now s = (.written 0, b, s) := by
  rw [drain, if_pos h]

theorem drain_of_not_isEmpty (sink : Sink σ) (now : Nat) {b : Buffer}
    (h : ¬b.queue.isEmpty = true) (s : σ) :
    b.drain sink now s =
      (report b.queue.size (sink b.queue.toList s).1,
        (b.take now).begin.settle b.queue.size (sink b.queue.toList s).1,
        (sink b.queue.toList s).2) := by
  rw [drain, if_neg h]

/-- A drain leaves nothing waiting, whatever comes of it. -/
theorem isEmpty_queue_drain (sink : Sink σ) (now : Nat) (b : Buffer) (s : σ) :
    (b.drain sink now s).2.1.queue.isEmpty = true := by
  by_cases h : b.queue.isEmpty = true
  · rw [drain_of_isEmpty sink now h]
    exact h
  · rw [drain_of_not_isEmpty sink now h, queue_settle, begin, queue_take]
    rfl

end Buffer

end TraceLog
