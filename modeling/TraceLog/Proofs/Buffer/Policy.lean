import TraceLog.Buffer.Threads

/-!
# TraceLog.Proofs.Buffer.Policy

When a buffer hands over its lines.

A buffer in use is followed call by call, along with the batches that its sink
was handed: `Usage.last` reads off them when the last batch was taken, which is
what the buffer itself keeps as the time of its last flush.  Calls that find
nothing to take leave that time alone, and calls whose batch is refused or
breaks off do not.

* `Usage.run` — calls in turn, and `Usage.buffer_sink_run`, that following them
  changes nothing;
* `Usage.Called` — what one call does, by whether it hands a batch over;
* `Usage.Paced` — what every call preserves;
* `Usage.flush_policy` — when lines wait, and when batches are taken.
-/

namespace TraceLog

variable {σ : Type}

/-- A sink that notes the batches it is handed, the first one first. -/
def Sink.noting (sink : Sink σ) : Sink (σ × List (List String)) := fun batch s =>
  ((sink batch s.1).1, (sink batch s.1).2, s.2 ++ [batch])

namespace BufferCall

/-- The call drains the buffer only if that is due. -/
def isAutomatic : BufferCall → Bool
  | .append _ | .drainIfDue => true
  | .forceDrain | .stats => false

/-- The buffer and its sink after the call. -/
def perform (sink : Sink σ) (clock : Clock) (b : Buffer) (s : σ) : BufferCall → Buffer × σ
  | .append line => (b.append sink clock line s).2
  | .drainIfDue => (b.drainIfDue sink clock s).2
  | .forceDrain => (b.forceDrain sink clock s).2
  | .stats => (b, s)

end BufferCall

/-- A call that is made, with the readings of the clock during it. -/
structure Turn where
  call : BufferCall
  clock : Clock
  deriving DecidableEq, Repr

/-- The buffer with the line that the call adds, before anything is drained. -/
def Turn.grown (turn : Turn) (b : Buffer) : Buffer :=
  match turn.call with
  | .append line => b.push line
  | .drainIfDue | .forceDrain | .stats => b

/-- A batch that was handed over, with the call that did so. -/
structure Handover where
  turn : Turn
  batch : List String
  deriving DecidableEq, Repr

/-- A buffer in use, with its sink and the batches that were handed over, the
first one first. -/
structure Usage (σ : Type) where
  buffer : Buffer
  sink : σ
  handed : List Handover

/-! ## Buffers that are due -/

namespace Buffer

theorem isFull_eq_true_iff {b : Buffer} :
    b.isFull = true ↔ 0 < b.limit ∧ b.limit ≤ b.queue.size := by
  rw [isFull, Bool.and_eq_true, decide_eq_true_eq, decide_eq_true_eq]

/-- A batch is due exactly if lines wait and fill the buffer, or wait and the
interval has passed. -/
theorem isDue_eq_true_iff {b : Buffer} {now : Nat} :
    b.isDue now = true ↔ b.queue.toList ≠ [] ∧
      ((0 < b.limit ∧ b.limit ≤ b.queue.size) ∨ b.interval ≤ now - b.lastFlush) := by
  rw [isDue, Bool.and_eq_true, Bool.or_eq_true, isFull_eq_true_iff, decide_eq_true_eq,
    Bool.not_eq_true', ← Bool.not_eq_true, Queue.isEmpty_eq_true_iff]

/-- Lines that are not due do not fill the buffer. -/
theorem size_lt_of_isDue_eq_false {b : Buffer} {now : Nat} (h : b.isDue now = false)
    (hlimit : 0 < b.limit) : b.queue.size < b.limit := by
  refine Nat.lt_of_not_le fun hfull => ?_
  have hne : b.queue.toList ≠ [] := by
    rw [← List.length_pos_iff, Queue.length_toList]
    omega
  rw [isDue_eq_true_iff.2 ⟨hne, .inl ⟨hlimit, hfull⟩⟩] at h
  contradiction

/-- Lines that are not due have waited for less than the interval. -/
theorem lt_of_isDue_eq_false {b : Buffer} {now : Nat} (h : b.isDue now = false)
    (hne : b.queue.toList ≠ []) : now < b.lastFlush + b.interval := by
  refine Nat.lt_of_not_le fun hpassed => ?_
  rw [isDue_eq_true_iff.2 ⟨hne, .inr (by omega)⟩] at h
  contradiction

@[simp] theorem interval_settle (b : Buffer) (count : Nat) (d : Delivery) :
    (b.settle count d).interval = b.interval := by
  cases d <;> rfl

@[simp] theorem limit_settle (b : Buffer) (count : Nat) (d : Delivery) :
    (b.settle count d).limit = b.limit := by
  cases d <;> rfl

@[simp] theorem lastFlush_settle (b : Buffer) (count : Nat) (d : Delivery) :
    (b.settle count d).lastFlush = b.lastFlush := by
  cases d <;> rfl

end Buffer

/-! ## Noting the batches -/

/-- A drain does the same whether or not its batch is noted. -/
theorem Buffer.drain_noting (sink : Sink σ) (now : Nat) (b : Buffer) (s : σ)
    (noted : List (List String)) :
    (b.drain sink.noting now (s, noted)).2.map id Prod.fst = (b.drain sink now s).2 := by
  by_cases hempty : b.queue.isEmpty = true
  · rw [drain_of_isEmpty _ _ hempty, drain_of_isEmpty _ _ hempty]
    rfl
  · rw [drain_of_not_isEmpty _ _ hempty, drain_of_not_isEmpty _ _ hempty]
    rfl

theorem Buffer.drainIfDue_noting (sink : Sink σ) (clock : Clock) (b : Buffer) (s : σ)
    (noted : List (List String)) :
    (b.drainIfDue sink.noting clock (s, noted)).2.map id Prod.fst =
      (b.drainIfDue sink clock s).2 := by
  unfold drainIfDue
  split
  · exact b.drain_noting sink clock.take s noted
  · rfl

/-- Noting the batches changes nothing for the buffer and its sink. -/
theorem BufferCall.perform_noting (sink : Sink σ) (clock : Clock) (b : Buffer) (s : σ)
    (noted : List (List String)) (call : BufferCall) :
    (call.perform sink.noting clock b (s, noted)).map id Prod.fst =
      call.perform sink clock b s := by
  cases call with
  | append line => exact (b.push line).drainIfDue_noting sink clock s noted
  | drainIfDue => exact b.drainIfDue_noting sink clock s noted
  | forceDrain => exact b.drain_noting sink clock.take s noted
  | stats => rfl

/-! ## The line that a call adds -/

namespace Turn

@[simp] theorem interval_grown (turn : Turn) (b : Buffer) :
    (turn.grown b).interval = b.interval := by
  unfold grown
  split <;> rfl

@[simp] theorem limit_grown (turn : Turn) (b : Buffer) : (turn.grown b).limit = b.limit := by
  unfold grown
  split <;> rfl

@[simp] theorem lastFlush_grown (turn : Turn) (b : Buffer) :
    (turn.grown b).lastFlush = b.lastFlush := by
  unfold grown
  split <;> rfl

/-- One line comes in at most. -/
theorem size_grown_le (turn : Turn) (b : Buffer) :
    (turn.grown b).queue.size ≤ b.queue.size + 1 := by
  unfold grown
  split <;> simp

/-- A call that does not ask whether a batch is due adds no line. -/
theorem grown_of_not_isAutomatic {turn : Turn} (h : turn.call.isAutomatic = false) (b : Buffer) :
    turn.grown b = b := by
  unfold grown
  split
  · next line hcall =>
      rw [hcall] at h
      contradiction
  all_goals rfl

end Turn

namespace Usage

/-! ## Buffers in use -/

/-- A new buffer. -/
def new (interval limit start : Nat) (s : σ) : Usage σ := ⟨.empty interval limit start, s, []⟩

/-- The usage after one more call. -/
def after (sink : Sink σ) (u : Usage σ) (turn : Turn) : Usage σ :=
  let result := turn.call.perform sink.noting turn.clock u.buffer (u.sink, [])
  ⟨result.1, result.2.1, u.handed ++ result.2.2.map (⟨turn, ·⟩)⟩

/-- When the last batch was taken; the buffer was made at `start`. -/
def last (start : Nat) (handed : List Handover) : Nat :=
  (handed.getLast?.map (·.turn.clock.take)).getD start

/-- All readings of the clock, in turn, after the one at `start`. -/
def readings (start : Nat) (turns : List Turn) : List Nat :=
  start :: turns.flatMap fun turn => [turn.clock.check, turn.clock.take]

@[simp] theorem last_append (start : Nat) (handed : List Handover) (h : Handover) :
    last start (handed ++ [h]) = h.turn.clock.take := by
  simp [last]

/-! ## One call -/

/-- What one call does: the line that it adds waits, or the whole queue is
handed over with it. -/
inductive Called (u : Usage σ) (turn : Turn) : Usage σ → Prop where
  | waits (hdue : turn.call.isAutomatic = true →
        (turn.grown u.buffer).isDue turn.clock.check = false) :
      Called u turn { u with buffer := turn.grown u.buffer }
  | drains (hne : (turn.grown u.buffer).queue.isEmpty = false)
      (hdue : turn.call.isAutomatic = true →
        (turn.grown u.buffer).isDue turn.clock.check = true) (delivery : Delivery) (s : σ) :
      Called u turn
        ⟨((turn.grown u.buffer).take turn.clock.take).begin.settle
            (turn.grown u.buffer).queue.size delivery, s,
          u.handed ++ [⟨turn, (turn.grown u.buffer).queue.toList⟩]⟩

/-- A call that drains the buffer takes the whole queue, if there is anything
in it. -/
theorem called_drain {u : Usage σ} {turn : Turn} (sink : Sink σ)
    (hdue : (turn.grown u.buffer).queue.isEmpty = false → turn.call.isAutomatic = true →
      (turn.grown u.buffer).isDue turn.clock.check = true)
    (hperform : turn.call.perform sink.noting turn.clock u.buffer (u.sink, []) =
      ((turn.grown u.buffer).drain sink.noting turn.clock.take (u.sink, [])).2) :
    Called u turn (u.after sink turn) := by
  cases hempty : (turn.grown u.buffer).queue.isEmpty with
  | true =>
      have hwaits : u.after sink turn = { u with buffer := turn.grown u.buffer } := by
        simp [after, hperform, Buffer.drain_of_isEmpty _ _ hempty]
      rw [hwaits]
      exact .waits fun _ => Buffer.isDue_of_isEmpty hempty _
  | false =>
      rw [after, hperform, Buffer.drain_of_not_isEmpty _ _ (by simp [hempty])]
      exact .drains hempty (hdue hempty) _ _

/-- A call that drains the buffer only if that is due. -/
theorem called_drainIfDue {u : Usage σ} {turn : Turn} (sink : Sink σ)
    (hperform : turn.call.perform sink.noting turn.clock u.buffer (u.sink, []) =
      ((turn.grown u.buffer).drainIfDue sink.noting turn.clock (u.sink, [])).2) :
    Called u turn (u.after sink turn) := by
  rw [Buffer.drainIfDue] at hperform
  cases hdue : (turn.grown u.buffer).isDue turn.clock.check with
  | true =>
      rw [if_pos hdue] at hperform
      exact called_drain sink (fun _ _ => hdue) hperform
  | false =>
      rw [if_neg (by simp [hdue])] at hperform
      have hwaits : u.after sink turn = { u with buffer := turn.grown u.buffer } := by
        simp [after, hperform]
      rw [hwaits]
      exact .waits fun _ => hdue

/-- A call does one or the other. -/
theorem called_after (sink : Sink σ) (u : Usage σ) (turn : Turn) :
    Called u turn (u.after sink turn) := by
  obtain ⟨call, clock⟩ := turn
  cases call with
  | append line => exact called_drainIfDue sink rfl
  | drainIfDue => exact called_drainIfDue sink rfl
  | forceDrain => exact called_drain sink nofun rfl
  | stats =>
      have hwaits : u.after sink ⟨.stats, clock⟩ = u := by simp [after, BufferCall.perform]
      rw [hwaits]
      exact .waits nofun

/-- Nothing is due after a call that drains the buffer if that is due. -/
theorem Called.isDue_eq_false {u u' : Usage σ} {turn : Turn} (hcalled : Called u turn u')
    (hauto : turn.call.isAutomatic = true) : u'.buffer.isDue turn.clock.check = false := by
  cases hcalled with
  | waits hdue => exact hdue hauto
  | drains _ _ delivery =>
      refine Buffer.isDue_of_isEmpty ?_ _
      rw [Buffer.queue_settle, Buffer.begin, Buffer.queue_take, Queue.isEmpty_empty]

/-! ## What every call preserves -/

/-- A batch was handed over in time, the last one having been taken at `last`:
it is not empty and within the limit, and a call that drains only if that is due
took it when it filled the buffer, or after the interval. -/
structure InTime (interval limit last : Nat) (h : Handover) : Prop where
  ne_nil : h.batch ≠ []
  length_le : 0 < limit → h.batch.length ≤ limit
  waited : h.turn.call.isAutomatic = true → limit = 0 ∨ h.batch.length < limit →
    last + interval ≤ h.turn.clock.check ∧ h.turn.clock.check ≤ h.turn.clock.take

/-- What every call preserves, up to a reading of the clock. -/
structure Paced (interval limit start now : Nat) (u : Usage σ) : Prop where
  interval_eq : u.buffer.interval = interval
  limit_eq : u.buffer.limit = limit
  lastFlush_eq : u.buffer.lastFlush = last start u.handed
  lastFlush_le : u.buffer.lastFlush ≤ now
  /-- The lines that wait do not fill the buffer. -/
  size_lt : 0 < limit → u.buffer.queue.size < limit
  inTime : ∀ before h after, u.handed = before ++ h :: after →
    InTime interval limit (last start before) h

variable {interval limit start now : Nat} {u u' : Usage σ} {turn : Turn}

theorem paced_new (interval limit start : Nat) (s : σ) :
    Paced interval limit start start (new interval limit start s) where
  interval_eq := rfl
  limit_eq := rfl
  lastFlush_eq := rfl
  lastFlush_le := Nat.le_refl _
  size_lt h := h
  inTime before h after hsplit := by simp [new] at hsplit

/-- The queue with the line that comes in is taken in time. -/
theorem Paced.inTime_grown (h : Paced interval limit start now u)
    (hcheck : now ≤ turn.clock.check) (htake : turn.clock.check ≤ turn.clock.take)
    (hne : (turn.grown u.buffer).queue.isEmpty = false)
    (hdue : turn.call.isAutomatic = true → (turn.grown u.buffer).isDue turn.clock.check = true) :
    InTime interval limit (last start u.handed) ⟨turn, (turn.grown u.buffer).queue.toList⟩ := by
  refine ⟨?_, fun hpos => ?_, fun hauto hsmall => ⟨?_, htake⟩⟩
  · rwa [ne_eq, ← Queue.isEmpty_eq_true_iff, Bool.not_eq_true]
  · have hroom := h.size_lt hpos
    have hgrown := turn.size_grown_le u.buffer
    rw [Queue.length_toList]
    omega
  · obtain ⟨-, hfull | hpassed⟩ := Buffer.isDue_eq_true_iff.1 (hdue hauto)
    · rw [Turn.limit_grown, h.limit_eq] at hfull
      rw [Queue.length_toList] at hsmall
      omega
    · have hlast := h.lastFlush_le
      rw [Turn.interval_grown, Turn.lastFlush_grown, h.interval_eq] at hpassed
      show last start u.handed + interval ≤ turn.clock.check
      rw [← h.lastFlush_eq]
      omega

/-- Every call preserves it. -/
theorem Called.paced (hcalled : Called u turn u') (h : Paced interval limit start now u)
    (hcheck : now ≤ turn.clock.check) (htake : turn.clock.check ≤ turn.clock.take) :
    Paced interval limit start turn.clock.take u' := by
  cases hcalled with
  | waits hdue =>
      refine ⟨by rw [Turn.interval_grown, h.interval_eq], by rw [Turn.limit_grown, h.limit_eq],
        by rw [Turn.lastFlush_grown, h.lastFlush_eq], ?_, fun hpos => ?_, h.inTime⟩
      · rw [Turn.lastFlush_grown]
        exact Nat.le_trans h.lastFlush_le (Nat.le_trans hcheck htake)
      · cases hauto : turn.call.isAutomatic with
        | false =>
            rw [Turn.grown_of_not_isAutomatic hauto]
            exact h.size_lt hpos
        | true =>
            have hlt := Buffer.size_lt_of_isDue_eq_false (hdue hauto)
            rw [Turn.limit_grown, h.limit_eq] at hlt
            exact hlt hpos
  | drains hne hdue delivery s =>
      have hnew := h.inTime_grown hcheck htake hne hdue
      constructor
      case interval_eq => simpa [Buffer.begin, Buffer.take] using h.interval_eq
      case limit_eq => simpa [Buffer.begin, Buffer.take] using h.limit_eq
      case lastFlush_eq => simp [Buffer.begin, Buffer.take]
      case lastFlush_le => simp [Buffer.begin, Buffer.take]
      case size_lt => exact fun hpos => by simpa [Buffer.begin] using hpos
      case inTime =>
        intro before handover after hsplit
        obtain rfl | ⟨later, newest, rfl⟩ := after.eq_nil_or_concat
        · -- The batch of this call.
          obtain ⟨rfl, hlast⟩ := List.append_inj' hsplit rfl
          rw [← List.singleton_inj.1 hlast]
          exact hnew
        · -- A batch of an earlier one.
          rw [List.concat_eq_append, ← List.cons_append, ← List.append_assoc] at hsplit
          exact h.inTime _ _ _ (List.append_inj' hsplit rfl).1

/-! ## Whole runs -/

/-- The usage after the calls in turn. -/
def run (sink : Sink σ) (turns : List Turn) (u : Usage σ) : Usage σ := turns.foldl (after sink) u

/-- The buffer and its sink go through the calls as they do without anybody
following them. -/
theorem buffer_sink_run (sink : Sink σ) (turns : List Turn) (u : Usage σ) :
    ((u.run sink turns).buffer, (u.run sink turns).sink) =
      turns.foldl (fun state turn => turn.call.perform sink turn.clock state.1 state.2)
        (u.buffer, u.sink) := by
  induction turns generalizing u with
  | nil => rfl
  | cons turn turns ih =>
      have hcall : ((u.after sink turn).buffer, (u.after sink turn).sink) =
          turn.call.perform sink turn.clock u.buffer u.sink :=
        turn.call.perform_noting sink turn.clock u.buffer u.sink []
      rw [List.foldl_cons, ← hcall]
      exact ih (u.after sink turn)

/-- Calls whose readings of the clock do not go back preserve it. -/
theorem Paced.run (sink : Sink σ) {turns : List Turn} (h : Paced interval limit start now u)
    (hclock : (readings now turns).Pairwise (· ≤ ·)) :
    ∃ later, Paced interval limit start later (u.run sink turns) := by
  induction turns generalizing now u with
  | nil => exact ⟨now, h⟩
  | cons turn turns ih =>
      obtain ⟨hnow, hcheck, hrest⟩ :
          (∀ reading ∈ turn.clock.check :: readings turn.clock.take turns, now ≤ reading) ∧
            (∀ reading ∈ readings turn.clock.take turns, turn.clock.check ≤ reading) ∧
              (readings turn.clock.take turns).Pairwise (· ≤ ·) := by
        simpa only [readings, List.flatMap_cons, List.cons_append, List.nil_append,
          List.pairwise_cons] using hclock
      have hpaced := (called_after sink u turn).paced h (hnow _ List.mem_cons_self)
        (hcheck _ List.mem_cons_self)
      exact ih hpaced hrest

/-- After any run whose readings of the clock do not go back, and whatever the
sink answers: lines that an automatic call left waiting have waited for less
than the interval and do not fill the buffer, and every batch was handed over in
time. -/
theorem flush_policy (sink : Sink σ) (interval limit start : Nat) (s : σ) (turns : List Turn)
    (hclock : (readings start turns).Pairwise (· ≤ ·)) :
    let u := (new interval limit start s).run sink turns
    (∀ earlier turn, turns = earlier ++ [turn] → turn.call.isAutomatic = true →
      u.buffer.queue.toList = [] ∨
        turn.clock.check < last start u.handed + interval ∧
          (0 < limit → u.buffer.queue.size < limit)) ∧
    ∀ before h after, u.handed = before ++ h :: after →
      InTime interval limit (last start before) h := by
  intro u
  obtain ⟨now, hpaced⟩ := (paced_new interval limit start s).run sink hclock
  refine ⟨fun earlier turn hturns hauto => ?_, hpaced.inTime⟩
  have hdue : u.buffer.isDue turn.clock.check = false := by
    simp only [u, hturns, run, List.foldl_append, List.foldl_cons, List.foldl_nil]
    exact (called_after sink _ turn).isDue_eq_false hauto
  by_cases hempty : u.buffer.queue.toList = []
  · exact .inl hempty
  · have hlt := Buffer.lt_of_isDue_eq_false hdue hempty
    rw [hpaced.lastFlush_eq, hpaced.interval_eq] at hlt
    exact .inr ⟨hlt, hpaced.size_lt⟩

/-- Two lines fill the buffer and are refused, but the interval starts anew; a
drain of nothing does not start it, and the line that comes then is taken ten
milliseconds after the two.  The next one waits. -/
theorem flush_policy_of_refused_batch :
    let sink : Sink Unit := fun _ s => (.refused .embeddedNewline, s)
    let turns : List Turn :=
      [⟨.append "a", ⟨3, 3⟩⟩, ⟨.append "b", ⟨4, 5⟩⟩, ⟨.forceDrain, ⟨9, 9⟩⟩,
        ⟨.append "c", ⟨14, 14⟩⟩, ⟨.drainIfDue, ⟨15, 16⟩⟩, ⟨.append "d", ⟨25, 25⟩⟩]
    let u := (new 10 2 0 ()).run sink turns
    (readings 0 turns).Pairwise (· ≤ ·) ∧
      u.handed.map (·.batch) = [["a", "b"], ["c"]] ∧ u.buffer.queue.toList = ["d"] ∧
      25 < last 0 u.handed + 10 ∧
      InTime 10 2 5 ⟨⟨.drainIfDue, ⟨15, 16⟩⟩, ["c"]⟩ := by
  intro sink turns u
  have hclock : (readings 0 turns).Pairwise (· ≤ ·) := by decide
  have hqueue : u.buffer.queue.toList = ["d"] := by decide +kernel
  have hhanded : u.handed = [⟨⟨.append "b", ⟨4, 5⟩⟩, ["a", "b"]⟩,
      ⟨⟨.drainIfDue, ⟨15, 16⟩⟩, ["c"]⟩] := by decide +kernel
  obtain ⟨hwaits, htaken⟩ : _ ∧ _ := flush_policy sink 10 2 0 () turns hclock
  obtain ⟨hsoon, -⟩ := (hwaits turns.dropLast ⟨.append "d", ⟨25, 25⟩⟩ rfl rfl).resolve_left
    fun hnil => List.cons_ne_nil _ _ (hqueue.symm.trans hnil)
  exact ⟨hclock, by rw [hhanded]; rfl, hqueue, hsoon, htaken [_] _ [] hhanded⟩

end Usage

end TraceLog
