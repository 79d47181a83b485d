import Mathlib.Algebra.Ring.Nat
import Mathlib.Data.List.Induction
import TraceLog.Buffer.Threads

/-!
# TraceLog.Proofs.Threads.Moves

What one step of one thread does.

`Move` has a constructor for each thing that a thread can do next, with what
has to hold for it; `exists_move_of_step?` takes a step apart once, so that an
invariant is a case analysis over moves and never opens `step?`.
-/

namespace TraceLog

namespace Threads

/-- What one step of thread `i` does, by where the thread is: the thread and
the state afterwards. -/
inductive Move (choice : Choice) (i : Nat) (s : Threads) (thread : Thread) :
    Thread → Threads → Prop where
  /-- The next call begins. -/
  | call {call : BufferCall} {todo : List BufferCall} (hstage : thread.stage = .idle)
      (htodo : thread.todo = call :: todo) :
      Move choice i s thread ⟨todo, .entering call⟩
        ((s.goTo i { thread with todo } (.entering call)).note (.called i call))
  | enter {call : BufferCall} (hstage : thread.stage = .entering call)
      (hfree : s.bufferHolder = none) :
      Move choice i s thread { thread with stage := .inside call }
        { s.goTo i thread (.inside call) with bufferHolder := some i }
  | push {line : String} (hstage : thread.stage = .inside (.append line)) :
      Move choice i s thread { thread with stage := .checking (.append line) }
        { (s.goTo i thread (.checking (.append line))).note (.pushed i line) with
          buffer := s.buffer.push line }
  | look (hstage : thread.stage = .inside .drainIfDue) :
      Move choice i s thread { thread with stage := .checking .drainIfDue }
        (s.goTo i thread (.checking .drainIfDue))
  | force (hstage : thread.stage = .inside .forceDrain) :
      Move choice i s thread { thread with stage := .draining .forceDrain }
        (s.goTo i thread (.draining .forceDrain))
  | count (hstage : thread.stage = .inside .stats) :
      Move choice i s thread { thread with stage := .idle }
        { s.comeBack i thread .stats (.stats s.buffer.stats) with bufferHolder := none }
  | due {call : BufferCall} (hstage : thread.stage = .checking call)
      (hdue : s.buffer.isDue choice.now = true) :
      Move choice i s thread { thread with stage := .draining call }
        (s.goTo i thread (.draining call))
  | notDue {call : BufferCall} (hstage : thread.stage = .checking call)
      (hdue : s.buffer.isDue choice.now = false) :
      Move choice i s thread { thread with stage := .idle }
        { s.comeBack i thread call (.drained (.written 0)) with bufferHolder := none }
  /-- There is nothing to take. -/
  | nothing {call : BufferCall} (hstage : thread.stage = .draining call)
      (hempty : s.buffer.queue.isEmpty = true) :
      Move choice i s thread { thread with stage := .idle }
        { s.comeBack i thread call (.drained (.written 0)) with bufferHolder := none }
  | take {call : BufferCall} (hstage : thread.stage = .draining call)
      (hempty : s.buffer.queue.isEmpty = false) :
      Move choice i s thread { thread with stage := .holding call s.buffer.queue.toList }
        { s.goTo i thread (.holding call s.buffer.queue.toList) with
          buffer := s.buffer.take choice.now }
  /-- The second lock is taken while the first one is still held. -/
  | pass {call : BufferCall} {batch : List String} (hstage : thread.stage = .holding call batch)
      (hfree : s.sinkHolder = none) :
      Move choice i s thread { thread with stage := .passing call batch }
        { s.goTo i thread (.passing call batch) with sinkHolder := some i }
  | release {call : BufferCall} {batch : List String}
      (hstage : thread.stage = .passing call batch) :
      Move choice i s thread { thread with stage := .ready call batch }
        { s.goTo i thread (.ready call batch) with bufferHolder := none }
  | hand {call : BufferCall} {batch : List String} (hstage : thread.stage = .ready call batch) :
      Move choice i s thread { thread with stage := .delivering call batch }
        { (s.goTo i thread (.delivering call batch)).note (.handed i batch) with
          buffer := s.buffer.begin }
  | settle {call : BufferCall} {batch : List String}
      (hstage : thread.stage = .delivering call batch) :
      Move choice i s thread
        { thread with stage := .delivered call (Buffer.report batch.length choice.delivery) }
        { (s.goTo i thread (.delivered call (Buffer.report batch.length choice.delivery))).note
            (.finished i batch choice.delivery) with
          buffer := s.buffer.settle batch.length choice.delivery }
  | leave {call : BufferCall} {result : Drain} (hstage : thread.stage = .delivered call result) :
      Move choice i s thread { thread with stage := .idle }
        { s.comeBack i thread call (.drained result) with sinkHolder := none }

variable {choice : Choice} {i : Nat} {s u : Threads} {thread thread' : Thread}

/-- A step is a move of a thread that is there. -/
theorem exists_move_of_step? (h : s.step? choice i = some u) :
    ∃ thread thread', s.threads[i]? = some thread ∧ Move choice i s thread thread' u := by
  cases hget : s.threads[i]? with
  | none => simp only [step?, hget] at h; contradiction
  | some thread =>
      refine ⟨thread, ?_⟩
      cases hstage : thread.stage with
      | idle =>
          cases htodo : thread.todo with
          | nil => simp only [step?, hget, hstage, htodo] at h; contradiction
          | cons call todo =>
              simp only [step?, hget, hstage, htodo, Option.some.injEq] at h
              subst h
              exact ⟨_, rfl, .call hstage htodo⟩
      | entering call =>
          simp only [step?, hget, hstage, Option.isNone_iff_eq_none] at h
          split at h
          · next hfree =>
              rw [Option.some.injEq] at h
              subst h
              exact ⟨_, rfl, .enter hstage hfree⟩
          · contradiction
      | inside call =>
          cases call <;> simp only [step?, hget, hstage, Option.some.injEq] at h <;> subst h
          · exact ⟨_, rfl, .push hstage⟩
          · exact ⟨_, rfl, .look hstage⟩
          · exact ⟨_, rfl, .force hstage⟩
          · exact ⟨_, rfl, .count hstage⟩
      | checking call =>
          simp only [step?, hget, hstage] at h
          split at h <;> rw [Option.some.injEq] at h <;> subst h
          · next hdue => exact ⟨_, rfl, .due hstage hdue⟩
          · next hdue => exact ⟨_, rfl, .notDue hstage (Bool.eq_false_iff.2 hdue)⟩
      | draining call =>
          simp only [step?, hget, hstage] at h
          split at h <;> rw [Option.some.injEq] at h <;> subst h
          · next hempty => exact ⟨_, rfl, .nothing hstage hempty⟩
          · next hempty => exact ⟨_, rfl, .take hstage (Bool.eq_false_iff.2 hempty)⟩
      | holding call batch =>
          simp only [step?, hget, hstage, Option.isNone_iff_eq_none] at h
          split at h
          · next hfree =>
              rw [Option.some.injEq] at h
              subst h
              exact ⟨_, rfl, .pass hstage hfree⟩
          · contradiction
      | passing call batch =>
          simp only [step?, hget, hstage, Option.some.injEq] at h
          subst h
          exact ⟨_, rfl, .release hstage⟩
      | ready call batch =>
          simp only [step?, hget, hstage, Option.some.injEq] at h
          subst h
          exact ⟨_, rfl, .hand hstage⟩
      | delivering call batch =>
          simp only [step?, hget, hstage, Option.some.injEq] at h
          subst h
          exact ⟨_, rfl, .settle hstage⟩
      | delivered call result =>
          simp only [step?, hget, hstage, Option.some.injEq] at h
          subst h
          exact ⟨_, rfl, .leave hstage⟩

/-- A move puts the thread at another stage and leaves the others alone. -/
theorem Move.threads_eq (hm : Move choice i s thread thread' u) :
    u.threads = s.threads.set i thread' := by
  cases hm <;> rfl

/-- A thread that goes on changes a sum over all threads by its own share. -/
theorem sum_map_set {threads : List Thread} (share : Thread → Nat)
    (hget : threads[i]? = some thread) (thread' : Thread) :
    ((threads.set i thread').map share).sum + share thread =
      (threads.map share).sum + share thread' := by
  induction threads generalizing i with
  | nil => simp at hget
  | cons other threads ih =>
      cases i with
      | zero =>
          simp only [List.getElem?_cons_zero, Option.some.injEq] at hget
          subst hget
          simp only [List.set_cons_zero, List.map_cons, List.sum_cons]
          omega
      | succ i =>
          have hrest := ih (i := i) (by simpa using hget)
          simp only [List.set_cons_succ, List.map_cons, List.sum_cons]
          omega

/-- What every move keeps holds of everything that some schedule leads to. -/
theorem Reachable.induct {P : Threads → Prop} {start : Threads} (hstart : P start)
    (hmove : ∀ {choice i s thread thread' u}, P s → s.threads[i]? = some thread →
      Move choice i s thread thread' u → P u)
    (h : Reachable start s) : P s := by
  induction h with
  | here => exact hstart
  | step choice i _ hstep ih =>
      obtain ⟨thread, thread', hget, hm⟩ := exists_move_of_step? hstep
      exact hmove ih hget hm

/-! ## Schedules -/

/-- The state after the threads of a schedule have taken a step each, in turn;
none if one of them cannot. -/
def follow? : List (Nat × Choice) → Threads → Option Threads
  | [], s => some s
  | (i, choice) :: rest, s => (s.step? choice i).bind (follow? rest)

/-- A schedule and then another one. -/
theorem follow?_append (s : Threads) (first second : List (Nat × Choice)) :
    s.follow? (first ++ second) = (s.follow? first).bind (follow? second) := by
  induction first generalizing s with
  | nil => rfl
  | cons turn first ih =>
      obtain ⟨i, choice⟩ := turn
      rw [List.cons_append, follow?, follow?, Option.bind_assoc]
      exact congrArg _ (funext ih)

/-- What can be reached is what some schedule leads to. -/
theorem reachable_iff_exists_follow? {start s : Threads} :
    Reachable start s ↔ ∃ schedule, start.follow? schedule = some s := by
  constructor
  · intro h
    induction h with
    | here => exact ⟨[], rfl⟩
    | step choice i _ hstep ih =>
        obtain ⟨schedule, hschedule⟩ := ih
        refine ⟨schedule ++ [(i, choice)], ?_⟩
        rw [follow?_append, hschedule, Option.bind_some, follow?, hstep, Option.bind_some, follow?]
  · rintro ⟨schedule, hschedule⟩
    induction schedule using List.reverseRecOn generalizing s with
    | nil =>
        rw [follow?, Option.some.injEq] at hschedule
        exact hschedule ▸ .here
    | append_singleton schedule turn ih =>
        obtain ⟨i, choice⟩ := turn
        rw [follow?_append] at hschedule
        obtain ⟨t, ht, hstep⟩ := Option.bind_eq_some_iff.1 hschedule
        refine (ih ht).step choice i ?_
        simpa [follow?] using hstep

/-- Following a schedule as far as it is one leads to what can be reached. -/
theorem reachable_getD_follow? (s : Threads) (schedule : List (Nat × Choice)) :
    Reachable s ((s.follow? schedule).getD s) := by
  cases h : s.follow? schedule with
  | none => exact .here
  | some u => exact reachable_iff_exists_follow?.2 ⟨schedule, h⟩

/-- A schedule and then a step that can be taken. -/
theorem reachable_getD_step? (s : Threads) (schedule : List (Nat × Choice)) (choice : Choice)
    (i : Nat) (h : (((s.follow? schedule).getD s).step? choice i).isSome = true) :
    Reachable s ((s.follow? schedule).getD s) ∧
      ((s.follow? schedule).getD s).step? choice i =
        some ((((s.follow? schedule).getD s).step? choice i).getD s) := by
  refine ⟨reachable_getD_follow? s schedule, ?_⟩
  obtain ⟨u, hu⟩ := Option.isSome_iff_exists.1 h
  rw [hu, Option.getD_some]

end Threads

/-! ## What was seen -/

namespace ThreadEvent

variable {α : Type}

/-- What `view` makes of the events, which stand the latest first: the first
one comes first. -/
def seen (view : ThreadEvent → Option α) (events : List ThreadEvent) : List α :=
  events.reverse.filterMap view

variable {view : ThreadEvent → Option α}

@[simp] theorem seen_nil : seen view [] = [] := rfl

@[simp] theorem seen_cons (event : ThreadEvent) (events : List ThreadEvent) :
    seen view (event :: events) = seen view events ++ (view event).toList := by
  cases hview : view event <;> simp [seen, hview]

/-- Later events are seen behind earlier ones. -/
theorem seen_append (later earlier : List ThreadEvent) :
    seen view (later ++ earlier) = seen view earlier ++ seen view later := by
  simp [seen]

/-- A line that is added, with its thread. -/
@[simp] def push? : ThreadEvent → Option (Nat × String)
  | .pushed i line => some (i, line)
  | _ => none

/-- A batch that is handed over. -/
@[simp] def handed? : ThreadEvent → Option (List String)
  | .handed _ batch => some batch
  | _ => none

end ThreadEvent

namespace Threads

@[simp] theorem events_goTo (s : Threads) (i : Nat) (thread : Thread) (stage : Stage) :
    (s.goTo i thread stage).events = s.events := rfl

@[simp] theorem events_note (s : Threads) (event : ThreadEvent) :
    (s.note event).events = event :: s.events := rfl

@[simp] theorem events_comeBack (s : Threads) (i : Nat) (thread : Thread) (call : BufferCall)
    (result : CallResult) :
    (s.comeBack i thread call result).events = .returned i call result :: s.events := rfl

@[simp] theorem buffer_goTo (s : Threads) (i : Nat) (thread : Thread) (stage : Stage) :
    (s.goTo i thread stage).buffer = s.buffer := rfl

@[simp] theorem buffer_note (s : Threads) (event : ThreadEvent) :
    (s.note event).buffer = s.buffer := rfl

@[simp] theorem buffer_comeBack (s : Threads) (i : Nat) (thread : Thread) (call : BufferCall)
    (result : CallResult) : (s.comeBack i thread call result).buffer = s.buffer := rfl

/-- The batches that were handed over, as they were seen. -/
theorem batches_eq_seen (s : Threads) : s.batches = ThreadEvent.seen ThreadEvent.handed? s.events :=
  rfl

end Threads

end TraceLog
