import TraceLog.Proofs.Threads.Order

/-!
# TraceLog.Proofs.Threads.Barrier

What has been delivered when a forced drain comes back.

A forced drain that found lines to take waits for the sink, so it comes back
after every earlier batch, and all lines that were added before it was called
are delivered.  One that found an empty queue waits for nothing: the lines
that were added before may be in the batch that another thread is delivering,
but nowhere else.

* `delivered`, `inFlight` — the lines of batches whose delivery is over, and
  those of the batch that has the sink;
* `pushedBefore` — how many lines had been added when a thread made its call;
* `Covered` — how far the lines added before a call have come, by stage.
-/

namespace TraceLog

/-- A batch whose delivery is over. -/
@[simp] def ThreadEvent.finished? : ThreadEvent → Option (List String)
  | .finished _ batch _ => some batch
  | _ => none

namespace Stage

/-- The batch of a thread that has the lock of the sink and has not finished
delivering it. -/
@[simp] def inFlight : Stage → List String
  | .passing _ batch | .ready _ batch | .delivering _ batch => batch
  | _ => []

/-- Only drains that are due check the clock, no batch is empty, and a drain
that delivered a batch does not report that nothing was written. -/
@[simp] def Proper : Stage → Prop
  | .checking call => call ≠ .forceDrain
  | .holding _ batch | .passing _ batch | .ready _ batch | .delivering _ batch => batch ≠ []
  | .delivered _ result => result ≠ .written 0
  | _ => True

end Stage

namespace Threads

/-- The lines of the batches whose delivery is over, in the order in which the
batches were handed over. -/
def delivered (s : Threads) : List String :=
  (ThreadEvent.seen ThreadEvent.finished? s.events).flatten

/-- The lines of the batch that has the sink and is not delivered yet. -/
def inFlight (s : Threads) : List String := inHand Stage.inFlight s.sinkHolder s.threads

/-- How many lines had been added when thread `i` made its last call. -/
def pushedBefore (i : Nat) : List ThreadEvent → Nat
  | [] => 0
  | .called j _ :: earlier =>
    if j = i then (ThreadEvent.seen ThreadEvent.push? earlier).length else pushedBefore i earlier
  | _ :: earlier => pushedBefore i earlier

/-- Line `k` was added, and the call that added it has come back. -/
def Appended (events : List ThreadEvent) (k : Nat) : Prop :=
  ∃ later between earlier i line result,
    events = later ++ .returned i (.append line) result ::
      (between ++ .pushed i line :: earlier) ∧
    (ThreadEvent.seen ThreadEvent.push? earlier).length = k

variable {choice : Choice} {i : Nat} {s u : Threads} {thread thread' : Thread}

/-! ## Delivered and in flight -/

/-- What is on its way to the sink or handed over is delivered or in flight. -/
def Accounted (s : Threads) : Prop :=
  s.batches.flatten ++ s.unhanded = s.delivered ++ s.inFlight

/-- What a move does to the lines that are delivered and to those in flight. -/
theorem Accounted.move (h : s.Accounted) (hlocked : s.Locked)
    (hget : s.threads[i]? = some thread) (hm : Move choice i s thread thread' u) :
    u.Accounted := by
  have hflight : u.inFlight = if thread'.stage.hasSink = true then thread'.stage.inFlight
      else if thread.stage.hasSink = true then [] else s.inFlight := hlocked.inSink_move hget hm
  have hunhanded : u.unhanded = if thread'.stage.hasSink = true then thread'.stage.unhanded
      else if thread.stage.hasSink = true then [] else s.unhanded := hlocked.inSink_move hget hm
  have hflight₀ : thread.stage.hasSink = true → s.inFlight = thread.stage.inFlight :=
    hlocked.sink.inHand_eq hget
  have hunhanded₀ : thread.stage.hasSink = true → s.unhanded = thread.stage.unhanded :=
    hlocked.sink.inHand_eq hget
  unfold Accounted at h ⊢
  rw [hflight, hunhanded, batches_eq_seen, delivered]
  rw [batches_eq_seen, delivered] at h
  cases hm with
  | pass hstage hfree =>
      have hnone : s.unhanded = [] := by rw [unhanded, hfree, inHand_none]
      have hnone' : s.inFlight = [] := by rw [inFlight, hfree, inHand_none]
      rw [hnone, hnone'] at h
      simpa using h
  | _ hstage => simp_all

/-- A move takes nothing back: what is delivered stays so, what is delivered or
in flight stays so, and so does what is delivered, in flight or waiting. -/
theorem Locked.counts_le_move (hlocked : s.Locked) (hget : s.threads[i]? = some thread)
    (hm : Move choice i s thread thread' u) :
    s.delivered.length ≤ u.delivered.length ∧
      s.delivered.length + s.inFlight.length ≤ u.delivered.length + u.inFlight.length ∧
      s.delivered.length + s.inFlight.length + s.waiting.length ≤
        u.delivered.length + u.inFlight.length + u.waiting.length := by
  have hflight : u.inFlight = if thread'.stage.hasSink = true then thread'.stage.inFlight
      else if thread.stage.hasSink = true then [] else s.inFlight := hlocked.inSink_move hget hm
  have hwaiting := hlocked.waiting_move hget hm
  have hflight₀ : thread.stage.hasSink = true → s.inFlight = thread.stage.inFlight :=
    hlocked.sink.inHand_eq hget
  have hwaiting₀ : thread.stage.hasBuffer = true → s.waiting = thread.stage.waiting :=
    hlocked.buffer.inHand_eq hget
  rw [hflight, hwaiting, delivered, delivered]
  cases hm with
  | pass hstage hfree =>
      have hnone : s.inFlight = [] := by rw [inFlight, hfree, inHand_none]
      simp_all
  | enter hstage hfree =>
      have hnone : s.waiting = [] := by rw [waiting, hfree, inHand_none]
      simp_all
  | _ hstage => simp_all

/-! ## How far earlier lines have come -/

/-- How far the lines that were added before the call of a thread have come,
by where the thread is. -/
def Covered (s : Threads) (count : Nat) : Stage → Prop
  | .holding _ _ => count ≤ s.delivered.length + s.inFlight.length + s.waiting.length
  | .passing _ _ | .ready _ _ | .delivering _ _ =>
    count ≤ s.delivered.length + s.inFlight.length
  | .delivered _ _ => count ≤ s.delivered.length
  | _ => True

/-- Every thread is at a proper stage, and the lines that were added before
its call are covered. -/
def AllCovered (s : Threads) : Prop :=
  ∀ i thread, s.threads[i]? = some thread →
    thread.stage.Proper ∧ s.Covered (pushedBefore i s.events) thread.stage

/-- Before a call there were no more lines than there are now. -/
theorem pushedBefore_le (i : Nat) (events : List ThreadEvent) :
    pushedBefore i events ≤ (ThreadEvent.seen ThreadEvent.push? events).length := by
  induction events with
  | nil => exact Nat.le_refl _
  | cons event events ih =>
      have hstep : (ThreadEvent.seen ThreadEvent.push? events).length ≤
          (ThreadEvent.seen ThreadEvent.push? (event :: events)).length := by simp
      cases event with
      | called j call =>
          simp only [pushedBefore]
          split
          · exact hstep
          · exact Nat.le_trans ih hstep
      | _ => exact Nat.le_trans ih hstep

/-- The last call of a thread is the one with no later call behind it. -/
theorem pushedBefore_eq {call : BufferCall} {during before : List ThreadEvent}
    (honly : ∀ other, ThreadEvent.called i other ∉ during) :
    pushedBefore i (during ++ .called i call :: before) =
      (ThreadEvent.seen ThreadEvent.push? before).length := by
  induction during with
  | nil => simp [pushedBefore]
  | cons event during ih =>
      have hrest := ih fun other hmem => honly other (List.mem_cons_of_mem _ hmem)
      cases event with
      | called j other =>
          have hij : j ≠ i := by
            rintro rfl
            exact honly other List.mem_cons_self
          simpa [pushedBefore, hij] using hrest
      | _ => exact hrest

/-- A move of another thread does not touch the last call of a thread. -/
theorem Move.pushedBefore_eq (hm : Move choice i s thread thread' u) {j : Nat} (hij : i ≠ j) :
    pushedBefore j u.events = pushedBefore j s.events := by
  cases hm <;> simp [pushedBefore, hij]

/-- Every line that was added is delivered, in flight, waiting or queued. -/
theorem InOrder.counts_eq (h : s.InOrder) (haccounted : s.Accounted) :
    s.delivered.length + s.inFlight.length + s.waiting.length + s.buffer.queue.toList.length =
      (ThreadEvent.seen ThreadEvent.push? s.events).length := by
  have hplaces := congrArg List.length h
  have hsink := congrArg List.length haccounted
  simp only [List.length_append, pushed, pushes, List.length_map] at hplaces hsink
  omega

/-- A move leaves its own thread at a proper stage, with what was added before
its call covered. -/
theorem AllCovered.own_move (h : s.AllCovered) (hlocked : s.Locked) (horder : s.InOrder)
    (haccounted : s.Accounted) (hget : s.threads[i]? = some thread)
    (hm : Move choice i s thread thread' u) :
    thread'.stage.Proper ∧ u.Covered (pushedBefore i u.events) thread'.stage := by
  have hflight : u.inFlight = if thread'.stage.hasSink = true then thread'.stage.inFlight
      else if thread.stage.hasSink = true then [] else s.inFlight := hlocked.inSink_move hget hm
  have hwaiting := hlocked.waiting_move hget hm
  have hflight₀ : thread.stage.hasSink = true → s.inFlight = thread.stage.inFlight :=
    hlocked.sink.inHand_eq hget
  have hwaiting₀ : thread.stage.hasBuffer = true → s.waiting = thread.stage.waiting :=
    hlocked.buffer.inHand_eq hget
  have hcounts := horder.counts_eq haccounted
  have hbefore := pushedBefore_le i s.events
  obtain ⟨hproper, hcovered⟩ := h i thread hget
  cases hm with
  | take hstage hempty =>
      -- The whole queue is taken, so what was added is delivered, in flight or waiting.
      have hne : s.buffer.queue.toList ≠ [] := by
        intro hnil
        rw [Queue.isEmpty_eq_true_iff.2 hnil] at hempty
        contradiction
      rw [hstage] at hwaiting₀
      rw [hwaiting₀ rfl] at hcounts
      refine ⟨hne, ?_⟩
      simp only [Covered, hflight, hwaiting]
      simp only [hstage, Stage.hasBuffer, Stage.hasSink, Stage.waiting, if_true,
        Bool.false_eq_true, if_false]
      simp only [delivered, events_goTo, Stage.waiting, List.length_nil] at hcounts ⊢
      omega
  | pass hstage hfree =>
      have hnone : s.inFlight = [] := by rw [inFlight, hfree, inHand_none]
      rw [hstage] at hproper hcovered hwaiting₀
      refine ⟨hproper, ?_⟩
      simp only [Covered, Stage.hasBuffer, Stage.waiting, forall_const, hnone] at hwaiting₀ hcovered
      rw [hwaiting₀] at hcovered
      simp only [Covered, hflight]
      simpa [delivered] using hcovered
  | @settle call batch hstage =>
      rw [hstage] at hproper hcovered hflight₀
      constructor
      · have hne : batch ≠ [] := hproper
        cases choice.delivery <;> simp [Buffer.report, hne]
      · simp only [Stage.hasSink, Stage.inFlight, forall_const] at hflight₀
        simpa [Covered, delivered, pushedBefore, hflight₀] using hcovered
  | _ hstage => simp_all [Covered, pushedBefore, delivered]

/-- A move covers what its thread had before it, and all that others had. -/
theorem AllCovered.move (h : s.AllCovered) (hlocked : s.Locked) (horder : s.InOrder)
    (haccounted : s.Accounted) (hget : s.threads[i]? = some thread)
    (hm : Move choice i s thread thread' u) : u.AllCovered := by
  have hi : i < s.threads.length := (List.getElem?_eq_some_iff.1 hget).1
  have hcounts := hlocked.counts_le_move hget hm
  intro j other hother
  rw [hm.threads_eq] at hother
  by_cases hij : i = j
  · subst hij
    rw [List.getElem?_set_self hi, Option.some.injEq] at hother
    subst hother
    exact h.own_move hlocked horder haccounted hget hm
  · rw [List.getElem?_set_ne hij] at hother
    obtain ⟨hproper, hcovered⟩ := h j other hother
    refine ⟨hproper, ?_⟩
    rw [hm.pushedBefore_eq hij]
    cases hstage : other.stage <;> simp only [Covered, hstage] at hcovered ⊢ <;> omega

/-! ## Whole runs -/

variable {calls : List (List BufferCall)} {interval limit now : Nat}

/-- Threads that have not begun have nothing to cover. -/
theorem allCovered_start (buffer : Buffer) (calls : List (List BufferCall)) :
    (start buffer calls).AllCovered := by
  intro i thread hget
  have hmem := List.mem_of_getElem? hget
  simp only [start, List.mem_map] at hmem
  obtain ⟨todo, -, rfl⟩ := hmem
  exact ⟨trivial, trivial⟩

/-- Whatever the schedule, every line has a place and what was added before a
call is covered. -/
theorem allCovered_of_reachable (h : Reachable (start (.empty interval limit now) calls) s) :
    s.Locked ∧ s.InOrder ∧ s.Accounted ∧ s.AllCovered := by
  refine h.induct (P := fun s => s.Locked ∧ s.InOrder ∧ s.Accounted ∧ s.AllCovered)
    ⟨locked_start _ _, inOrder_of_reachable rfl .here, ?_, allCovered_start _ _⟩ ?_
  · simp [Accounted, start, batches, unhanded, delivered, inFlight]
  · intro choice i s thread thread' u ih hget hm
    obtain ⟨hlocked, horder, haccounted, hcovered⟩ := ih
    exact ⟨hlocked.move hget hm, horder.move hlocked hget hm, haccounted.move hlocked hget hm,
      hcovered.move hlocked horder haccounted hget hm⟩

/-- The number of a line that was added is below the number of lines. -/
theorem Appended.lt {events : List ThreadEvent} {k : Nat} (h : Appended events k) :
    k < (ThreadEvent.seen ThreadEvent.push? events).length := by
  obtain ⟨later, between, earlier, i, line, result, rfl, rfl⟩ := h
  simp [ThreadEvent.seen_append]

/-- Delivered lines come first in what was added, and those in flight next. -/
theorem InOrder.delivered_inFlight (h : s.InOrder) (haccounted : s.Accounted) :
    s.delivered ++ s.inFlight <+: s.pushed := by
  refine ⟨s.waiting ++ s.buffer.queue.toList, ?_⟩
  rw [← haccounted, List.append_assoc]
  exact h

/-- A thread that comes back from a forced drain found nothing to take, or has
delivered its batch. -/
theorem Move.of_forced {n : Nat} {t : Threads} (hproper : thread.stage.Proper)
    (hm : Move choice i t thread thread' u)
    (hevents : u.events = .returned i .forceDrain (.drained (.written n)) :: t.events) :
    u.delivered = t.delivered ∧
      ((thread.stage = .draining .forceDrain ∧ t.buffer.queue.isEmpty = true ∧ n = 0) ∨
        ∃ call, thread.stage = .delivered call (.written n)) := by
  cases hm with
  | notDue hstage hdue => simp_all
  | nothing hstage hempty => simp_all [delivered]
  | leave hstage => simp_all [delivered]
  | _ hstage => simp_all

/-- **How far a forced drain is a barrier.**  Let a forced drain come back
without an error, whatever the schedule, the readings of the clock and the
answers of the sink.  The lines whose calls had come back before it was called
are delivered or in the one batch that has the sink, never in the queue and
never in a batch that waits.  All of them are delivered exactly if the drain
wrote something itself or none of them is in flight. -/
theorem forceDrain_barrier_iff {t : Threads} {n : Nat} (during before : List ThreadEvent)
    (h : Reachable (start (.empty interval limit now) calls) t)
    (hstep : t.step? choice i = some u)
    (hreturned : u.events = .returned i .forceDrain (.drained (.written n)) :: t.events)
    (hcalled : t.events = during ++ .called i .forceDrain :: before)
    (honly : ∀ other, ThreadEvent.called i other ∉ during) :
    u.delivered ++ u.inFlight <+: u.pushed ∧
      (∀ k, Appended before k → k < (u.delivered ++ u.inFlight).length) ∧
      ((∀ k, Appended before k → k < u.delivered.length) ↔
        0 < n ∨ ∀ k, Appended before k →
          ¬(u.delivered.length ≤ k ∧ k < (u.delivered ++ u.inFlight).length)) := by
  obtain ⟨thread, thread', hget, hm⟩ := exists_move_of_step? hstep
  obtain ⟨hlocked, horder, haccounted, hcovered⟩ := allCovered_of_reachable h
  obtain ⟨hlocked', horder', haccounted', -⟩ := allCovered_of_reachable (h.step choice i hstep)
  obtain ⟨hproper, hcover⟩ := hcovered i thread hget
  obtain ⟨hdelivered, hcame⟩ := hm.of_forced hproper hreturned
  have hkeep := (hlocked.counts_le_move hget hm).2.1
  have hbefore : pushedBefore i t.events =
      (ThreadEvent.seen ThreadEvent.push? before).length := by
    rw [hcalled]
    exact pushedBefore_eq honly
  -- Nothing that was added before is behind what is in flight.
  have hreached : (ThreadEvent.seen ThreadEvent.push? before).length ≤
      u.delivered.length + u.inFlight.length := by
    rcases hcame with ⟨hstage, hempty, -⟩ | ⟨call, hstage⟩
    · have hcounts := horder.counts_eq haccounted
      have hwaiting : t.waiting = [] := by
        rw [waiting, hlocked.buffer.inHand_eq hget (by rw [hstage]; rfl), hstage]
        rfl
      rw [Queue.isEmpty_eq_true_iff.1 hempty, hwaiting, List.length_nil] at hcounts
      have hle := pushedBefore_le i t.events
      omega
    · rw [hstage] at hcover
      simp only [Covered] at hcover
      omega
  have hwrote : 0 < n → (ThreadEvent.seen ThreadEvent.push? before).length ≤
      u.delivered.length := by
    intro hn
    rcases hcame with ⟨-, -, rfl⟩ | ⟨call, hstage⟩
    · contradiction
    · rw [hstage] at hcover
      simp only [Covered] at hcover
      rw [hdelivered]
      omega
  refine ⟨horder'.delivered_inFlight haccounted', ?_, ?_⟩
  · intro k hk
    have hlt := hk.lt
    rw [List.length_append]
    omega
  · rw [List.length_append]
    constructor
    · intro hall
      refine .inr fun k hk hflight => ?_
      have hlt := hall k hk
      omega
    · rintro (hn | hnone) k hk
      · have hlt := hk.lt
        have hle := hwrote hn
        omega
      · have hlt := hk.lt
        have hflight := hnone k hk
        omega

/-- A forced drain that delivers the line of another thread. -/
theorem forceDrain_barrier_iff_of_append :
    ∃ t u before, Reachable (start (.empty 1000 0 0) [[.append "a"], [.forceDrain]]) t ∧
      t.step? ⟨0, .accepted⟩ 1 = some u ∧ Appended before 0 ∧ u.delivered = ["a"] ∧
      u.delivered ++ u.inFlight <+: u.pushed ∧
      (∀ k, Appended before k → k < (u.delivered ++ u.inFlight).length) ∧
      ((∀ k, Appended before k → k < u.delivered.length) ↔
        0 < 1 ∨ ∀ k, Appended before k →
          ¬(u.delivered.length ≤ k ∧ k < (u.delivered ++ u.inFlight).length)) := by
  obtain ⟨hreach, hstep⟩ := reachable_getD_step?
    (start (.empty 1000 0 0) [[.append "a"], [.forceDrain]])
    (List.replicate 4 (0, ⟨0, .accepted⟩) ++ List.replicate 8 (1, ⟨0, .accepted⟩))
    ⟨0, .accepted⟩ 1 (by decide +kernel)
  refine ⟨_, _, [.returned 0 (.append "a") (.drained (.written 0)), .pushed 0 "a",
    .called 0 (.append "a")], hreach, hstep, ?_, ?_, ?_⟩
  · exact ⟨[], [], [.called 0 (.append "a")], 0, "a", _, rfl, rfl⟩
  · decide +kernel
  · exact forceDrain_barrier_iff [.finished 1 ["a"] .accepted, .handed 1 ["a"]] _
      hreach hstep (by decide +kernel) (by decide +kernel) (by simp)

/-- **A forced drain is not a barrier.**  It may find an empty queue and come
back while another thread still delivers a line that was added before. -/
theorem forceDrain_comes_back_before_delivery :
    ∃ t u before,
      Reachable (start (.empty 1000 2 0) [[.append "a"], [.append "b"], [.forceDrain]]) t ∧
      t.step? ⟨0, .accepted⟩ 2 = some u ∧
      u.events = .returned 2 .forceDrain (.drained (.written 0)) :: t.events ∧
      t.events = .called 2 .forceDrain :: before ∧
      Appended before 0 ∧ u.delivered = [] ∧ u.inFlight = ["a", "b"] := by
  obtain ⟨hreach, hstep⟩ := reachable_getD_step?
    (start (.empty 1000 2 0) [[.append "a"], [.append "b"], [.forceDrain]])
    (List.replicate 4 (0, ⟨0, .accepted⟩) ++ List.replicate 8 (1, ⟨0, .accepted⟩) ++
      List.replicate 3 (2, ⟨0, .accepted⟩))
    ⟨0, .accepted⟩ 2 (by decide +kernel)
  refine ⟨_, _, [.handed 1 ["a", "b"], .pushed 1 "b", .called 1 (.append "b"),
    .returned 0 (.append "a") (.drained (.written 0)), .pushed 0 "a", .called 0 (.append "a")],
    hreach, hstep, ?_, ?_, ?_, ?_, ?_⟩
  · decide +kernel
  · decide +kernel
  · exact ⟨[.handed 1 ["a", "b"], .pushed 1 "b", .called 1 (.append "b")], [],
      [.called 0 (.append "a")], 0, "a", _, rfl, rfl⟩
  · decide +kernel
  · decide +kernel

end Threads

end TraceLog
