import TraceLog.Proofs.Threads.Alone

/-!
# TraceLog.Proofs.Threads.Progress

Threads that share a buffer do not stand still.

A thread waits in two places only: for the lock of the buffer before it does
anything, and for the lock of the sink while it holds that of the buffer.  Who
has the sink waits for nothing, so the holder of the sink goes on, or else the
holder of the buffer does, or else a thread that waits for the buffer.

* `Able` — the thread can take a step, whatever the clock and the sink say;
* `able_or_waits` — where a thread waits;
* `Threads.work` — a bound on the steps that are left, which every step lowers;
* `writing` — whether a thread is in the middle of a delivery, by what happened;
* `exists_able_of_unfinished` — some thread can always go on, and none waits for
  the buffer while it delivers a batch.
-/

namespace TraceLog

/-- How many steps a call has left at most when it is here. -/
@[simp] def Stage.work : Stage → Nat
  | .idle => 0
  | .delivered _ _ => 1
  | .delivering _ _ => 2
  | .ready _ _ => 3
  | .passing _ _ => 4
  | .holding _ _ => 5
  | .draining _ => 6
  | .checking _ => 7
  | .inside _ => 8
  | .entering _ => 9

/-- Whether a batch is being delivered here. -/
@[simp] def Stage.isDelivering : Stage → Bool
  | .delivering _ _ => true
  | _ => false

namespace Thread

/-- The thread has come back from its last call. -/
def Done (thread : Thread) : Prop := thread.stage = .idle ∧ thread.todo = []

instance (thread : Thread) : Decidable thread.Done := inferInstanceAs (Decidable (_ ∧ _))

/-- How many steps the thread has left at most; a call takes ten. -/
def work (thread : Thread) : Nat := 10 * thread.todo.length + thread.stage.work

end Thread

namespace Threads

/-- Thread `i` can take a step, whatever the clock reads and whatever comes of a
delivery. -/
def Able (s : Threads) (i : Nat) : Prop := ∀ choice, (s.step? choice i).isSome = true

/-- How many steps all threads together have left at most. -/
def work (s : Threads) : Nat := (s.threads.map Thread.work).sum

/-- Whether thread `i` has handed a batch over and its delivery is not over, by
what happened, the latest first. -/
def writing (i : Nat) : List ThreadEvent → Bool
  | [] => false
  | .handed j _ :: earlier => if j = i then true else writing i earlier
  | .finished j _ _ :: earlier => if j = i then false else writing i earlier
  | _ :: earlier => writing i earlier

variable {buffer : Buffer} {calls : List (List BufferCall)} {choice : Choice} {i : Nat}
  {s t u : Threads} {thread thread' : Thread}

/-! ## Waiting -/

/-- **Where a thread waits.**  A thread that has something left to do can go on,
or it waits for a lock that somebody holds. -/
theorem able_or_waits (hget : s.threads[i]? = some thread) (hdone : ¬thread.Done) :
    s.Able i ∨ (∃ call, thread.stage = .entering call ∧ s.bufferHolder ≠ none) ∨
      ∃ call batch, thread.stage = .holding call batch ∧ s.sinkHolder ≠ none := by
  cases hstage : thread.stage with
  | idle =>
      cases htodo : thread.todo with
      | nil => exact absurd ⟨hstage, htodo⟩ hdone
      | cons call todo => exact .inl fun choice => by simp [step?, hget, hstage, htodo]
  | entering call =>
      by_cases hfree : s.bufferHolder = none
      · exact .inl fun choice => by simp [step?, hget, hstage, hfree]
      · exact .inr (.inl ⟨call, rfl, hfree⟩)
  | holding call batch =>
      by_cases hfree : s.sinkHolder = none
      · exact .inl fun choice => by simp [step?, hget, hstage, hfree]
      · exact .inr (.inr ⟨call, batch, rfl, hfree⟩)
  | inside call => exact .inl fun choice => by cases call <;> simp [step?, hget, hstage]
  | checking call =>
      refine .inl fun choice => ?_
      simp only [step?, hget, hstage]
      split <;> rfl
  | draining call =>
      refine .inl fun choice => ?_
      simp only [step?, hget, hstage]
      split <;> rfl
  | passing call batch | ready call batch | delivering call batch | delivered call result =>
      exact .inl fun choice => by simp [step?, hget, hstage]

/-- Who has the sink can go on. -/
theorem Locked.able_of_sinkHolder (h : s.Locked) (hholder : s.sinkHolder = some i) :
    s.Able i := by
  obtain ⟨thread, hget, hhas⟩ := (h.sink i).1 hholder
  have hdone : ¬thread.Done := fun hdone => by simp [hdone.1] at hhas
  rcases able_or_waits hget hdone with hable | ⟨call, hstage, -⟩ | ⟨call, batch, hstage, -⟩
  · exact hable
  · simp [hstage] at hhas
  · simp [hstage] at hhas

/-- Who has the buffer can go on, unless somebody else has the sink. -/
theorem Locked.exists_able_of_bufferHolder (h : s.Locked) (hholder : s.bufferHolder = some i) :
    ∃ j, s.Able j := by
  obtain ⟨thread, hget, hhas⟩ := (h.buffer i).1 hholder
  have hdone : ¬thread.Done := fun hdone => by simp [hdone.1] at hhas
  rcases able_or_waits hget hdone with hable | ⟨call, hstage, -⟩ | ⟨call, batch, -, hsink⟩
  · exact ⟨i, hable⟩
  · simp [hstage] at hhas
  · obtain ⟨j, hj⟩ := Option.ne_none_iff_exists'.1 hsink
    exact ⟨j, h.able_of_sinkHolder hj⟩

/-- Some thread can go on as long as one has something left to do. -/
theorem Locked.exists_able (h : s.Locked) (hmem : thread ∈ s.threads) (hdone : ¬thread.Done) :
    ∃ i, s.Able i := by
  obtain ⟨i, hget⟩ := List.mem_iff_getElem?.1 hmem
  rcases able_or_waits hget hdone with hable | ⟨call, -, hbuffer⟩ | ⟨call, batch, -, hsink⟩
  · exact ⟨i, hable⟩
  · obtain ⟨j, hj⟩ := Option.ne_none_iff_exists'.1 hbuffer
    exact h.exists_able_of_bufferHolder hj
  · obtain ⟨j, hj⟩ := Option.ne_none_iff_exists'.1 hsink
    exact ⟨j, h.able_of_sinkHolder hj⟩

/-! ## Steps that are left -/

/-- A move lowers what its thread has left. -/
theorem Move.thread_work_lt (hm : Move choice i s thread thread' u) :
    thread'.work < thread.work := by
  cases hm with
  | call hstage htodo =>
      simp only [Thread.work, hstage, htodo, Stage.work, List.length_cons]
      omega
  | _ hstage => simp [Thread.work, hstage]

/-- Every move lowers what all threads together have left. -/
theorem Move.work_lt (hget : s.threads[i]? = some thread)
    (hm : Move choice i s thread thread' u) : u.work < s.work := by
  have hsum := sum_map_set Thread.work hget thread'
  have hlt := hm.thread_work_lt
  rw [work, work, hm.threads_eq]
  omega

/-- No schedule is longer than what is left. -/
theorem length_add_work_le {schedule : List (Nat × Choice)} (h : s.follow? schedule = some u) :
    schedule.length + u.work ≤ s.work := by
  induction schedule generalizing s with
  | nil =>
      rw [follow?, Option.some.injEq] at h
      simp [h]
  | cons turn schedule ih =>
      obtain ⟨i, choice⟩ := turn
      rw [follow?] at h
      obtain ⟨t, hstep, hrest⟩ := Option.bind_eq_some_iff.1 h
      obtain ⟨thread, thread', hget, hm⟩ := exists_move_of_step? hstep
      have hlt := hm.work_lt hget
      have hle := ih hrest
      rw [List.length_cons]
      omega

/-- Every call can be brought to its end. -/
theorem exists_all_done (h : Reachable (start buffer calls) s) :
    ∃ schedule u, s.follow? schedule = some u ∧ ∀ thread ∈ u.threads, thread.Done := by
  -- Induction on what is left: a state in which not all is done has a step.
  induction hwork : s.work using Nat.strongRecOn generalizing s with
  | _ n ih =>
      by_cases hall : ∀ thread ∈ s.threads, thread.Done
      · exact ⟨[], s, rfl, hall⟩
      · simp only [not_forall] at hall
        obtain ⟨thread, hmem, hdone⟩ := hall
        obtain ⟨i, hable⟩ := (locked_of_reachable h).exists_able hmem hdone
        obtain ⟨t, hstep⟩ := Option.isSome_iff_exists.1 (hable ⟨0, .accepted⟩)
        obtain ⟨thread, thread', hget, hm⟩ := exists_move_of_step? hstep
        have hlt : t.work < n := hwork ▸ hm.work_lt hget
        obtain ⟨schedule, u, hfollow, hu⟩ := ih t.work hlt (h.step _ i hstep) rfl
        refine ⟨(i, ⟨0, .accepted⟩) :: schedule, u, ?_, hu⟩
        rw [follow?, hstep, Option.bind_some, hfollow]

/-! ## Deliveries -/

/-- What happened shows which threads are in the middle of a delivery. -/
def WritingShown (s : Threads) : Prop :=
  ∀ i, writing i s.events = (s.threads[i]?).elim false (·.stage.isDelivering)

theorem WritingShown.move (h : s.WritingShown) (hget : s.threads[i]? = some thread)
    (hm : Move choice i s thread thread' u) : u.WritingShown := by
  have hi : i < s.threads.length := (List.getElem?_eq_some_iff.1 hget).1
  have hown := h i
  rw [hget, Option.elim_some] at hown
  intro j
  rw [hm.threads_eq]
  by_cases hij : i = j
  · subst hij
    rw [List.getElem?_set_self hi, Option.elim_some]
    cases hm <;> simp_all [writing]
  · rw [List.getElem?_set_ne hij, ← h j]
    cases hm <;> simp [writing, hij]

theorem writingShown_of_reachable (h : Reachable (start buffer calls) s) : s.WritingShown := by
  refine h.induct (fun i => ?_) fun ih hget hm => ih.move hget hm
  cases hget : calls[i]? with
  | none => simp [start, writing, hget]
  | some todo => simp [start, writing, hget]

/-- A thread that delivers a batch has the sink and not the buffer, and goes on
whoever has the buffer. -/
theorem goes_on_of_writing (h : Reachable (start buffer calls) s)
    (hwriting : writing i s.events = true) :
    s.sinkHolder = some i ∧ s.bufferHolder ≠ some i ∧
      ∀ holder, Able { s with bufferHolder := holder } i := by
  have hlocked := locked_of_reachable h
  have hdelivering := writingShown_of_reachable h i
  rw [hwriting] at hdelivering
  cases hget : s.threads[i]? with
  | none => simp [hget] at hdelivering
  | some thread =>
      rw [hget, Option.elim_some] at hdelivering
      cases hstage : thread.stage with
      | delivering call batch =>
          refine ⟨hlocked.sink.holder_eq hget (by rw [hstage]; rfl),
            hlocked.buffer.holder_ne hget (by rw [hstage]; rfl), fun holder choice => ?_⟩
          simp [step?, hget, hstage]
      | _ => simp [hstage] at hdelivering

/-- **Threads do not stand still.**  Whatever the schedule, the readings of the
clock and the answers of the sink: while a thread has a call in progress or
still to make, some thread can take a step.  A thread that delivers a batch does
not hold the buffer, and goes on whoever holds it.  And no schedule goes on for
ever, so every call comes back in the end. -/
theorem exists_able_of_unfinished (h : Reachable (start buffer calls) s) :
    ((∃ thread ∈ s.threads, ¬thread.Done) → ∃ i, s.Able i) ∧
      (∀ i, writing i s.events = true → s.sinkHolder = some i ∧ s.bufferHolder ≠ some i ∧
        ∀ holder, Able { s with bufferHolder := holder } i) ∧
      (∀ schedule u, s.follow? schedule = some u → schedule.length ≤ s.work) ∧
      ∃ schedule u, s.follow? schedule = some u ∧ ∀ thread ∈ u.threads, thread.Done := by
  refine ⟨?_, fun i => goes_on_of_writing h, ?_, exists_all_done h⟩
  · rintro ⟨thread, hmem, hdone⟩
    exact (locked_of_reachable h).exists_able hmem hdone
  · intro schedule u hfollow
    have hle := length_add_work_le hfollow
    omega

/-- One thread delivers a batch, the next one waits for the sink with a batch
and the buffer in its hands, and the last one waits for the buffer. -/
theorem exists_able_of_unfinished_of_two_waiting :
    ∃ s, Reachable (start (.empty 1000 1 0) [[.append "a"], [.append "b"], [.stats]]) s ∧
      s.threads.map (·.stage) =
        [.delivering (.append "a") ["a"], .holding (.append "b") ["b"], .entering .stats] ∧
      s.step? ⟨0, .broken⟩ 1 = none ∧ s.step? ⟨0, .broken⟩ 2 = none ∧ (∃ i, s.Able i) ∧
      (s.sinkHolder = some 0 ∧ s.bufferHolder ≠ some 0 ∧
        ∀ holder, Able { s with bufferHolder := holder } 0) ∧
      ∃ schedule u, s.follow? schedule = some u ∧ ∀ thread ∈ u.threads, thread.Done := by
  have hreach := reachable_getD_follow?
    (start (.empty 1000 1 0) [[.append "a"], [.append "b"], [.stats]])
    (List.replicate 8 (0, ⟨0, .broken⟩) ++ List.replicate 5 (1, ⟨0, .broken⟩) ++
      [(2, ⟨0, .broken⟩)])
  obtain ⟨hable, hwriting, -, hdone⟩ := exists_able_of_unfinished hreach
  refine ⟨_, hreach, ?_, ?_, ?_, hable ?_, hwriting 0 ?_, hdone⟩
  all_goals decide +kernel

end Threads

end TraceLog
