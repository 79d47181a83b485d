import TraceLog.Proofs.Recorder.Request
import TraceLog.Proofs.Store.Lines

/-!
# TraceLog.Proofs.Recorder.Calls

What the calls of a recorder do to its session and its file.

A recorder that could be made has opened its file, after the generations have
moved on if that was large.  Whatever a call writes afterwards is the whole
queue, handed to the file as one batch.

* `Recorder.of_eq_ok` — making a recorder;
* `Recorder.add_eq_ok` — recording an event;
* `Recorder.flush_eq` — writing what waits.
-/

namespace TraceLog

theorem Generations.sink_snd (g : Generations) (batch : List String) (disk : Disk) :
    (g.sink batch disk).2 = (g.write batch disk).2 := by
  rw [sink]
  split
  · next hwrite => rw [hwrite]
  · next hwrite => rw [hwrite]

namespace Recorder

/-- A file that could be prepared has been opened, after the generations have
moved on if it was large: as if an empty batch had been written. -/
theorem prepare_eq_ok {path : String} {g : Generations} {d d' : Disk} (htidy : g.Tidy d.tree)
    (hquiet : d.Quiet) (hrun : prepare path g d = (.ok (), d')) :
    d'.faults = d.faults ∧ g.Tidy d'.tree ∧
      ∃ rotated, ∀ j, g.held d'.tree j = g.written rotated [] (g.held d.tree) j := by
  rw [prepare] at hrun
  obtain ⟨_, made, hmake, hrun⟩ := FileAction.bind_eq_ok hrun
  obtain ⟨rotated, after, hturn, hrun⟩ := FileAction.bind_eq_ok hrun
  obtain ⟨place, opened, hopen, hrun⟩ := FileAction.bind_eq_ok hrun
  cases hrun
  obtain ⟨way, name, h⟩ := Generations.exists_named hopen
  have hgrows : d.Grows made := by
    have hmakes := FileAction.onlyMakes_makeParent path d
    rwa [hmake] at hmakes
  have hquiet₁ := hquiet.of_faults_eq hgrows.faults_eq
  obtain ⟨htidy₁, hheld₁⟩ := Generations.tidy_of_node?_eq htidy hgrows.tree.home_eq
    fun k => hgrows.tree.node?_eq _
  obtain ⟨hkept₂, hheld₂⟩ := Generations.rotateIfLarge_eq_ok h htidy₁ hquiet₁ hturn
  obtain ⟨-, hkept₃, -, hheld₃⟩ := Generations.openActive_eq_ok h hkept₂.tidy hopen
  have hturned : ∀ k, g.held after.tree k = g.turned rotated (g.held d.tree) k := by
    intro k
    rw [hheld₂, ← funext hheld₁]
    rfl
  refine ⟨?_, hkept₃.tidy, rotated, ?_⟩
  · rw [hkept₃.faults_eq, hkept₂.faults_eq, hgrows.faults_eq]
  · intro j
    rw [hheld₃, hturned, hturned, Generations.written]
    simp

/-- A recorder that could be made does nothing, or has an empty session of the
file that the settings ask for. -/
theorem of_eq_ok {t : Tracing} {now : Nat} {d d' : Disk} {r : Recorder}
    (hrun : Recorder.of t now d = (.ok r, d')) :
    (r = disabled ∧ d' = d) ∨
      (prepare t.path (.ofTracing t) d = (.ok (), d') ∧
        ∃ s, r = ⟨some s⟩ ∧ s.file = .ofTracing t ∧ s.buffer.queue.toList = []) := by
  rw [Recorder.of] at hrun
  split at hrun
  · cases hrun
    exact .inl ⟨rfl, rfl⟩
  · split at hrun
    · cases hrun
    · dsimp only at hrun
      split at hrun
      · cases hrun
      · next hprepare =>
          cases hrun
          exact .inr ⟨hprepare, _, rfl, rfl, rfl⟩

variable {record : Record} {line : String}

/-- A record with a line is taken: the line waits, or the queue and the line
are written. -/
theorem add_eq_ok (h : record.toLine = .ok line) (clock : Clock) (s : Session) (disk : Disk) :
    ∃ s' disk', add record clock ⟨some s⟩ disk = (.ok (), ⟨some s'⟩, disk') ∧
      s'.file = s.file ∧
      (((s.buffer.push line).isDue clock.check = false ∧
          s'.buffer.queue.toList = s.buffer.queue.toList ++ [line] ∧ disk' = disk) ∨
        ((s.buffer.push line).isDue clock.check = true ∧ s'.buffer.queue.toList = [] ∧
          disk' = (s.file.write (s.buffer.queue.toList ++ [line]) disk).2)) := by
  obtain ⟨s', disk', hadd, htook⟩ := add_of_toLine_eq_ok clock s disk h
  refine ⟨s', disk', hadd, ?_⟩
  cases htook with
  | waits hdue => exact ⟨rfl, .inl ⟨hdue, by simp, rfl⟩⟩
  | drains hdue hsink hdelivery =>
      refine ⟨rfl, .inr ⟨hdue, ?_, ?_⟩⟩
      · simp [Buffer.begin]
      · rw [← Generations.sink_snd, hsink]

/-- What waits is written, and then nothing waits. -/
theorem flush_eq (clock : Clock) (s : Session) (disk : Disk) :
    ∃ s', (flush clock ⟨some s⟩ disk).2 =
        (⟨some s'⟩, (s.file.write s.buffer.queue.toList disk).2) ∧
      s'.file = s.file ∧ s'.buffer.queue.toList = [] := by
  have hqueue := Buffer.isEmpty_queue_drain s.file.sink clock.take s.buffer disk
  rw [Queue.isEmpty_eq_true_iff] at hqueue
  refine ⟨_, Prod.ext rfl ?_, rfl, hqueue⟩
  by_cases hempty : s.buffer.queue.isEmpty = true
  · have hnothing : s.buffer.queue.toList = [] := Queue.isEmpty_eq_true_iff.1 hempty
    simp only [flush, Buffer.forceDrain, Buffer.drain_of_isEmpty _ _ hempty, hnothing]
    rfl
  · simp only [flush, Buffer.forceDrain, Buffer.drain_of_not_isEmpty _ _ hempty,
      Generations.sink_snd]

/-- Closing a recorder that has been flushed writes nothing. -/
theorem close_flush (first second : Clock) (r : Recorder) (disk : Disk) :
    (r.flush first disk).2.1.close second (r.flush first disk).2.2 =
      (r.flush first disk).2.2 := by
  obtain ⟨_ | s⟩ := r
  · rfl
  · obtain ⟨s', hflush, -, hqueue⟩ := flush_eq first s disk
    rw [hflush]
    obtain ⟨s'', hagain, -, -⟩ := flush_eq second s' (s.file.write s.buffer.queue.toList disk).2
    rw [close, hagain, hqueue]
    rfl

end Recorder

end TraceLog
