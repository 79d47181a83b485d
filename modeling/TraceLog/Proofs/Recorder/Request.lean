import TraceLog.Proofs.Record.Merge
import TraceLog.Proofs.Record.OneLine
import TraceLog.Recorder

/-!
# TraceLog.Proofs.Recorder.Request

What becomes of a request.

Whether a request is recorded depends on its payloads alone.  A request that
is refused leaves the session and the disk as they were; one that is recorded
adds one line, whatever happens to the batch that it may set off.

* `Session.Took` — one line has come into a session;
* `Recorder.request?_outcome` — the outcomes of a request.
-/

namespace TraceLog

/-- Batches for a file are accepted or refused, never broken off. -/
theorem Generations.sink_ne_broken (g : Generations) (batch : List String) (disk : Disk) :
    (g.sink batch disk).1 ≠ .broken := by
  rw [sink]
  split <;> simp

/-- A session that has taken one line: the line waits behind the others, or
the whole queue went to the file as one batch with the line at its end. -/
inductive Session.Took (line : String) (clock : Clock) (s : Session) (disk : Disk) :
    Session → Disk → Prop where
  | waits (hdue : (s.buffer.push line).isDue clock.check = false) :
      Took line clock s disk { s with buffer := s.buffer.push line } disk
  | drains {delivery : Delivery} {disk' : Disk}
      (hdue : (s.buffer.push line).isDue clock.check = true)
      (hsink : s.file.sink (s.buffer.queue.toList ++ [line]) disk = (delivery, disk'))
      (hdelivery : delivery ≠ .broken) :
      Took line clock s disk
        { s with
          buffer := (((s.buffer.push line).take clock.take).begin).settle
            (s.buffer.queue.size + 1) delivery }
        disk'

namespace Session

/-- The lines that came into a session: those that wait, those that were
written and those that were dropped. -/
def taken (s : Session) : Nat := s.buffer.queue.size + s.buffer.written + s.buffer.dropped

/-- One line has come in, whatever became of it. -/
theorem Took.taken_eq {line : String} {clock : Clock} {s s' : Session} {disk disk' : Disk}
    (h : s.Took line clock disk s' disk') : s'.taken = s.taken + 1 := by
  cases h with
  | waits hdue =>
      simp only [taken, Buffer.push, Queue.size_push]
      omega
  | @drains delivery disk' hdue hsink hdelivery =>
      cases delivery with
      | accepted =>
          simp only [taken, Buffer.push, Buffer.take, Buffer.begin, Buffer.settle,
            Queue.size_empty]
          omega
      | refused failure =>
          simp only [taken, Buffer.push, Buffer.take, Buffer.begin, Buffer.settle,
            Queue.size_empty]
          omega
      | broken => contradiction

end Session

namespace Recorder

variable {record : Record} {clock : Clock} {s : Session} {disk : Disk}

/-- A record without a line is refused, and nothing changes. -/
theorem add_of_toLine_eq_error {failure : Failure} (h : record.toLine = .error failure) :
    add record clock ⟨some s⟩ disk = (.error failure, ⟨some s⟩, disk) := by
  simp [add, h]

/-- A record with a line is taken. -/
theorem add_of_toLine_eq_ok (clock : Clock) (s : Session) (disk : Disk) {line : String}
    (h : record.toLine = .ok line) :
    ∃ s' disk', add record clock ⟨some s⟩ disk = (.ok (), ⟨some s'⟩, disk') ∧
      s.Took line clock disk s' disk' := by
  cases hdue : (s.buffer.push line).isDue clock.check with
  | false =>
      refine ⟨_, _, ?_, .waits hdue⟩
      simp [add, h, Buffer.append, Buffer.drainIfDue, hdue]
  | true =>
      have hempty : ¬(s.buffer.push line).queue.isEmpty = true := by simp
      have hsink : s.file.sink (s.buffer.queue.toList ++ [line]) disk =
          ((s.file.sink (s.buffer.queue.toList ++ [line]) disk).1,
            (s.file.sink (s.buffer.queue.toList ++ [line]) disk).2) := rfl
      refine ⟨_, _, ?_, .drains hdue hsink (s.file.sink_ne_broken _ _)⟩
      simp [add, h, Buffer.append, Buffer.drainIfDue, hdue,
        Buffer.drain_of_not_isEmpty _ _ hempty]

variable {time : Timestamp} {request : Request}

/-- **The outcomes of a request.**  Let a request be recorded in any session,
with any faults of the disk.  It comes to no end exactly if a list would have
to be built that cannot exist.  Otherwise it is recorded exactly if the fields
that survive are encodable.  If it is refused, that is because it cannot be
encoded, and the session and the disk are as before; if it is recorded, the
session has taken one line. -/
theorem request?_outcome (time : Timestamp) (request : Request) (clock : Clock) (s : Session)
    (disk : Disk) :
    (request? time request clock ⟨some s⟩ disk = none ↔ request.buildable = false) ∧
    ((∃ r disk', request? time request clock ⟨some s⟩ disk = some (.ok (), r, disk')) ↔
      request.buildable = true ∧ request.merged.Encodable) ∧
    (∀ failure r disk',
      request? time request clock ⟨some s⟩ disk = some (.error failure, r, disk') →
        (∃ fault, failure = .serialization fault) ∧ r = ⟨some s⟩ ∧ disk' = disk) ∧
    (∀ r disk', request? time request clock ⟨some s⟩ disk = some (.ok (), r, disk') →
      ∃ line s', (Record.request time request).toLine = .ok line ∧ r = ⟨some s'⟩ ∧
        s.Took line clock disk s' disk' ∧ s'.taken = s.taken + 1) := by
  cases hbuild : request.buildable with
  | false => simp [request?, hbuild]
  | true =>
      have hrequest : request? time request clock ⟨some s⟩ disk =
          some (add (.request time request) clock ⟨some s⟩ disk) := by
        simp [request?, hbuild, Recorder.request]
      have hline : (∃ line, (Record.request time request).toLine = .ok line ∧
            request.data.HasDocument) ∨
          ∃ fault, (Record.request time request).toLine =
            .error (.serialization (.encoding fault)) ∧ request.data.toJson = .error fault :=
        Record.toLine_payload time .request request.data
      rw [hrequest, ← request.hasDocument_data_iff]
      rcases hline with ⟨line, hline, hdocument⟩ | ⟨fault, hline, hfault⟩
      · obtain ⟨s', disk', hadd, htook⟩ :=
          add_of_toLine_eq_ok clock s disk hline
        rw [hadd]
        refine ⟨by simp, ?_, by simp, ?_⟩
        · exact ⟨fun _ => ⟨rfl, hdocument⟩, fun _ => ⟨_, _, rfl⟩⟩
        · intro r d heq
          simp only [Option.some.injEq, Prod.mk.injEq, true_and] at heq
          obtain ⟨rfl, rfl⟩ := heq
          exact ⟨line, s', hline, rfl, htook, htook.taken_eq⟩
      · rw [add_of_toLine_eq_error hline]
        refine ⟨by simp, ?_, ?_, by simp⟩
        · have hnone : ¬request.data.HasDocument := by
            rintro ⟨document, hdocument⟩
            rw [hdocument] at hfault
            contradiction
          simp [hnone]
        · intro failure r d heq
          simp only [Option.some.injEq, Prod.mk.injEq, Except.error.injEq] at heq
          obtain ⟨rfl, rfl, rfl⟩ := heq
          exact ⟨⟨_, rfl⟩, rfl, rfl⟩

/-- **Surviving fields do not decide alone.**  A field that is replaced is
normalized all the same, and here that asks for a list of `2 ^ 64 - 1` empty
lists. -/
theorem request?_eq_none_of_replaced_field :
    ∃ request : Request, request.merged.Encodable ∧
      ∀ time clock s disk, request? time request clock ⟨some s⟩ disk = none := by
  have hrequest : ∃ request : Request, request.merged.Encodable ∧ request.buildable = false :=
    ⟨((Request.of "get" 1 ⟨0, [2], [.int 7, .int 8]⟩ ⟨1, [2], [.int 0, .int 1]⟩).withExtra "x"
      (.array 2 [18446744073709551615, 0] [])).withExtra "x" .null,
      by decide +kernel, by decide +kernel⟩
  obtain ⟨request, hencodable, hbuild⟩ := hrequest
  refine ⟨request, hencodable, ?_⟩
  intro time clock s disk
  simp [request?, hbuild]

end Recorder

end TraceLog
